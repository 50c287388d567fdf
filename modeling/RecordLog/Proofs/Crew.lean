import RecordLog.Crew
import RecordLog.Proofs.SlotTable

/-! Nobody is lost from a crew. Workers that have ended stay so, a new one is registered at once,
and whoever leaves the registry is among the members handed out to be joined. -/
namespace RecordLog.Crew

variable {τ : Type} {c c' c'' : Crew τ}

/-- The numbers of the workers in the registry. -/
def registered (c : Crew τ) : List Nat := c.registry.values

/-- Workers may have ended or changed their tasks, nothing else. -/
structure Ages (c c' : Crew τ) : Prop where
  registry : c'.registry = c.registry
  length : c'.workers.length = c.workers.length
  complete : ∀ i, c.isComplete i → c'.isComplete i

lemma Ages.refl (c : Crew τ) : c.Ages c := ⟨rfl, rfl, fun _ => id⟩

lemma Ages.trans (h : c.Ages c') (h' : c'.Ages c'') : c.Ages c'' where
  registry := h'.registry.trans h.registry
  length := h'.length.trans h.length
  complete i hi := h'.complete i (h.complete i hi)

lemma isComplete_iff {i : Nat} :
    c.isComplete i ↔ ∃ w, c.workers[i]? = some w ∧ w.isComplete := by
  simp [isComplete, Option.any_eq_true]

lemma update_self {i : Nat} {w : Worker τ} (hw : c.workers[i]? = some w)
    (f : Worker τ → Worker τ) : (c.update i f).workers[i]? = some (f w) := by
  rw [update, List.getElem?_modify, hw]
  simp

lemma update_other {i j : Nat} (hij : j ≠ i) (f : Worker τ → Worker τ) :
    (c.update j f).workers[i]? = c.workers[i]? := by
  rw [update, List.getElem?_modify]
  simp [hij]

lemma update_ages (i : Nat) {f : Worker τ → Worker τ} (hf : ∀ w, w.isComplete → (f w).isComplete) :
    c.Ages (c.update i f) where
  registry := rfl
  length := List.length_modify ..
  complete := by
    intro j hj
    obtain ⟨w, hw, hend⟩ := isComplete_iff.mp hj
    rw [isComplete_iff, update, List.getElem?_modify, hw]
    by_cases hij : i = j
    · exact ⟨f w, by simp [hij], hf w hend⟩
    · exact ⟨w, by simp [hij], hend⟩

lemma finish_ages (i : Nat) (ending : Worker.Ending) : c.Ages (c.finish i ending) := by
  refine update_ages i fun w hw => ?_
  obtain ⟨e, he⟩ := Option.isSome_iff_exists.mp hw
  simp [Worker.isComplete, he]

lemma spawn_length (task : Nat → τ) :
    (c.spawn task).2.workers.length = c.workers.length + 1 := by
  simp [spawn]

lemma spawn_size (task : Nat → τ) : (c.spawn task).2.registry.size = c.registry.size + 1 :=
  SlotTable.size_insert _ _

/-- A new worker is registered. -/
lemma mem_registered_spawn {task : Nat → τ} {i : Nat} :
    i ∈ (c.spawn task).2.registered ↔ i = c.workers.length ∨ i ∈ c.registered :=
  SlotTable.mem_values_insert

lemma spawn_complete {task : Nat → τ} {i : Nat} (h : c.isComplete i) :
    (c.spawn task).2.isComplete i := by
  obtain ⟨w, hw, hend⟩ := isComplete_iff.mp h
  obtain ⟨hi, -⟩ := List.getElem?_eq_some_iff.mp hw
  refine isComplete_iff.mpr ⟨w, ?_, hend⟩
  simp [spawn, List.getElem?_append_left hi, hw]

lemma members_length (taken : List (Nat × Nat)) : (members taken).length = taken.length :=
  List.length_map _

lemma members_worker (taken : List (Nat × Nat)) :
    (members taken).map (·.worker) = taken.map (·.2) := by
  simp [members]

/-- Who leaves the registry with those that have ended is handed out. -/
lemma mem_takeComplete {i : Nat} (h : i ∈ c.registered) :
    i ∈ c.takeComplete.1.map (·.worker) ∨ i ∈ c.takeComplete.2.registered := by
  have hkept := c.registry.mem_values_extract c.isComplete h
  rw [← members_worker] at hkept
  exact hkept

/-- Only who has ended is handed out while others go on. -/
lemma takeComplete_ended {i : Nat} (h : i ∈ c.takeComplete.1.map (·.worker)) : c.isComplete i := by
  have hmem : i ∈ (c.registry.extract c.isComplete).1.map (·.2) := members_worker _ ▸ h
  obtain ⟨⟨key, i⟩, htaken, rfl⟩ := List.mem_map.mp hmem
  exact (List.mem_filter.mp htaken).2

lemma registered_of_takeComplete {i : Nat} (h : i ∈ c.takeComplete.2.registered) :
    i ∈ c.registered := SlotTable.mem_values_of_extract c.registry c.isComplete h

lemma takeComplete_size :
    c.takeComplete.1.length + c.takeComplete.2.registry.size = c.registry.size := by
  have hsize := c.registry.size_extract c.isComplete
  rw [← members_length] at hsize
  exact hsize

/-- Everybody is handed out at the end. -/
lemma takeAll_worker : c.takeAll.1.map (·.worker) = c.registered := by
  have hall := congrArg (List.map (·.2)) c.registry.extract_all
  rw [← members_worker] at hall
  exact hall

lemma mem_takeAll {i : Nat} (h : i ∈ c.registered) : i ∈ c.takeAll.1.map (·.worker) :=
  takeAll_worker ▸ h

lemma takeAll_length : c.takeAll.1.length = c.registry.size := by
  have hall := congrArg List.length c.registry.extract_all
  rw [← members_length] at hall
  exact hall

lemma takeAll_registry : c.takeAll.2.registry.size = 0 := c.registry.size_extract_all

lemma registered_length : c.registered.length = c.registry.size := c.registry.length_values

lemma registered_nil (h : c.registry.size = 0) : c.registered = [] :=
  List.eq_nil_of_length_eq_zero (registered_length.trans h)

/-- Forcing sockets closed ends nobody by itself. -/
lemma foldl_update_ages (live : List Nat) : ∀ c : Crew τ,
    c.Ages (live.foldl (fun c i => c.update i ({ · with shut := true })) c) := by
  induction live with
  | nil => exact Ages.refl
  | cons i live ih =>
    intro c
    have hfirst : c.Ages (c.update i ({ · with shut := true })) := update_ages i fun w hw => hw
    exact hfirst.trans (ih _)

lemma takeAll_workers :
    c.takeAll.2.workers.length = c.workers.length ∧
      ∀ i, c.isComplete i → c.takeAll.2.isComplete i := by
  have hages := foldl_update_ages
    (((c.registry.extract fun _ => true).1.map (·.2)).filter (!c.isComplete ·)) c
  exact ⟨hages.length, hages.complete⟩

lemma foldl_update_getElem? (live : List Nat) (i : Nat) : ∀ c : Crew τ,
    (live.foldl (fun c i => c.update i ({ · with shut := true })) c).workers[i]?
      = c.workers[i]?.map fun w => if i ∈ live then { w with shut := true } else w := by
  induction live with
  | nil => intro c; simp
  | cons j live ih =>
    intro c
    rw [List.foldl_cons, ih]
    by_cases hij : j = i
    · subst hij
      cases hw : c.workers[j]? with
      | none => simp [update, hw]
      | some w => simp [update_self hw]
    · have hmem : i ∈ j :: live ↔ i ∈ live := by simp [Ne.symm hij]
      rw [update_other hij]
      simp only [hmem]

/-- Who is registered and has not ended has its socket forced closed. -/
lemma takeAll_getElem? (i : Nat) : c.takeAll.2.workers[i]? = c.workers[i]?.map fun w =>
    if i ∈ c.registered ∧ w.isComplete = false then { w with shut := true } else w := by
  have hall : (c.registry.extract fun _ => true).1.map (·.2) = c.registered := by
    rw [SlotTable.extract_all]
    rfl
  have hfold := foldl_update_getElem?
    (((c.registry.extract fun _ => true).1.map (·.2)).filter (!c.isComplete ·)) i c
  refine hfold.trans ?_
  rw [hall]
  cases hw : c.workers[i]? with
  | none => rfl
  | some w =>
    have hcomplete : c.isComplete i = w.isComplete := by simp [isComplete, hw]
    simp [List.mem_filter, hcomplete]

end RecordLog.Crew

import RecordLog.Proofs.Crew.Sweeping

/-! A call during which no worker ends does what the crew does in one go. -/
namespace RecordLog.Crew

variable {τ : Type} {c : Crew τ}

/-- The members that a sweep takes out and the crew then. -/
def Sweep.take (which : Sweep) (c : Crew τ) : List Member × Crew τ :=
  match which with
  | finished => c.takeComplete
  | all => c.takeAll

lemma foldl_watched_finished (ms : List Member) : ms.foldl (watched .finished) c = c := by
  induction ms with
  | nil => rfl
  | cons m ms ih => exact ih

lemma foldl_watched_all (ms : List Member) : ms.foldl (watched .all) c
    = ((ms.map (·.worker)).filter (!c.isComplete ·)).foldl (fun c i => c.shut i) c := by
  induction ms generalizing c with
  | nil => rfl
  | cons m ms ih =>
    rw [List.foldl_cons, ih, isComplete_watched]
    cases hm : c.isComplete m.worker <;> simp [watched, hm]

lemma registry_foldl_watched (which : Sweep) (ms : List Member) :
    (ms.foldl (watched which) c).registry = c.registry := by
  induction ms generalizing c with
  | nil => rfl
  | cons m ms ih =>
    rw [List.foldl_cons, ih, registry_watched]

/-- Whom a sweep takes out. -/
def Sweep.picks (which : Sweep) (c : Crew τ) : Nat → Bool :=
  match which with
  | finished => c.isComplete
  | all => fun _ => true

lemma take_eq (which : Sweep) (c : Crew τ) : which.take c =
    (c.entries.filter (which.picks c ·.worker), { c.entries.foldl (watched which) c with
      registry := c.registry.eraseAll
        ((c.entries.filter (which.picks c ·.worker)).map fun m => (m.id, m.worker)) }) := by
  have hmembers : c.entries.filter (which.picks c ·.worker)
      = members (c.registry.extract (which.picks c)).1 := by
    simp [entries, members, SlotTable.extract, List.filter_map, Function.comp_def]
  have hpairs : (members (c.registry.extract (which.picks c)).1).map (fun m => (m.id, m.worker))
      = (c.registry.extract (which.picks c)).1 := by
    rw [members, List.map_map]
    exact List.map_id _
  rw [hmembers, hpairs]
  cases which with
  | finished =>
    rw [foldl_watched_finished]
    rfl
  | all =>
    have hworkers : c.entries.map (·.worker) = (c.registry.extract fun _ => true).1.map (·.2) := by
      rw [SlotTable.extract_all]
      exact entries_worker
    rw [foldl_watched_all, hworkers]
    rfl

/-- The keys that a sweep finds are those of the members to take out. -/
lemma keys_watched (which : Sweep) (c : Crew τ) :
    which.keys (c.entries.foldl (watched which) c)
      ((c.entries.filter (c.isComplete ·.worker)).map (·.id)) = (which.take c).1.map (·.id) := by
  rw [take_eq]
  cases which with
  | finished => rfl
  | all =>
    have heveryone : c.entries.filter (Sweep.all.picks c ·.worker) = c.entries :=
      List.filter_eq_self.mpr fun _ _ => rfl
    rw [Sweep.keys, entries, registry_foldl_watched, heveryone]
    rfl

namespace Calls

variable {s s' s'' : Calls τ}

lemma run?_trans {first second : List (Move τ)} (h : s.run? first = some s')
    (h' : s'.run? second = some s'') : s.run? (first ++ second) = some s'' := by
  rw [run?, List.foldlM_append]
  exact Option.bind_eq_some_iff.mpr ⟨s', h, h'⟩

lemma run_looking {which : Sweep} {left : List Member} {marked : List Nat}
    (stage : s.stage = .looking which left marked) :
    s.run? (List.replicate left.length .proceed) = some { s with
      crew := left.foldl (watched which) s.crew
      stage := .looking which []
        (marked ++ (left.filter (s.crew.isComplete ·.worker)).map (·.id))
      seen := s.seen ++ left.map fun m => (m, s.crew.isComplete m.worker) } := by
  induction left generalizing s marked with
  | nil =>
    simp [run?, ← stage]
  | cons m left ih =>
    refine run?_cons.mpr ⟨s.look which m left marked, by simp [step?, proceed?, stage], ?_⟩
    rw [ih (s := s.look which m left marked) rfl]
    have hcomplete : (s.look which m left marked).crew.isComplete = s.crew.isComplete :=
      isComplete_watched which m
    rw [hcomplete]
    cases hm : s.crew.isComplete m.worker <;> simp [look, watched, hm]

lemma run_removing {ms out : List Member} (stage : s.stage = .removing (ms.map (·.id)) out)
    (held : ∀ m ∈ ms, s.crew.registry.get? m.id = some m.worker)
    (distinct : (ms.map (·.id)).Nodup) :
    s.run? (List.replicate ms.length .proceed) = some { s with
      crew := { s.crew with
        registry := s.crew.registry.eraseAll (ms.map fun m => (m.id, m.worker)) }
      stage := .removing [] (out ++ ms)
      taken := s.taken ++ ms } := by
  induction ms generalizing s out with
  | nil =>
    rw [List.map_nil] at stage
    simp [run?, SlotTable.eraseAll, ← stage]
  | cons m ms ih =>
    rw [List.map_cons, List.nodup_cons] at distinct
    have hremove := remove_eq (held m (List.mem_cons_self ..)) (ms.map (·.id)) out
    refine run?_cons.mpr ⟨s.remove m.id (ms.map (·.id)) out, by simp [step?, proceed?, stage], ?_⟩
    have hkept : ∀ m' ∈ ms, (s.crew.registry.erase m.id).get? m'.id = some m'.worker := by
      intro m' hm'
      have hne : m'.id ≠ m.id := fun hid => distinct.1 (hid ▸ List.mem_map_of_mem hm')
      rw [SlotTable.get?_erase, if_neg hne]
      exact held m' (List.mem_cons_of_mem m hm')
    rw [hremove, ih rfl hkept distinct.2]
    simp [SlotTable.eraseAll]

/-- A start that nobody disturbs. -/
theorem spawn_undisturbed (idle : s.stage = .idle) (attempt : Except IoError (Nat → τ)) :
    ∃ n, s.run? (.call (.spawn attempt) :: List.replicate n .proceed)
      = some { s with crew := (s.crew.spawnIf attempt).2 } := by
  cases attempt with
  | error e => exact ⟨0, run?_cons.mpr ⟨s, if_pos idle, rfl⟩⟩
  | ok task =>
    refine ⟨1, run?_cons.mpr ⟨s.begin (.spawn (.ok task)), if_pos idle, ?_⟩⟩
    simp [run?, step?, proceed?, begin, spawnIf, spawn, ← idle]

/-- All entries have been looked at, and none has been taken out. -/
def picked (s : Calls τ) (which : Sweep) : Calls τ :=
  { s with
    crew := s.crew.entries.foldl (watched which) s.crew
    stage := .removing ((which.take s.crew).1.map (·.id)) []
    seen := s.crew.entries.map fun m => (m, s.crew.isComplete m.worker) }

/-- The members taken out are to be joined. -/
def handed (s : Calls τ) (which : Sweep) : Calls τ :=
  { s with
    crew := (which.take s.crew).2
    stage := .joining (which.take s.crew).1 (which.take s.crew).1.length
    seen := s.crew.entries.map fun m => (m, s.crew.isComplete m.worker)
    taken := s.taken ++ (which.take s.crew).1 }

lemma run_picked (idle : s.stage = .idle) (which : Sweep) :
    s.run? (.call (.sweep which) :: List.replicate (s.crew.entries.length + 1) .proceed)
      = some (s.picked which) := by
  refine run?_cons.mpr ⟨s.begin (.sweep which), if_pos idle, ?_⟩
  rw [List.replicate_succ']
  refine run?_trans (run_looking rfl) (run?_cons.mpr ⟨s.picked which, ?_, rfl⟩)
  exact congrArg (fun keys => some { s.picked which with stage := .removing keys [] })
    (keys_watched which s.crew)

lemma run_handed (s : Calls τ) (which : Sweep) :
    (s.picked which).run? (List.replicate ((which.take s.crew).1.length + 1) .proceed)
      = some (s.handed which) := by
  have hregistry : (s.picked which).crew.registry = s.crew.registry :=
    registry_foldl_watched which _
  have hout : (which.take s.crew).1 = s.crew.entries.filter (which.picks s.crew ·.worker) :=
    congrArg Prod.fst (take_eq which s.crew)
  have hheld : ∀ m ∈ (which.take s.crew).1,
      (s.picked which).crew.registry.get? m.id = some m.worker := by
    intro m hm
    rw [hout] at hm
    rw [hregistry]
    exact mem_entries.mp (List.mem_filter.mp hm).1
  have hdistinct : ((which.take s.crew).1.map (·.id)).Nodup := by
    rw [hout]
    exact (List.filter_sublist.map _).nodup entries_id_nodup
  have hcrew : (which.take s.crew).2 = { (s.picked which).crew with
      registry := (s.picked which).crew.registry.eraseAll
        ((which.take s.crew).1.map fun m => (m.id, m.worker)) } := by
    rw [hregistry, hout, take_eq]
    rfl
  rw [List.replicate_succ']
  refine run?_trans (run_removing rfl hheld hdistinct) ?_
  rw [← hcrew]
  rfl

/-- A sweep that nobody disturbs, up to its first joining. -/
theorem sweep_undisturbed (idle : s.stage = .idle) (which : Sweep) :
    ∃ n, s.run? (.call (.sweep which) :: List.replicate n .proceed) = some (s.handed which) := by
  have hall := run?_trans (run_picked idle which) (run_handed s which)
  rw [List.cons_append, List.replicate_append_replicate] at hall
  exact ⟨_, hall⟩

end Calls

end RecordLog.Crew

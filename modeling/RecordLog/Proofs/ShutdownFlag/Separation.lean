import RecordLog.Proofs.ShutdownFlag.Families

/-! A family keeps to itself. Leave out all that happens to other flags, number its members anew in
the order in which they were made, and the calls that are left get the answers that they got. -/
namespace RecordLog.FlagTable

def Call.rename (number : Nat → Nat) : Call → Call
  | create => create
  | clone i => clone (number i)
  | trigger i => trigger (number i)
  | read i => read (number i)

def Answer.rename (number : Nat → Nat) : Answer → Answer
  | made i => made (number i)
  | won first => won first
  | seen set => seen set

def Access.rename (number : Nat → Nat) (a : Access) : Access where
  thread := a.thread
  call := a.call.rename number
  answer := a.answer.rename number

open scoped Classical in
/-- The accesses that use or make a member of the family. -/
noncomputable def concerning (family : Nat → Prop) (history : List Access) : List Access :=
  history.filter fun a => ∃ i, family i ∧ a.Names i

/-- One cell with the handles on it, and nothing else. -/
def lone (t : FlagTable) (cell : Nat) : FlagTable where
  cells := t.cells[cell]?.toList
  handles := .replicate (t.handles.count cell) 0

variable {history : List Access} {t t' : FlagTable} {a : Access} {i cell : Nat}
  {number : Nat → Nat} {final : List Nat} {family : Nat → Prop}

lemma mem_concerning :
    a ∈ concerning family history ↔ a ∈ history ∧ ∃ i, family i ∧ a.Names i := by
  simp [concerning]

lemma concerning_cons_of_pos (h : ∃ i, family i ∧ a.Names i) :
    concerning family (a :: history) = a :: concerning family history := by
  simp [concerning, h]

lemma concerning_cons_of_neg (h : ¬ ∃ i, family i ∧ a.Names i) :
    concerning family (a :: history) = concerning family history := by
  rw [concerning, List.filter_cons_of_neg (by simpa using h)]
  rfl

lemma count_take_lt {handles : List Nat} (h : handles[i]? = some cell) :
    (handles.take i).count cell < handles.count cell := by
  obtain ⟨hi, hget⟩ := List.getElem?_eq_some_iff.mp h
  have hsplit : handles = handles.take i ++ cell :: handles.drop (i + 1) := by
    rw [← hget, ← List.drop_eq_getElem_cons hi, List.take_append_drop]
  have hcount := congrArg (List.count cell) hsplit
  rw [List.count_append, List.count_cons_self] at hcount
  omega

lemma lone_handle (h : t.handles[i]? = some cell) :
    (t.lone cell).handles[(t.handles.take i).count cell]? = some 0 := by
  simp [lone, count_take_lt h]

/-- What happens to another cell does not show. -/
lemma Step.lone_other (h : Step t a.call a.answer t')
    (apart : ∀ i, a.Names i → t'.handles[i]? ≠ some cell) : t'.lone cell = t.lone cell := by
  obtain ⟨thread, call, answer⟩ := a
  cases h with
  | create =>
    have hcell : t.cells.length ≠ cell := by
      simpa using apart t.handles.length (.inr rfl)
    have held : (t.cells ++ [(⟨false⟩ : ShutdownFlag)])[cell]? = t.cells[cell]? := by
      obtain hlt | hgt := Nat.lt_or_gt_of_ne hcell
      · rw [List.getElem?_eq_none (by simp; omega), List.getElem?_eq_none (Nat.le_of_lt hlt)]
      · exact List.getElem?_append_left hgt
    simp [lone, held, List.count_append, hcell]
  | @clone j other source =>
    have hcell : other ≠ cell := by
      simpa using apart t.handles.length (.inr rfl)
    simp [lone, List.count_append, hcell]
  | @trigger j other flag handle =>
    have hcell : other ≠ cell := by
      simpa [handle] using apart j (.inl rfl)
    simp [lone, hcell]
  | read => rfl

/-- What happens to the cell itself goes the same way without the others. -/
lemma Step.lone_same (h : Step t a.call a.answer t')
    (numbered : ∀ j ≤ t.handles.length, number j = (t.handles.take j).count cell)
    (named : a.Names i) (own : t'.handles[i]? = some cell) :
    Step (t.lone cell) (a.call.rename number) (a.answer.rename number) (t'.lone cell) := by
  obtain ⟨thread, call, answer⟩ := a
  have new : number t.handles.length = t.handles.count cell := by
    rw [numbered _ (Nat.le_refl _), List.take_length]
  have old {j : Nat} (handle : t.handles[j]? = some cell) :
      (t.lone cell).handles[number j]? = some 0 := by
    rw [numbered j (Nat.le_of_lt (List.getElem?_eq_some_iff.mp handle).1)]
    exact lone_handle handle
  have length : (t.lone cell).handles.length = number t.handles.length := by simp [lone, new]
  cases h with
  | create =>
    obtain rfl : t.handles.length = i := by simpa using named
    obtain rfl : t.cells.length = cell := by simpa using own
    have after : lone ⟨t.cells ++ [⟨false⟩], t.handles ++ [t.cells.length]⟩ t.cells.length =
        ⟨(t.lone t.cells.length).cells ++ [⟨false⟩],
          (t.lone t.cells.length).handles ++ [(t.lone t.cells.length).cells.length]⟩ := by
      simp [lone, List.replicate_succ']
    rw [after, Call.rename, Answer.rename, ← length]
    exact .create
  | @clone j other source =>
    obtain rfl : other = cell := by
      obtain rfl | rfl : j = i ∨ t.handles.length = i := by simpa using named
      · exact Option.some.inj ((getElem?_kept (List.prefix_append _ _) source).symm.trans own)
      · simpa using own
    have after : lone ⟨t.cells, t.handles ++ [other]⟩ other =
        ⟨(t.lone other).cells, (t.lone other).handles ++ [0]⟩ := by
      simp [lone, List.replicate_succ']
    rw [after, Call.rename, Answer.rename, ← length]
    exact .clone (old source)
  | @trigger j other flag handle held =>
    obtain rfl : j = i := by simpa using named
    obtain rfl : other = cell := Option.some.inj (handle.symm.trans own)
    have after : lone ⟨t.cells.set other ⟨true⟩, t.handles⟩ other =
        ⟨(t.lone other).cells.set 0 ⟨true⟩, (t.lone other).handles⟩ := by
      simp [lone, held, held_set held]
    rw [after]
    exact .trigger (old handle) (by simp [lone, held])
  | @read j other flag handle held =>
    obtain rfl : j = i := by simpa using named
    obtain rfl : other = cell := Option.some.inj (handle.symm.trans own)
    exact .read (old handle) (by simp [lone, held])

/-- Handles on a cell are numbered by how many were made before them, in the table as it ends up;
the numbers are right all along, since handles stay where they are. -/
lemma After.lone (h : After history t) (kept : t.handles <+: final)
    (numbered : ∀ j, number j = (final.take j).count cell) :
    After ((concerning (final[·]? = some cell) history).map (·.rename number)) (t.lone cell) := by
  induction h with
  | nil => exact .nil
  | @cons history t t' a before answered ih =>
    have step := answer?_eq_some.mp answered
    have kept₀ := step.handles_kept.trans kept
    have rest := ih kept₀
    by_cases hconcerns : ∃ i, final[i]? = some cell ∧ a.Names i
    · rw [concerning_cons_of_pos hconcerns]
      obtain ⟨i, own, named⟩ := hconcerns
      rw [getElem?_longer kept (step.named named)] at own
      refine .cons rest (answer?_eq_some.mpr ?_)
      refine step.lone_same (fun j hj => ?_) named own
      obtain ⟨later, rfl⟩ := kept₀
      rw [numbered, List.take_append_of_le_length hj]
    · rw [concerning_cons_of_neg hconcerns, step.lone_other fun i named own => ?_]
      · exact rest
      · rw [← getElem?_longer kept (step.named named)] at own
        exact hconcerns ⟨i, own, named⟩

/-- A family goes on as it would alone, whatever happens to other flags. -/
theorem After.alone (h : After history t) (i : Nat) : ∃ number : Nat → Nat,
    (∀ j k, Kin history i j → Kin history i k → j < k → number j < number k) ∧
    ∃ u, After ((concerning (Kin history i) history).map (·.rename number)) u := by
  have sound := Sound.of_after h
  cases handle : t.handles[i]? with
  | none =>
    have nothing : concerning (Kin history i) history = [] := by
      refine List.eq_nil_iff_forall_not_mem.mpr fun b hmem => ?_
      obtain ⟨hb, j, hkin, named⟩ := mem_concerning.mp hmem
      have made := List.getElem?_eq_getElem (sound.named b hb j named)
      rw [← sound.same_handle hkin, handle] at made
      cases made
    exact ⟨id, fun _ _ _ _ hjk => hjk, {}, nothing ▸ .nil⟩
  | some cell =>
    have family : Kin history i = (t.handles[·]? = some cell) := by
      funext j
      exact propext (sound.kin_iff handle)
    refine ⟨fun j => (t.handles.take j).count cell, ?_, t.lone cell, ?_⟩
    · rw [family]
      intro j k hj hk hjk
      have hj' : (t.handles.take k)[j]? = some cell := by
        rw [List.getElem?_take_of_lt hjk]
        exact hj
      simpa [List.take_take, Nat.min_eq_left (Nat.le_of_lt hjk)] using count_take_lt hj'
    · rw [family]
      exact h.lone List.prefix_rfl fun _ => rfl

end RecordLog.FlagTable

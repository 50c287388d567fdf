import Mathlib.Data.List.Induction
import Mathlib.Tactic.Lemma
import RecordLog.Proofs.LogStore.Working

/-! Calls that have the log to themselves, one after another. The log is what was appended since
the last removal, and without a removal a later reading extends an earlier one. -/
namespace RecordLog.LogStore.Calls

/-- The records appended since the last removal, oldest first. -/
def kept (turns : List (Nat × Call)) : List Bytes :=
  ((turns.reverse.takeWhile (·.2 ≠ .remove)).filterMap (·.2.record?)).reverse

/-- What belongs to thread `i`, in order. -/
def own {α : Type} (i : Nat) (turns : List (Nat × α)) : List α :=
  turns.filterMap fun (j, x) => if j = i then some x else none

lemma own_append {α : Type} (i : Nat) (xs ys : List (Nat × α)) :
    own i (xs ++ ys) = own i xs ++ own i ys := List.filterMap_append

@[simp] lemma own_self {α : Type} (i : Nat) (x : α) : own i [(i, x)] = [x] := by
  simp [own]

lemma own_other {α : Type} {i j : Nat} (h : j ≠ i) (x : α) : own i [(j, x)] = [] := by
  simp [own, h]

lemma kept_append_call (turns : List (Nat × Call)) (i : Nat) (record : Bytes) :
    kept (turns ++ [(i, .append record)]) = kept turns ++ [record] := by
  simp [kept, Call.record?]

lemma kept_readAll (turns : List (Nat × Call)) (i : Nat) :
    kept (turns ++ [(i, .readAll)]) = kept turns := by
  simp [kept, Call.record?]

lemma kept_remove (turns : List (Nat × Call)) (i : Nat) :
    kept (turns ++ [(i, .remove)]) = [] := by
  simp [kept]

lemma mem_kept {turns : List (Nat × Call)} {record : Bytes} (h : record ∈ kept turns) :
    ∃ i, (i, .append record) ∈ turns := by
  rw [kept, List.mem_reverse, List.mem_filterMap] at h
  obtain ⟨⟨i, c⟩, hmem, hrecord⟩ := h
  have hc : c = .append record := by
    cases c <;> simp_all [Call.record?]
  have hturn := List.mem_reverse.mp (List.takeWhile_subset _ hmem)
  exact ⟨i, hc ▸ hturn⟩

lemma inTurn_append (log : Bytes) (xs ys : List (Nat × Call)) :
    inTurn log (xs ++ ys) =
      ((inTurn log xs).1 ++ (inTurn (inTurn log xs).2 ys).1, (inTurn (inTurn log xs).2 ys).2) := by
  induction xs generalizing log with
  | nil => rfl
  | cons x xs ih =>
    obtain ⟨i, c⟩ := x
    simp [inTurn, ih]

lemma inTurn_snoc (log : Bytes) (turns : List (Nat × Call)) (i : Nat) (c : Call) :
    inTurn log (turns ++ [(i, c)]) =
      ((inTurn log turns).1 ++ [(i, (c.alone (inTurn log turns).2).1)],
        (c.alone (inTurn log turns).2).2) := by
  rw [inTurn_append]
  rfl

/-- One at a time the calls leave the records appended since the last removal. -/
theorem inTurn_kept (turns : List (Nat × Call)) : (inTurn [] turns).2 = (kept turns).flatten := by
  induction turns using List.reverseRecOn with
  | nil => rfl
  | append_singleton turns turn ih =>
    obtain ⟨i, c⟩ := turn
    rw [inTurn_snoc, ih]
    cases c with
    | append record => rw [kept_append_call, List.flatten_append]; simp [Call.alone]
    | readAll => rw [kept_readAll]; rfl
    | remove => rw [kept_remove]; rfl

/-- Without a removal the log only grows. -/
lemma inTurn_grows (log : Bytes) {turns : List (Nat × Call)}
    (h : ∀ turn ∈ turns, turn.2 ≠ .remove) : log <+: (inTurn log turns).2 := by
  induction turns generalizing log with
  | nil => exact List.prefix_rfl
  | cons turn turns ih =>
    obtain ⟨i, c⟩ := turn
    rw [List.forall_mem_cons] at h
    have hrest := ih (c.alone log).2 h.2
    cases c with
    | append record => exact (List.prefix_append log record).trans hrest
    | readAll => exact hrest
    | remove => exact (h.1 rfl).elim

lemma inTurn_getElem? (log : Bytes) (turns : List (Nat × Call)) (n : Nat) :
    (inTurn log turns).1[n]? =
      turns[n]?.map fun (i, c) => (i, (c.alone (inTurn log (turns.take n)).2).1) := by
  induction turns generalizing log n with
  | nil => rfl
  | cons turn turns ih =>
    obtain ⟨i, c⟩ := turn
    cases n with
    | zero => rfl
    | succ n => simpa [inTurn] using ih (c.alone log).2 n

/-- An answer with a content is that of a reading, which finds what the turns before it left. -/
lemma content_answer {turns : List (Nat × Call)} {n i : Nat} {a : Bytes}
    (h : (inTurn [] turns).1[n]? = some (i, .content a)) :
    turns[n]? = some (i, .readAll) ∧ a = (inTurn [] (turns.take n)).2 := by
  rw [inTurn_getElem?, Option.map_eq_some_iff] at h
  obtain ⟨⟨j, c⟩, hturn, hanswer⟩ := h
  cases c with
  | append record => simp [Call.alone] at hanswer
  | remove => simp [Call.alone] at hanswer
  | readAll =>
    simp only [Call.alone, Prod.mk.injEq, Answer.content.injEq] at hanswer
    exact ⟨hanswer.1 ▸ hturn, hanswer.2.symm⟩

/-- A reading is at the front of every later one with no removal in between. -/
theorem reading_grows {turns : List (Nat × Call)} {m n i j : Nat} {a b : Bytes} (hmn : m < n)
    (hm : (inTurn [] turns).1[m]? = some (i, .content a))
    (hn : (inTurn [] turns).1[n]? = some (j, .content b))
    (h : ∀ k, m < k → k < n → ∀ l, turns[k]? ≠ some (l, .remove)) : a <+: b := by
  obtain ⟨hreading, rfl⟩ := content_answer hm
  obtain ⟨-, rfl⟩ := content_answer hn
  have hsplit : turns.take n = turns.take m ++ (turns.drop m).take (n - m) := by
    rw [← List.take_add, Nat.add_sub_cancel' (Nat.le_of_lt hmn)]
  rw [hsplit, inTurn_append]
  refine inTurn_grows _ fun turn hturn => ?_
  obtain ⟨k, hk⟩ := List.mem_iff_getElem?.mp hturn
  rw [List.getElem?_take, List.getElem?_drop] at hk
  split at hk
  next hkn =>
    intro hremove
    cases k with
    | zero =>
      rw [Nat.add_zero, hreading, Option.some.injEq] at hk
      rw [← hk] at hremove
      exact Call.noConfusion hremove
    | succ k =>
      obtain ⟨l, c⟩ := turn
      exact h (m + (k + 1)) (by omega) (by omega) l (hremove ▸ hk)
  next => simp at hk

end RecordLog.LogStore.Calls

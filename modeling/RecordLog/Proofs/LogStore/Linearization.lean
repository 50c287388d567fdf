import RecordLog.Proofs.Framing
import RecordLog.Proofs.LogStore.Interleaving

/-! Calls from many threads behave as if each had the log to itself, in the order in which they take
the lock. -/
namespace RecordLog.LogStore.Calls

namespace Sound

variable {work : List (List Call)} {s s' : Calls} {i : Nat} {calls : List Call}

/-- A run that the system lets through keeps all this, and each of its steps counts. -/
theorem run {steps : List (Nat × Reaction)} (h : Sound work s) (hr : s.Permitted steps)
    (hs : s.run? steps = some s') :
    Sound work s' ∧ steps.length + effort s'.callers ≤ effort s.callers := by
  induction steps generalizing s with
  | nil =>
    obtain rfl : s = s' := Option.some.inj hs
    exact ⟨h, by simp⟩
  | cons x steps ih =>
    obtain ⟨i, r⟩ := x
    rw [run?, List.foldlM_cons] at hs
    obtain ⟨s₁, hfirst, hrest⟩ := Option.bind_eq_some_iff.mp hs
    obtain ⟨hsound, hlength⟩ := ih (h.step hr.1 hfirst) (hr.2 s₁ hfirst) hrest
    have hless := h.step_effort hr.1 hfirst
    refine ⟨hsound, ?_⟩
    rw [List.length_cons]
    omega

/-- While calls are left some thread can go on. -/
theorem progress (h : Sound work s) (left : ∃ t ∈ s.callers, t.calls ≠ []) :
    ∃ i s', s.Permits i (.ok 1) ∧ s.step? i (.ok 1) = some s' := by
  cases hholder : s.holder with
  | some i =>
    obtain ⟨t, c, calls, ht, hcalls, -, hworking⟩ := h.held i hholder
    refine ⟨i, ?_⟩
    cases hstage : t.stage with
    | waiting =>
      rw [hstage] at hworking
      cases c <;> exact hworking.elim
    | _ => simp [permits_ok, step?, ht, hcalls, hstage]
  | none =>
    obtain ⟨t, hmem, hleft⟩ := left
    obtain ⟨i, ht⟩ := List.mem_iff_getElem?.mp hmem
    obtain ⟨c, calls, hcalls⟩ := List.exists_cons_of_ne_nil hleft
    have hstage := h.others i t ht (by simp [hholder])
    exact ⟨i, by simp [permits_ok, step?, ht, hcalls, hstage, hholder]⟩

/-- While nobody has the lock the log is what was appended since the last removal. -/
theorem log_eq (h : Sound work s) (free : s.holder = none) :
    s.completed = s.turns.reverse ∧ s.log = (kept s.turns.reverse).flatten := by
  have hdone : s.completed = s.turns.reverse := by simp [completed, free]
  refine ⟨hdone, ?_⟩
  rw [h.free free, hdone, inTurn_kept]

lemma share (h : Sound work s) (given : work[i]? = some calls) : ∃ t, s.callers[i]? = some t ∧
    calls = own i s.completed ++ t.calls ∧
    t.answers.reverse = own i (inTurn [] s.completed).1 :=
  Shared.share h.shares h.threads given

/-- Every record in the log is one that a thread was to append. -/
lemma kept_given (h : Sound work s) {record : Bytes} (hkept : record ∈ kept s.completed) :
    ∃ calls ∈ work, .append record ∈ calls := by
  obtain ⟨i, hturn⟩ := mem_kept hkept
  have hi := h.known _ hturn
  obtain ⟨t, ht, hgiven, -⟩ := h.share (List.getElem?_eq_getElem hi)
  refine ⟨work[i], List.getElem_mem hi, ?_⟩
  have hown : Call.append record ∈ own i s.completed :=
    List.mem_filterMap.mpr ⟨(i, .append record), hturn, by simp⟩
  rw [hgiven]
  exact List.mem_append_left _ hown

end Sound

/-- Calls from any number of threads, in any interleaving of their steps, answer what they answer
one at a time in the order in which they took the lock. While the lock is free the log consists of
the records appended since the last removal; a reading is at the front of every later one up to a
removal; and the threads never block each other for good. -/
theorem linearizable {work : List (List Call)} {steps : List (Nat × Reaction)} {s : Calls}
    (hs : (fresh work).run? steps = some s) (hr : (fresh work).Permitted steps) :
    (∀ i calls, work[i]? = some calls → ∃ t, s.callers[i]? = some t ∧
      calls = own i s.completed ++ t.calls ∧
      t.answers.reverse = own i (inTurn [] s.completed).1) ∧
    (s.holder = none → s.completed = s.turns.reverse ∧
      s.log = (kept s.turns.reverse).flatten ∧
      ((∀ calls ∈ work, ∀ record, .append record ∈ calls → IsRecord record) →
        records s.log = (kept s.turns.reverse, []))) ∧
    (∀ (m n i j : Nat) (a b : Bytes), m < n →
      (inTurn [] s.completed).1[m]? = some (i, Answer.content a) →
      (inTurn [] s.completed).1[n]? = some (j, Answer.content b) →
      (∀ k, m < k → k < n → ∀ l, s.completed[k]? ≠ some (l, Call.remove)) → a <+: b) ∧
    steps.length + effort s.callers ≤ effort (fresh work).callers ∧
    ((∃ t ∈ s.callers, t.calls ≠ []) →
      ∃ i s', s.Permits i (.ok 1) ∧ s.step? i (.ok 1) = some s') := by
  obtain ⟨h, hlength⟩ := (Sound.fresh work).run hr hs
  refine ⟨?_, ?_, ?_, hlength, h.progress⟩
  · intro i calls hcalls
    exact h.share hcalls
  · intro free
    obtain ⟨hdone, hlog⟩ := h.log_eq free
    refine ⟨hdone, hlog, fun hrecords => ?_⟩
    have hall : ∀ record ∈ kept s.turns.reverse, IsRecord record := by
      intro record hkept
      obtain ⟨calls, hcalls, hmem⟩ := h.kept_given (hdone ▸ hkept)
      exact hrecords calls hcalls record hmem
    rw [hlog, ← List.append_nil (kept s.turns.reverse).flatten]
    exact records_flatten_append hall (by simp)
  · intro m n i j a b hmn hm hn hkeep
    exact reading_grows hmn hm hn hkeep

/-- Two threads: a removal that finds no file, an append in two writes, an append, a reading. -/
theorem linearizable_two_threads :
    let work : List (List Call) :=
      [[.append [97, 10]], [.remove, .append [98, 10], .readAll]]
    let missing : Reaction := .error (.plain .notFound)
    let steps : List (Nat × Reaction) := [(1, .ok 1), (1, missing), (1, .ok 1), (0, .ok 1),
      (0, .ok 1), (0, .ok 1), (0, .ok 1), (0, .ok 1), (1, .ok 1), (1, .ok 1), (1, .ok 2),
      (1, .ok 1), (1, .ok 1), (1, .ok 1), (1, .ok 1), (1, .ok 1)]
    ∃ s, (fresh work).run? steps = some s ∧ (fresh work).Permitted steps ∧
      s.turns.reverse = [(1, .remove), (0, .append [97, 10]), (1, .append [98, 10]),
        (1, .readAll)] ∧
      s.log = [97, 10, 98, 10] ∧ records s.log = ([[97, 10], [98, 10]], []) ∧
      own 1 (inTurn [] s.completed).1 = [.done, .done, .content [97, 10, 98, 10]] := by
  intro work missing steps
  let s : Calls := {
    callers := [{ calls := [], answers := [.done] },
      { calls := [], answers := [.content [97, 10, 98, 10], .done, .done] }]
    file := some [97, 10, 98, 10]
    turns := [(1, .readAll), (1, .append [98, 10]), (0, .append [97, 10]), (1, .remove)] }
  obtain ⟨hs, hr, hgiven⟩ : (fresh work).run? steps = some s ∧ (fresh work).Permitted steps ∧
      ∀ calls ∈ work, ∀ c ∈ calls, ∀ record ∈ c.record?,
        record = [97, 10] ∨ record = [98, 10] := by
    decide +revert
  obtain ⟨hanswers, hlog, -⟩ := linearizable hs hr
  obtain ⟨t, ht, -, hown⟩ := hanswers 1 _ rfl
  obtain ⟨-, hcontent, hrecords⟩ := hlog rfl
  have hframed : ∀ calls ∈ work, ∀ record, .append record ∈ calls → IsRecord record := by
    intro calls hcalls record hmem
    obtain rfl | rfl := hgiven calls hcalls _ hmem record rfl
    · exact ⟨[97], rfl, by decide⟩
    · exact ⟨[98], rfl, by decide⟩
  obtain rfl := Option.some.inj ht
  exact ⟨s, hs, hr, rfl, hcontent, hrecords hframed, hown.symm⟩

end RecordLog.LogStore.Calls

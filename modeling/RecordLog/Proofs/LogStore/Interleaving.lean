import RecordLog.Proofs.LogStore.Sequential

/-! Steps of many threads on one log. A call counts from the moment it takes the lock: until it lets
go every other thread waits, and then the file is what the calls so far leave one after another. -/
namespace RecordLog.LogStore.Calls

/-- Threads about to make these calls on a log without a file. -/
def fresh (work : List (List Call)) : Calls where
  callers := work.map fun calls => { calls }

/-- The system lets the file call of thread `i` through, or finds no file. -/
def Permits (s : Calls) (i : Nat) (r : Reaction) : Prop :=
  ∀ t ∈ s.callers[i]?, ∀ c ∈ t.calls.head?, c.Permits t.stage s.file r

lemma Permits.call {s : Calls} {i : Nat} {r : Reaction} {t : Caller} {c : Call} {calls : List Call}
    (h : s.Permits i r) (ht : s.callers[i]? = some t) (hcalls : t.calls = c :: calls) :
    c.Permits t.stage s.file r := by
  exact h t ht c (by simp [hcalls])

lemma permits_ok (s : Calls) (i : Nat) : s.Permits i (.ok 1) := by
  intro t _ c _
  exact c.permits_ok t.stage s.file

/-- Every file call of the run is let through. -/
def Permitted (s : Calls) : List (Nat × Reaction) → Prop
  | [] => True
  | (i, r) :: steps => s.Permits i r ∧ ∀ s' ∈ s.step? i r, s'.Permitted steps

instance (s : Calls) (i : Nat) (r : Reaction) : Decidable (s.Permits i r) :=
  inferInstanceAs (Decidable (∀ t ∈ s.callers[i]?, ∀ c ∈ t.calls.head?, c.Permits t.stage s.file r))

instance decidablePermitted (s : Calls) :
    (steps : List (Nat × Reaction)) → Decidable (s.Permitted steps)
  | [] => .isTrue trivial
  | (i, r) :: steps =>
    have (s' : Calls) : Decidable (s'.Permitted steps) := decidablePermitted s' steps
    inferInstanceAs (Decidable (s.Permits i r ∧ ∀ s' ∈ s.step? i r, s'.Permitted steps))

/-- The calls that have let go of the lock, in the order in which they took it. -/
def completed (s : Calls) : List (Nat × Call) :=
  (if s.holder.isSome then s.turns.tail else s.turns).reverse

/-- What a thread does in one step. -/
inductive Step (s : Calls) (i : Nat) (r : Reaction) (t : Caller) (c : Call) (calls : List Call) :
    Calls → Prop
  | take (stage : t.stage = .waiting) (free : s.holder = none) :
    Step s i r t c calls { s.update i { t with stage := .locked } with
      holder := some i, turns := (i, c) :: s.turns }
  | leave {answer} (stage : t.stage = .leaving answer) :
    Step s i r t c calls { s.update i { calls, answers := answer :: t.answers } with
      holder := none }
  | work (awake : t.stage ≠ .waiting) (busy : ∀ answer, t.stage ≠ .leaving answer) :
    Step s i r t c calls { s.update i { t with stage := (c.work t.stage s.file r).1 } with
      file := (c.work t.stage s.file r).2 }

theorem Step.of_step? {s s' : Calls} {i : Nat} {r : Reaction} (h : s.step? i r = some s') :
    ∃ t c calls, s.callers[i]? = some t ∧ t.calls = c :: calls ∧ Step s i r t c calls s' := by
  unfold step? at h
  split at h
  · rename_i t ht
    split at h
    · simp at h
    · rename_i c calls hcalls hstage
      split at h
      · simp at h
      · rename_i hfree
        obtain rfl := Option.some.inj h
        exact ⟨t, c, calls, ht, hcalls, .take hstage (by simpa using hfree)⟩
    · rename_i c calls answer hcalls hstage
      obtain rfl := Option.some.inj h
      exact ⟨t, c, calls, ht, hcalls, .leave hstage⟩
    · rename_i c calls hcalls hwaiting hleaving
      obtain rfl := Option.some.inj h
      exact ⟨t, c, calls, ht, hcalls, .work hwaiting hleaving⟩
  · simp at h

/-- Steps that the threads can still take. -/
def effort : List Caller → Nat
  | [] => 0
  | t :: callers => Call.efforts t.calls t.stage + effort callers

lemma effort_set {callers : List Caller} {i : Nat} {t : Caller} (h : callers[i]? = some t)
    (t' : Caller) : effort (callers.set i t') + Call.efforts t.calls t.stage
      = effort callers + Call.efforts t'.calls t'.stage := by
  induction callers generalizing i with
  | nil => simp at h
  | cons u callers ih =>
    cases i with
    | zero =>
      obtain rfl : u = t := by simpa using h
      simp only [List.set_cons_zero, effort]
      omega
    | succ i =>
      have := ih (by simpa using h)
      simp only [List.set_cons_succ, effort]
      omega

lemma set_getElem? {callers : List Caller} {i : Nat} {t : Caller} (h : callers[i]? = some t)
    (t' : Caller) (j : Nat) :
    (callers.set i t')[j]? = if i = j then some t' else callers[j]? := by
  obtain ⟨hi, -⟩ := List.getElem?_eq_some_iff.mp h
  simp [List.getElem?_set, hi]

/-- The calls of each thread are its own of those that are over, `done`, and the ones left to it,
and it has its own of the answers. -/
def Shared (work : List (List Call)) (done : List (Nat × Call)) (answers : List (Nat × Answer))
    (callers : List Caller) : Prop :=
  ∀ i calls t, work[i]? = some calls → callers[i]? = some t →
    calls = own i done ++ t.calls ∧ t.answers.reverse = own i answers

/-- Whoever has not got the lock waits for it. -/
def Patient (holder : Option Nat) (callers : List Caller) : Prop :=
  ∀ i t, callers[i]? = some t → holder ≠ some i → t.stage = .waiting

section
variable {work : List (List Call)} {done : List (Nat × Call)} {answers : List (Nat × Answer)}
  {callers : List Caller} {holder : Option Nat} {i : Nat} {t : Caller}

lemma Shared.start (work : List (List Call)) :
    Shared work [] [] (work.map fun calls => { calls }) := by
  intro i calls t hcalls ht
  obtain rfl : t = { calls } := by simpa [hcalls, eq_comm] using ht
  exact ⟨rfl, rfl⟩

lemma Shared.share {calls : List Call} (h : Shared work done answers callers)
    (length : callers.length = work.length) (given : work[i]? = some calls) :
    ∃ t, callers[i]? = some t ∧ calls = own i done ++ t.calls ∧
      t.answers.reverse = own i answers := by
  obtain ⟨hi, -⟩ := List.getElem?_eq_some_iff.mp given
  have ht := List.getElem?_eq_getElem (length.symm ▸ hi : i < callers.length)
  exact ⟨_, ht, h i calls _ given ht⟩

/-- A thread that goes on with its call. -/
lemma Shared.goOn (h : Shared work done answers callers) (ht : callers[i]? = some t)
    (stage : Stage) : Shared work done answers (callers.set i { t with stage }) := by
  intro j given u hgiven hu
  rw [set_getElem? ht] at hu
  split at hu
  · rename_i hij
    subst hij
    obtain rfl := Option.some.inj hu
    exact h i given t hgiven ht
  · exact h j given u hgiven hu

/-- A thread that is done with its call. -/
lemma Shared.answer {c : Call} {calls : List Call} (h : Shared work done answers callers)
    (ht : callers[i]? = some t) (hcalls : t.calls = c :: calls) (answer : Answer) :
    Shared work (done ++ [(i, c)]) (answers ++ [(i, answer)])
      (callers.set i { calls, answers := answer :: t.answers }) := by
  intro j given u hgiven hu
  rw [own_append, own_append]
  rw [set_getElem? ht] at hu
  split at hu
  · rename_i hij
    subst hij
    obtain rfl := Option.some.inj hu
    obtain ⟨hgiven, hanswers⟩ := h i given t hgiven ht
    rw [hcalls] at hgiven
    rw [own_self, own_self, List.append_assoc, ← hanswers, List.reverse_cons]
    exact ⟨hgiven, rfl⟩
  · rename_i hij
    rw [own_other hij, own_other hij, List.append_nil, List.append_nil]
    exact h j given u hgiven hu

lemma Patient.start (work : List (List Call)) :
    Patient none (work.map fun calls => { calls }) := by
  intro i t ht _
  obtain ⟨calls, -, rfl⟩ : ∃ calls, work[i]? = some calls ∧ { calls } = t := by
    simpa using ht
  rfl

/-- A thread that has the lock now, if no other one had it before. -/
lemma Patient.hold (h : Patient holder callers) (ht : callers[i]? = some t)
    (only : ∀ j, holder = some j → i = j) (t' : Caller) :
    Patient (some i) (callers.set i t') := by
  intro j u hu hother
  have hij : i ≠ j := fun hij => hother (congrArg some hij)
  rw [set_getElem? ht, if_neg hij] at hu
  exact h j u hu fun hj => hij (only j hj)

/-- A thread that lets go of the lock. -/
lemma Patient.release (h : Patient (some i) callers) (ht : callers[i]? = some t) {t' : Caller}
    (waits : t'.stage = .waiting) : Patient none (callers.set i t') := by
  intro j u hu _
  rw [set_getElem? ht] at hu
  split at hu
  · obtain rfl := Option.some.inj hu
    exact waits
  · rename_i hij
    exact h j u hu (by simpa using hij)

lemma completed_of_free {s : Calls} (free : s.holder = none) : s.completed = s.turns.reverse := by
  simp [completed, free]

/-- A call that begins is not over. -/
lemma completed_take {s : Calls} (free : s.holder = none) (c : Call) (t' : Caller) :
    completed { s.update i t' with holder := some i, turns := (i, c) :: s.turns } = s.completed :=
  (completed_of_free free).symm

/-- The call of the thread that lets go is over. -/
lemma completed_release {s : Calls} {c : Call} (hturns : s.turns = (i, c) :: s.completed.reverse)
    (t' : Caller) : completed { s.update i t' with holder := none } = s.completed ++ [(i, c)] := by
  change s.turns.reverse = s.completed ++ [(i, c)]
  rw [hturns, List.reverse_cons, List.reverse_reverse]

end

/-- What holds after every step. Each thread has the answers that its calls get in their turns,
only the thread with the lock is past waiting, and that one started on the log of the turns before
its own. -/
structure Sound (work : List (List Call)) (s : Calls) : Prop where
  threads : s.callers.length = work.length
  shares : ∀ i calls t, work[i]? = some calls → s.callers[i]? = some t →
    calls = own i s.completed ++ t.calls ∧
      t.answers.reverse = own i (inTurn [] s.completed).1
  known : ∀ turn ∈ s.completed, turn.1 < work.length
  others : ∀ i t, s.callers[i]? = some t → s.holder ≠ some i → t.stage = .waiting
  free : s.holder = none → s.log = (inTurn [] s.completed).2
  held : ∀ i, s.holder = some i → ∃ t c calls, s.callers[i]? = some t ∧ t.calls = c :: calls ∧
    s.turns = (i, c) :: s.completed.reverse ∧
      c.Working (inTurn [] s.completed).2 t.stage s.file

namespace Sound

variable {work : List (List Call)} {s : Calls}

lemma fresh (work : List (List Call)) : Sound work (fresh work) where
  threads := by simp [Calls.fresh]
  shares := Shared.start work
  known := by simp [Calls.fresh, completed]
  others := Patient.start work
  free := fun _ => rfl
  held := by simp [Calls.fresh]

/-- The thread that is past waiting has the lock. -/
lemma holder_eq (h : Sound work s) {i : Nat} {t : Caller} {c : Call} {calls : List Call}
    (ht : s.callers[i]? = some t) (hcalls : t.calls = c :: calls) (awake : t.stage ≠ .waiting) :
    s.holder = some i ∧ s.turns = (i, c) :: s.completed.reverse ∧
      c.Working (inTurn [] s.completed).2 t.stage s.file := by
  have hholder : s.holder = some i := by
    by_contra hother
    exact awake (h.others i t ht hother)
  obtain ⟨t', c', calls', ht', hcalls', hturns, hworking⟩ := h.held i hholder
  obtain rfl : t = t' := Option.some.inj (ht.symm.trans ht')
  obtain ⟨rfl, rfl⟩ := List.cons.inj (hcalls.symm.trans hcalls')
  exact ⟨hholder, hturns, hworking⟩

variable {s' : Calls} {i : Nat} {r : Reaction} {t : Caller} {c : Call} {calls : List Call}

lemma take (h : Sound work s) (ht : s.callers[i]? = some t) (hcalls : t.calls = c :: calls)
    (free : s.holder = none) :
    Sound work { s.update i { t with stage := .locked } with
      holder := some i, turns := (i, c) :: s.turns } := by
  have hdone := completed_of_free free
  have hnext := completed_take free c { t with stage := .locked } (i := i)
  have hlog := h.free free
  refine ⟨?_, ?_, hnext ▸ h.known, ?_, by simp, ?_⟩
  · simpa [update] using h.threads
  · rw [hnext]
    exact Shared.goOn h.shares ht .locked
  · exact Patient.hold h.others ht (by simp [free]) _
  · intro j hj
    obtain rfl : i = j := by simpa using hj
    refine ⟨{ t with stage := .locked }, c, calls, ?_, hcalls, ?_, ?_⟩
    · simp [update, set_getElem? ht]
    · rw [hnext, hdone, List.reverse_reverse]
    · rw [hnext]
      cases c <;> exact hlog

lemma leave {answer : Answer} (h : Sound work s) (ht : s.callers[i]? = some t)
    (hcalls : t.calls = c :: calls) (stage : t.stage = .leaving answer) :
    Sound work { s.update i { calls, answers := answer :: t.answers } with holder := none } := by
  obtain ⟨hholder, hturns, hworking⟩ := h.holder_eq ht hcalls (by simp [stage])
  rw [stage] at hworking
  obtain ⟨hanswer, hlog⟩ : answer = (c.alone (inTurn [] s.completed).2).1 ∧
      s.file.getD [] = (c.alone (inTurn [] s.completed).2).2 := by
    cases c <;> exact hworking
  have hdone := completed_release hturns { calls, answers := answer :: t.answers }
  obtain ⟨hi, -⟩ := List.getElem?_eq_some_iff.mp ht
  refine ⟨?_, ?_, ?_, ?_, ?_, by simp⟩
  · simpa [update] using h.threads
  · rw [hdone, inTurn_snoc, ← hanswer]
    exact Shared.answer h.shares ht hcalls answer
  · intro turn hturn
    rw [hdone, List.mem_append, List.mem_singleton] at hturn
    obtain hturn | rfl := hturn
    · exact h.known turn hturn
    · exact h.threads ▸ hi
  · exact Patient.release (hholder ▸ h.others) ht rfl
  · intro _
    rw [hdone, inTurn_snoc]
    exact hlog

lemma work_on (h : Sound work s) (ht : s.callers[i]? = some t) (hcalls : t.calls = c :: calls)
    (hr : c.Permits t.stage s.file r) (awake : t.stage ≠ .waiting)
    (busy : ∀ answer, t.stage ≠ .leaving answer) :
    Sound work { s.update i { t with stage := (c.work t.stage s.file r).1 } with
      file := (c.work t.stage s.file r).2 } := by
  obtain ⟨hholder, hturns, hworking⟩ := h.holder_eq ht hcalls awake
  refine ⟨?_, Shared.goOn h.shares ht _, h.known, ?_, ?_, ?_⟩
  · simpa [update] using h.threads
  · have hothers := Patient.hold h.others ht (by simp [hholder])
      { t with stage := (c.work t.stage s.file r).1 }
    rwa [← hholder] at hothers
  · simp [update, hholder]
  · intro j hj
    obtain rfl : i = j := by simpa [update, hholder] using hj
    refine ⟨{ t with stage := (c.work t.stage s.file r).1 }, c, calls, ?_, hcalls, hturns, ?_⟩
    · simp [update, set_getElem? ht]
    · exact (Call.work_working hworking hr busy).1

/-- A step that the system lets through keeps all this. -/
theorem step (h : Sound work s) (hr : s.Permits i r) (hs : s.step? i r = some s') :
    Sound work s' := by
  obtain ⟨t, c, calls, ht, hcalls, hstep⟩ := Step.of_step? hs
  cases hstep with
  | take stage free => exact h.take ht hcalls free
  | leave stage => exact h.leave ht hcalls stage
  | work awake busy => exact h.work_on ht hcalls (hr.call ht hcalls) awake busy

/-- And it brings the threads nearer to the end of their calls. -/
theorem step_effort (h : Sound work s) (hr : s.Permits i r) (hs : s.step? i r = some s') :
    effort s'.callers < effort s.callers := by
  obtain ⟨t, c, calls, ht, hcalls, hstep⟩ := Step.of_step? hs
  cases hstep with
  | take stage free =>
    have hset := effort_set ht { t with stage := .locked }
    rw [hcalls, stage] at hset
    have hless : c.effort .locked < c.effort .waiting := by
      cases c <;> simp [Call.effort]
    simp only [Call.efforts] at hset
    simp only [update, hcalls]
    omega
  | @leave answer stage =>
    have hset := effort_set ht { calls, answers := answer :: t.answers }
    rw [hcalls, stage] at hset
    have hless : 0 < c.effort (.leaving answer) := by
      cases c <;> simp [Call.effort]
    simp only [Call.efforts] at hset
    simp only [update]
    omega
  | work awake busy =>
    obtain ⟨-, -, hworking⟩ := h.holder_eq ht hcalls awake
    have hless := (Call.work_working hworking (hr.call ht hcalls) busy).2
    have hset := effort_set ht { t with stage := (c.work t.stage s.file r).1 }
    rw [hcalls] at hset
    simp only [Call.efforts] at hset
    simp only [update, hcalls]
    omega

end Sound

end RecordLog.LogStore.Calls

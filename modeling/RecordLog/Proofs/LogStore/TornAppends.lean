import RecordLog.Proofs.Framing
import RecordLog.Proofs.LogStore.Failing
import RecordLog.Proofs.LogStore.Interleaving

/-! Many threads on one log whose file calls may fail. In the order in which the calls take the
lock, each finds the log that the one before it has left; a failed append may have left the
beginning of its record there, and the next record then follows that. -/
namespace RecordLog.LogStore

/-- The call did not fail. -/
def Answer.went : Answer → Bool
  | failed _ => false
  | done | content _ => true

namespace Call.Leaves

variable {tears : Prop} {before after : Bytes}

/-- A failed append leaves the log as it was, or a proper part of its record after it. -/
lemma append_failed {record : Bytes} {e : IoError}
    (h : Leaves tears before (append record) (.failed e) after) : ∃ part, after = before ++ part ∧
      (part = [] ∨ tears ∧ ∃ rest, record = part ++ rest ∧ rest ≠ []) := by
  generalize hanswer : Answer.failed e = answer at h
  cases h with
  | answered => cases hanswer
  | failed => exact ⟨[], by simp, .inl rfl⟩
  | @torn may taken left some rest => exact ⟨taken, rfl, .inr ⟨may, left, rfl, rest⟩⟩

/-- What a reading answers is the log that it found. -/
lemma content {log : Bytes} (h : Leaves tears before readAll (.content log) after) :
    log = before := by
  generalize hanswer : Answer.content log = answer at h
  cases h with
  | answered => exact Answer.content.inj hanswer
  | failed => cases hanswer

/-- A call that is not torn leaves what it leaves alone, or fails and leaves the log as it was. -/
lemma whole {c : Call} {answer : Answer} (h : Leaves tears before c answer after)
    (whole : ¬ tears) :
    (answer.went = true ∧ after = (c.alone before).2) ∨
      (answer.went = false ∧ after = before) := by
  cases h with
  | answered => exact .inl ⟨by cases c <;> rfl, rfl⟩
  | failed => exact .inr ⟨rfl, rfl⟩
  | torn may => exact (whole may).elim

end Call.Leaves

namespace Calls

/-- Whole records stay whole when more of them are appended. -/
lemma inTurn_whole {log : Bytes} {turns : List (Nat × Call)} (whole : (records log).2 = [])
    (framed : ∀ i record, (i, .append record) ∈ turns → IsRecord record) :
    (records (inTurn log turns).2).2 = [] := by
  induction turns generalizing log with
  | nil => exact whole
  | cons turn turns ih =>
    obtain ⟨i, c⟩ := turn
    refine ih ?_ fun j record hmem => framed j record (List.mem_cons_of_mem _ hmem)
    cases c with
    | readAll => exact whole
    | remove => rfl
    | append record =>
      have hrecord := framed i record List.mem_cons_self
      obtain ⟨hlog, hall, -⟩ := records_spec log
      rw [whole, List.append_nil] at hlog
      have hgrown : log ++ record = ((records log).1 ++ [record]).flatten ++ [] := by
        simp [hlog]
      change (records (log ++ record)).2 = []
      rw [hgrown, records_flatten_append (by simpa [or_imp, forall_and] using ⟨hall, hrecord⟩)
        List.not_mem_nil]

/-- Threads about to make these calls on a log that is there already. -/
def starting (file : Option Bytes) (work : List (List Call)) : Calls := { fresh work with file }

/-- Every file call of the run finds the system reacting in one of these ways. -/
def Throughout (Reacts : Call → Stage → Option Bytes → Reaction → Prop) (s : Calls) :
    List (Nat × Reaction) → Prop
  | [] => True
  | (i, r) :: steps =>
    (∀ t ∈ s.callers[i]?, ∀ c ∈ t.calls.head?, Reacts c t.stage s.file r) ∧
      ∀ s' ∈ s.step? i r, s'.Throughout Reacts steps

instance decidableThroughout (Reacts : Call → Stage → Option Bytes → Reaction → Prop)
    [∀ c stage file r, Decidable (Reacts c stage file r)] (s : Calls) :
    (steps : List (Nat × Reaction)) → Decidable (s.Throughout Reacts steps)
  | [] => .isTrue trivial
  | (i, r) :: steps =>
    have (s' : Calls) : Decidable (s'.Throughout Reacts steps) :=
      decidableThroughout Reacts s' steps
    inferInstanceAs (Decidable ((∀ t ∈ s.callers[i]?, ∀ c ∈ t.calls.head?,
      Reacts c t.stage s.file r) ∧ ∀ s' ∈ s.step? i r, s'.Throughout Reacts steps))

/-- A call that is over. -/
structure Turn where
  thread : Nat
  call : Call
  answer : Answer
  /-- The log when the call let go of the lock. -/
  log : Bytes
  deriving DecidableEq, Repr

namespace Turn

def made (turn : Turn) : Nat × Call := (turn.thread, turn.call)

def answered (turn : Turn) : Nat × Answer := (turn.thread, turn.answer)

end Turn

/-- Each turn finds the log that the one before it has left. -/
def Chain (tears : Prop) (before : Bytes) : List Turn → Bytes → Prop
  | [], after => before = after
  | turn :: turns, after =>
    turn.call.Leaves tears before turn.answer turn.log ∧ Chain tears turn.log turns after

namespace Chain

variable {tears : Prop} {before after : Bytes}

lemma append_iff {xs ys : List Turn} : Chain tears before (xs ++ ys) after ↔
    ∃ log, Chain tears before xs log ∧ Chain tears log ys after := by
  induction xs generalizing before with
  | nil => simp [Chain]
  | cons x xs ih => simp [Chain, ih, and_assoc]

lemma snoc {past : List Turn} {turn : Turn} (h : Chain tears before past after)
    (leaves : turn.call.Leaves tears after turn.answer turn.log) :
    Chain tears before (past ++ [turn]) turn.log :=
  append_iff.mpr ⟨after, h, leaves, rfl⟩

/-- A reading after a failed append shows the log from before it, and after that nothing or a
proper part of the record. -/
lemma reading {past later : List Turn} {i j : Nat} {record left right log : Bytes} {e : IoError}
    (h : Chain tears before (past ++ ⟨i, .append record, .failed e, left⟩ ::
      ⟨j, .readAll, .content log, right⟩ :: later) after) :
    ∃ earlier part, Chain tears before past earlier ∧ log = earlier ++ part ∧
      (part = [] ∨ tears ∧ ∃ rest, record = part ++ rest ∧ rest ≠ []) := by
  obtain ⟨earlier, hpast, happend, hread, -⟩ := append_iff.mp h
  obtain ⟨part, rfl, hpart⟩ := happend.append_failed
  exact ⟨earlier, part, hpast, hread.content, hpart⟩

/-- If no append is torn, the calls that went through leave what they leave alone. -/
lemma went {past : List Turn} (h : Chain tears before past after) (whole : ¬ tears) :
    after = (inTurn before ((past.filter (·.answer.went)).map Turn.made)).2 := by
  induction past generalizing before with
  | nil => exact h.symm
  | cons turn past ih =>
    obtain ⟨leaves, rest⟩ := h
    rw [ih rest]
    obtain ⟨went, hlog⟩ | ⟨stopped, hlog⟩ := leaves.whole whole
    · rw [List.filter_cons_of_pos (by exact went), hlog]
      rfl
    · rw [List.filter_cons_of_neg (by simp [stopped]), hlog]

end Chain

/-- What holds after every step, whatever fails. -/
structure Told (tears : Prop) (file : Option Bytes) (work : List (List Call)) (past : List Turn)
    (s : Calls) : Prop where
  threads : s.callers.length = work.length
  made : past.map Turn.made = s.completed
  shares : Shared work s.completed (past.map Turn.answered) s.callers
  others : Patient s.holder s.callers
  free : s.holder = none → Chain tears (file.getD []) past s.log
  held : ∀ i, s.holder = some i → ∃ t c calls log, s.callers[i]? = some t ∧ t.calls = c :: calls ∧
    s.turns = (i, c) :: s.completed.reverse ∧ Chain tears (file.getD []) past log ∧
      c.Busy tears log t.stage s.file

namespace Told

variable {tears : Prop} {file : Option Bytes} {work : List (List Call)} {past : List Turn}
  {s s' : Calls} {i : Nat} {r : Reaction} {t : Caller} {c : Call} {calls : List Call}

lemma starting (tears : Prop) (file : Option Bytes) (work : List (List Call)) :
    Told tears file work [] (starting file work) where
  threads := by simp [Calls.starting, Calls.fresh]
  made := rfl
  shares := Shared.start work
  others := Patient.start work
  free := fun _ => rfl
  held := by simp [Calls.starting, Calls.fresh]

/-- The thread that is past waiting has the lock. -/
lemma holder_eq (h : Told tears file work past s) (ht : s.callers[i]? = some t)
    (hcalls : t.calls = c :: calls) (awake : t.stage ≠ .waiting) :
    s.holder = some i ∧ s.turns = (i, c) :: s.completed.reverse ∧
      ∃ log, Chain tears (file.getD []) past log ∧ c.Busy tears log t.stage s.file := by
  have hholder : s.holder = some i := by
    by_contra hother
    exact awake (h.others i t ht hother)
  obtain ⟨t', c', calls', log, ht', hcalls', hturns, hchain, hbusy⟩ := h.held i hholder
  obtain rfl : t = t' := Option.some.inj (ht.symm.trans ht')
  obtain ⟨rfl, rfl⟩ := List.cons.inj (hcalls.symm.trans hcalls')
  exact ⟨hholder, hturns, log, hchain, hbusy⟩

lemma take (h : Told tears file work past s) (ht : s.callers[i]? = some t)
    (hcalls : t.calls = c :: calls) (free : s.holder = none) :
    Told tears file work past { s.update i { t with stage := .locked } with
      holder := some i, turns := (i, c) :: s.turns } := by
  have hnext := completed_take free c { t with stage := .locked } (i := i)
  refine ⟨?_, h.made.trans hnext.symm, ?_, ?_, by simp, ?_⟩
  · simpa [update] using h.threads
  · rw [hnext]
    exact Shared.goOn h.shares ht .locked
  · exact Patient.hold h.others ht (by simp [free]) _
  · intro j hj
    obtain rfl : i = j := by simpa using hj
    refine ⟨{ t with stage := .locked }, c, calls, s.log, ?_, hcalls, ?_, h.free free, ?_⟩
    · simp [update, set_getElem? ht]
    · rw [hnext, completed_of_free free, List.reverse_reverse]
    · cases c <;> rfl

lemma leave {answer : Answer} (h : Told tears file work past s) (ht : s.callers[i]? = some t)
    (hcalls : t.calls = c :: calls) (stage : t.stage = .leaving answer) :
    Told tears file work (past ++ [⟨i, c, answer, s.log⟩])
      { s.update i { calls, answers := answer :: t.answers } with holder := none } := by
  obtain ⟨hholder, hturns, log, hchain, hbusy⟩ := h.holder_eq ht hcalls (by simp [stage])
  rw [stage] at hbusy
  have leaves : c.Leaves tears log answer s.log := hbusy
  have hdone := completed_release hturns { calls, answers := answer :: t.answers }
  refine ⟨?_, ?_, ?_, ?_, fun _ => hchain.snoc leaves, by simp⟩
  · simpa [update] using h.threads
  · rw [hdone, List.map_append, h.made]
    rfl
  · rw [hdone, List.map_append]
    exact Shared.answer h.shares ht hcalls answer
  · exact Patient.release (hholder ▸ h.others) ht rfl

lemma work_on (h : Told tears file work past s) (ht : s.callers[i]? = some t)
    (hcalls : t.calls = c :: calls) (hr : c.Reacts tears t.stage s.file r)
    (awake : t.stage ≠ .waiting) (busy : ∀ answer, t.stage ≠ .leaving answer) :
    Told tears file work past { s.update i { t with stage := (c.work t.stage s.file r).1 } with
      file := (c.work t.stage s.file r).2 } := by
  obtain ⟨hholder, hturns, log, hchain, hbusy⟩ := h.holder_eq ht hcalls awake
  refine ⟨?_, h.made, Shared.goOn h.shares ht _, ?_, ?_, ?_⟩
  · simpa [update] using h.threads
  · have hothers := Patient.hold h.others ht (by simp [hholder])
      { t with stage := (c.work t.stage s.file r).1 }
    rwa [← hholder] at hothers
  · simp [update, hholder]
  · intro j hj
    obtain rfl : i = j := by simpa [update, hholder] using hj
    refine ⟨{ t with stage := (c.work t.stage s.file r).1 }, c, calls, log, ?_, hcalls, hturns,
      hchain, hbusy.work hr busy⟩
    simp [update, set_getElem? ht]

/-- A step adds a turn to the past if a call is over with it. -/
theorem step (h : Told tears file work past s)
    (hr : ∀ t ∈ s.callers[i]?, ∀ c ∈ t.calls.head?, c.Reacts tears t.stage s.file r)
    (hs : s.step? i r = some s') : ∃ past, Told tears file work past s' := by
  obtain ⟨t, c, calls, ht, hcalls, hstep⟩ := Step.of_step? hs
  cases hstep with
  | take stage free => exact ⟨_, h.take ht hcalls free⟩
  | leave stage => exact ⟨_, h.leave ht hcalls stage⟩
  | work awake busy => exact ⟨_, h.work_on ht hcalls (hr t ht c (by simp [hcalls])) awake busy⟩

theorem run {steps : List (Nat × Reaction)} (h : Told tears file work past s)
    (hr : s.Throughout (Call.Reacts tears) steps) (hs : s.run? steps = some s') :
    ∃ past, Told tears file work past s' := by
  induction steps generalizing s past with
  | nil =>
    obtain rfl : s = s' := Option.some.inj hs
    exact ⟨past, h⟩
  | cons x steps ih =>
    obtain ⟨i, r⟩ := x
    rw [run?, List.foldlM_cons] at hs
    obtain ⟨s₁, hfirst, hrest⟩ := Option.bind_eq_some_iff.mp hs
    obtain ⟨past₁, told⟩ := h.step hr.1 hfirst
    exact ih told (hr.2 s₁ hfirst) hrest

end Told

/-- Calls from any number of threads on any log, in any interleaving, whatever file calls fail. The
calls are over one after another, each on the log that the one before it has left, and each thread
has the answers from its own. A failed append leaves the log as it was, unless a write fails halfway
through its record: what was written of it stays, a reading shows it, and the next record follows
it. If no write fails there, the log is what the calls that went through leave alone, a
concatenation of whole records. -/
theorem failed_append_leaves {tears : Prop} {file : Option Bytes} {work : List (List Call)}
    {steps : List (Nat × Reaction)} {s : Calls}
    (hs : (Calls.starting file work).run? steps = some s)
    (hr : (Calls.starting file work).Throughout (Call.Reacts tears) steps)
    (free : s.holder = none) :
    ∃ past : List Turn, past.map Turn.made = s.turns.reverse ∧
      (∀ i calls, work[i]? = some calls → ∃ t, s.callers[i]? = some t ∧
        calls = own i s.turns.reverse ++ t.calls ∧
        t.answers.reverse = own i (past.map Turn.answered)) ∧
      Chain tears (file.getD []) past s.log ∧
      (∀ (earlier later : List Turn) (i j : Nat) (record left log right : Bytes) (e : IoError),
        past = earlier ++ ⟨i, .append record, .failed e, left⟩ ::
          ⟨j, .readAll, .content log, right⟩ :: later →
        ∃ before part, Chain tears (file.getD []) earlier before ∧ log = before ++ part ∧
          (part = [] ∨ tears ∧ ∃ rest, record = part ++ rest ∧ rest ≠ [])) ∧
      (¬ tears →
        (file.getD [] = [] → s.log = (kept ((past.filter (·.answer.went)).map Turn.made)).flatten) ∧
        ((records (file.getD [])).2 = [] →
          (∀ i record, (i, .append record) ∈ s.turns → IsRecord record) →
          (records s.log).2 = [])) := by
  obtain ⟨past, h⟩ := (Told.starting tears file work).run hr hs
  have hdone : s.completed = s.turns.reverse := by simp [completed, free]
  have hchain := h.free free
  refine ⟨past, hdone ▸ h.made, ?_, hchain, ?_, ?_⟩
  · intro i calls hcalls
    rw [← hdone]
    exact h.shares.share h.threads hcalls
  · rintro earlier later i j record left log right e rfl
    exact hchain.reading
  · intro untorn
    rw [hchain.went untorn]
    refine ⟨fun empty => by rw [empty, inTurn_kept], fun whole framed => ?_⟩
    refine inTurn_whole whole fun i record hmem => framed i record ?_
    obtain ⟨turn, hturn, hmade⟩ := List.mem_map.mp hmem
    have hpast := List.mem_map_of_mem (f := Turn.made) (List.mem_filter.mp hturn).1
    rwa [hmade, h.made, hdone, List.mem_reverse] at hpast

/-- A record torn after two octets, which a reading shows, and a record that then follows them. -/
theorem failed_append_leaves_torn :
    let work : List (List Call) :=
      [[.append [98, 99, 10]], [.readAll, .append [100, 10], .readAll]]
    let steps : List (Nat × Reaction) := [(0, .ok 1), (0, .ok 1), (0, .ok 2), (0, .error .noSpace),
      (0, .ok 1), (1, .ok 1), (1, .ok 1), (1, .ok 1), (1, .ok 1), (1, .ok 1), (1, .ok 1),
      (1, .ok 2), (1, .ok 1), (1, .ok 1), (1, .ok 1), (1, .ok 1), (1, .ok 1)]
    ∃ s past, (Calls.starting (some [97, 10]) work).run? steps = some s ∧
      (Calls.starting (some [97, 10]) work).Throughout (Call.Reacts True) steps ∧
      s.holder = none ∧ Chain True [97, 10] past s.log ∧
      own 0 (past.map Turn.answered) = [.failed .noSpace] ∧
      own 1 (past.map Turn.answered) =
        [.content [97, 10, 98, 99], .done, .content [97, 10, 98, 99, 100, 10]] ∧
      records s.log = ([[97, 10], [98, 99, 100, 10]], []) := by
  intro work steps
  let s : Calls := {
    callers := [{ calls := [], answers := [.failed .noSpace] },
      { calls := [], answers := [.content [97, 10, 98, 99, 100, 10], .done,
          .content [97, 10, 98, 99]] }]
    file := some [97, 10, 98, 99, 100, 10]
    turns := [(1, .readAll), (1, .append [100, 10]), (1, .readAll), (0, .append [98, 99, 10])] }
  obtain ⟨hs, hr⟩ : (Calls.starting (some [97, 10]) work).run? steps = some s ∧
      (Calls.starting (some [97, 10]) work).Throughout (Call.Reacts True) steps := by
    decide +revert
  obtain ⟨past, -, hanswers, hchain, -⟩ := failed_append_leaves hs hr rfl
  obtain ⟨t, ht, -, hfirst⟩ := hanswers 0 _ rfl
  obtain ⟨u, hu, -, hsecond⟩ := hanswers 1 _ rfl
  obtain rfl := Option.some.inj ht
  obtain rfl := Option.some.inj hu
  exact ⟨s, past, hs, hr, rfl, hchain, hfirst.symm, hsecond.symm, by decide⟩

/-- On every log every record of more than one octet can be torn, between any two of its octets and
by any failure. -/
theorem append_tears (file : Option Bytes) {part rest : Bytes} (some : part ≠ [])
    (left : rest ≠ []) {e : IoError} (fails : e.isInterrupted = false) :
    ∃ s, (Calls.starting file [[.append (part ++ rest), .readAll]]).run?
        [(0, .ok 1), (0, .ok 1), (0, .ok part.length), (0, .error e), (0, .ok 1), (0, .ok 1),
          (0, .ok 1), (0, .ok 1), (0, .ok 1)] = .some s ∧
      s.callers = [{ calls := [], answers := [.content (file.getD [] ++ part), .failed e] }] := by
  obtain ⟨b, part, rfl⟩ := List.exists_cons_of_ne_nil some
  obtain ⟨d, rest, rfl⟩ := List.exists_cons_of_ne_nil left
  simp [run?, step?, Calls.starting, fresh, update, Call.work, Call.writeRest, fails]

end Calls

end RecordLog.LogStore

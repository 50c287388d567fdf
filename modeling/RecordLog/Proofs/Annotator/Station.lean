import RecordLog.Annotator.Station
import RecordLog.Proofs.Annotator.Cadence
import RecordLog.Proofs.LogLines
import RecordLog.Proofs.LogStore.Content

/-! An annotator that is alone with its store. What it does up to some time is a course like any
other. As nothing holds it up it fires just at its deadlines, and the log grows by what the clock
shows at these times; once it is cancelled it does nothing. -/
namespace RecordLog.Annotator

namespace Course

variable {timer : Timer} {c : Course}

lemma run?_append (timer : Timer) (c : Course) (xs ys : List Event) :
    c.run? timer (xs ++ ys) = (c.run? timer xs).bind fun c' => c'.run? timer ys :=
  List.foldlM_append ..

section
variable (waiting : c.annotator.phase = .waiting) (going : c.annotator.cancelled = false)
  (due : c.annotator.deadline ≤ c.now)
include waiting going due

lemma run?_late (set : c.flag.triggered = true) :
    c.run? timer [.wake, .look] = some { c with
      annotator := { c.annotator with
        deadline := timer c.annotator.deadline c.annotator.period c.now
        phase := .stopped .shutdown }
      firings := c.firings ++ [⟨c.annotator.deadline, c.now⟩] } := by
  simp [run?, step?, wake?, resume?, waiting, going, due, set, moveTo]

lemma run?_firing (unset : c.flag.triggered = false) (result : Except IoError Unit) :
    c.run? timer [.wake, .look, .append result] = some { c with
      annotator := { c.annotator with
        deadline := timer c.annotator.deadline c.annotator.period c.now }
      firings := c.firings ++ [⟨c.annotator.deadline, c.now⟩]
      attempts := c.attempts ++ [c.now]
      results := c.results ++ [result] } := by
  simp [run?, step?, wake?, resume?, waiting, going, due, unset, moveTo]

end

end Course

namespace Station

/-- How far an annotator has come in its course. -/
structure Shows (c : Course) (s : Station) (a : Annotator) : Prop where
  annotator : c.annotator = a
  now : c.now = s.clock.now
  flag : c.flag = s.flag

/-- What is appended when the clock shows this time. -/
def stamp (c : Clock) (time : Nat) : Bytes := Bytes.ofString { c with now := time }.record

/-- The timestamps of `n` deadlines. -/
def stamps (c : Clock) (a : Annotator) (n : Nat) : List Bytes :=
  (List.range n).map fun i => stamp c (a.deadline + i * a.period)

variable {s : Station} {a : Annotator} {c : Course} {limit time n : Nat} {log : Bytes}
  {rs : List Bytes} {enough : Station → Bool}

lemma due?_eq_some : s.due? a limit = some time ↔ (a.phase = .waiting ∧ a.cancelled = false ∧
    0 < a.period ∧ time ≤ limit) ∧ time = max s.clock.now a.deadline := by
  simp only [due?, Option.ite_none_right_eq_some, Option.some.injEq, Bool.not_eq_true]
  constructor
  · rintro ⟨h, rfl⟩
    exact ⟨h, rfl⟩
  · rintro ⟨h, rfl⟩
    exact ⟨h, rfl⟩

lemma runUntil_enough (h : enough s = true) : s.runUntil limit enough a = (a, s) := by
  rw [runUntil, if_pos h]

lemma runUntil_rest (more : enough s = false) (rest : s.due? a limit = none) :
    s.runUntil limit enough a = (a, { s with clock := s.clock.advance limit }) := by
  rw [runUntil, if_neg (by simp [more])]
  split
  · rfl
  · rename_i htime
    rw [rest] at htime
    cases htime

lemma runUntil_fire (more : enough s = false) (due : s.due? a limit = some time) :
    s.runUntil limit enough a =
      (({ s with clock := s.clock.advance time } : Station).fire a).2.runUntil limit enough
        (({ s with clock := s.clock.advance time } : Station).fire a).1 := by
  rw [runUntil, if_neg (by simp [more])]
  split
  · rename_i hnone
    rw [due] at hnone
    cases hnone
  · rename_i t htime
    obtain rfl : t = time := Option.some.inj (htime.symm.trans due)
    rfl

section
variable (waiting : a.phase = .waiting) (going : a.cancelled = false)
  (due : a.deadline ≤ s.clock.now)
include waiting going due

lemma resume_due (set : Bool) : (a.resume (.woken s.clock.now)).resume (.flag set) =
    { a with
      deadline := nextDeadline a.deadline a.period s.clock.now
      phase := if set then .stopped .shutdown else .appending } := by
  simp [resume, resume?, waiting, going, due, moveTo]

lemma fire_set (set : s.flag.triggered = true) : s.fire a =
    ({ a with
        deadline := nextDeadline a.deadline a.period s.clock.now
        phase := .stopped .shutdown }, { s with host := s.host.report sawShutdown }) := by
  simp only [fire, resume_due waiting going due, set, if_true]

lemma fire_unset (unset : s.flag.triggered = false) : s.fire a =
    ({ a with deadline := nextDeadline a.deadline a.period s.clock.now },
      { s with
        host := (s.store.append (Bytes.ofString s.clock.record) s.host).2.report
          (attempted s.clock.record
            (s.store.append (Bytes.ofString s.clock.record) s.host).1) }) := by
  have hdone : ∀ next result,
      ({ a with deadline := next, phase := .appending } : Annotator).resume (.appended result) =
        { a with deadline := next } := by
    intro next result
    simp [resume, resume?, moveTo, ← waiting]
  simp only [fire, resume_due waiting going due, unset, Bool.false_eq_true, if_false, hdone]

/-- A firing is made of what a course is made of. -/
lemma fire_course (shows : Shows c s a) : ∃ events c',
    c.run? nextDeadline events = some c' ∧ Shows c' (s.fire a).2 (s.fire a).1 := by
  obtain ⟨rfl, hnow, hflag⟩ := shows
  cases hset : s.flag.triggered with
  | true =>
    refine ⟨_, _, Course.run?_late waiting going (hnow ▸ due) (hflag ▸ hset), ?_⟩
    rw [fire_set waiting going due hset, ← hnow]
    exact ⟨rfl, hnow, hflag⟩
  | false =>
    refine ⟨_, _, Course.run?_firing waiting going (hnow ▸ due) (hflag ▸ hset)
      (s.store.append (Bytes.ofString s.clock.record) s.host).1, ?_⟩
    rw [fire_unset waiting going due hset, ← hnow]
    exact ⟨rfl, hnow, hflag⟩

end

/-- Time goes by until `time`, in a course too. -/
lemma Shows.advance (shows : Shows c s a) (time : Nat) :
    ∃ c', c.run? nextDeadline [.pass (time - c.now)] = some c' ∧
      Shows c' { s with clock := s.clock.advance time } a := by
  obtain ⟨rfl, hnow, hflag⟩ := shows
  refine ⟨{ c with now := c.now + (time - c.now) }, rfl, rfl, ?_, hflag⟩
  simp only [Clock.advance, ← hnow]
  omega

/-- Whatever an annotator does up to some time is a course. -/
theorem runUntil_course (limit : Nat) (enough : Station → Bool) (shows : Shows c s a) :
    ∃ events c', c.run? nextDeadline events = some c' ∧
      Shows c' (s.runUntil limit enough a).2 (s.runUntil limit enough a).1 := by
  induction s, a using runUntil.induct limit enough generalizing c with
  | case1 s a h =>
    rw [runUntil_enough h]
    exact ⟨[], c, rfl, shows⟩
  | case2 s a more rest =>
    rw [runUntil_rest (by simpa using more) rest]
    obtain ⟨c', hrun, shows⟩ := shows.advance limit
    exact ⟨_, c', hrun, shows⟩
  | case3 s a more time due _ fired =>
    rename_i ih
    rw [runUntil_fire (by simpa using more) due]
    obtain ⟨⟨waiting, going, -, -⟩, rfl⟩ := due?_eq_some.mp due
    obtain ⟨c₁, hpass, shows⟩ := shows.advance (max s.clock.now a.deadline)
    have hdue : a.deadline ≤ (s.clock.advance (max s.clock.now a.deadline)).now := by
      simp only [Clock.advance]
      omega
    obtain ⟨early, c₂, hearly, shows⟩ := fire_course waiting going hdue shows
    obtain ⟨late, c₃, hlate, shows⟩ := ih shows
    refine ⟨[.pass (max s.clock.now a.deadline - c.now)] ++ (early ++ late), c₃, ?_, shows⟩
    rw [Course.run?_append, hpass, Option.bind_some, Course.run?_append, hearly, Option.bind_some,
      hlate]

/-- An annotator that waits for a deadline to come, with a log that it can add to. -/
structure Ready (s : Station) (a : Annotator) (log : Bytes) : Prop where
  held : s.store.Holds s.host log
  waiting : a.phase = .waiting
  going : a.cancelled = false
  periodic : 0 < a.period
  unset : s.flag.triggered = false
  ahead : s.clock.now ≤ a.deadline

/-- A freshly started annotator is ready. -/
lemma Ready.start {period : Nat} (held : s.store.Holds s.host log)
    (unset : s.flag.triggered = false) (periodic : 0 < period)
    (h : start? s.clock period = some a) : Ready s a log := by
  simp only [start?, Clock.deadline?, Option.map_eq_some_iff, Option.ite_none_right_eq_some,
    Option.some.injEq] at h
  obtain ⟨deadline, ⟨-, rfl⟩, rfl⟩ := h
  exact
    { held
      waiting := if_neg (by omega)
      going := rfl
      periodic
      unset
      ahead := Nat.le_add_right _ _ }

/-- A deadline is met just in time: the log grows by the timestamp of the deadline, and the next
one is a period later. -/
lemma Ready.fire (r : Ready s a log) : ∃ host,
    ({ s with clock := s.clock.advance a.deadline } : Station).fire a =
      ({ a with deadline := a.deadline + a.period },
        { s with host, clock := { s.clock with now := a.deadline } }) ∧
      Ready { s with host, clock := { s.clock with now := a.deadline } }
        { a with deadline := a.deadline + a.period } (log ++ stamp s.clock a.deadline) := by
  obtain ⟨held, waiting, going, periodic, unset, ahead⟩ := r
  have hnow : s.clock.advance a.deadline = { s.clock with now := a.deadline } := by
    simp [Clock.advance, ahead]
  have hnext : nextDeadline a.deadline a.period a.deadline = a.deadline + a.period := by
    unfold nextDeadline
    exact if_neg (by omega)
  have hfire := fire_unset (s := { s with clock := { s.clock with now := a.deadline } }) waiting
    going (Nat.le_refl _) unset
  rw [hnext] at hfire
  rw [hnow]
  obtain ⟨-, grown⟩ := held.append (stamp s.clock a.deadline)
  exact ⟨_, hfire, grown.congr rfl, waiting, going, periodic, unset, Nat.le_add_right _ _⟩

lemma deadline_succ (a : Annotator) (i : Nat) :
    a.deadline + (i + 1) * a.period = a.deadline + a.period + i * a.period := by
  rw [Nat.succ_mul]
  omega

lemma stamps_succ (c : Clock) (a : Annotator) (n : Nat) : stamps c a (n + 1) =
    stamp c a.deadline :: stamps c { a with deadline := a.deadline + a.period } n := by
  simp only [stamps, List.range_succ_eq_map, List.map_cons, List.map_map, Function.comp_def,
    Nat.zero_mul, Nat.add_zero, Nat.succ_eq_add_one, deadline_succ]

/-- How a ready annotator leaves its station when it has met `n` deadlines: all of them are up to
`limit`, and it stops only as there is enough or as the next is after that. -/
structure Served (limit : Nat) (enough : Station → Bool) (s : Station) (a : Annotator)
    (log : Bytes) (n : Nat) (s' : Station) : Prop where
  held : s'.store.Holds s'.host (log ++ (stamps s.clock a n).flatten)
  within : ∀ i < n, a.deadline + i * a.period ≤ limit
  clock : s'.clock = { s.clock with now := s'.clock.now }
  forth : s.clock.now ≤ s'.clock.now
  later : ∀ i < n, a.deadline + i * a.period ≤ s'.clock.now
  stops : enough s' = true ∨ limit < a.deadline + n * a.period ∧ limit ≤ s'.clock.now

/-- A ready annotator meets every deadline up to some time, and the log grows by their
timestamps. -/
theorem runUntil_served (limit : Nat) (enough : Station → Bool) (ready : Ready s a log) :
    ∃ n s', s.runUntil limit enough a = ({ a with deadline := a.deadline + n * a.period }, s') ∧
      Served limit enough s a log n s' := by
  induction s, a using runUntil.induct limit enough generalizing log with
  | case1 s a h =>
    rw [runUntil_enough h]
    refine ⟨0, s, by simp, ?_⟩
    exact
      { held := by simpa [stamps] using ready.held
        within := by simp
        clock := rfl
        forth := Nat.le_refl _
        later := by simp
        stops := .inl h }
  | case2 s a more rest =>
    rw [runUntil_rest (by simpa using more) rest]
    have hlate : limit < a.deadline := by
      apply Nat.lt_of_not_le
      intro hle
      have htime := Nat.max_le.mpr ⟨Nat.le_trans ready.ahead hle, hle⟩
      have hdue := due?_eq_some.mpr ⟨⟨ready.waiting, ready.going, ready.periodic, htime⟩, rfl⟩
      rw [rest] at hdue
      cases hdue
    refine ⟨0, { s with clock := s.clock.advance limit }, by simp, ?_⟩
    exact
      { held := by simpa [stamps] using ready.held
        within := by simp
        clock := rfl
        forth := Nat.le_max_left _ _
        later := by simp
        stops := .inr ⟨by simpa using hlate, Nat.le_max_right _ _⟩ }
  | case3 s a more time due _ fired =>
    rename_i ih
    rw [runUntil_fire (by simpa using more) due]
    obtain ⟨⟨-, -, -, hle⟩, htime⟩ := due?_eq_some.mp due
    obtain rfl : time = a.deadline := htime.trans (Nat.max_eq_right ready.ahead)
    obtain ⟨host, hfire, after⟩ := ready.fire
    have hfired : fired = _ := hfire
    rw [hfired] at ih
    rw [hfire]
    obtain ⟨n, s', hrun, held, within, clock, forth, later, stops⟩ := ih after
    have hsucc : ∀ {bound}, a.deadline ≤ bound →
        (∀ i < n, a.deadline + a.period + i * a.period ≤ bound) →
        ∀ i < n + 1, a.deadline + i * a.period ≤ bound := by
      intro bound hfirst hrest i hi
      cases i with
      | zero => simpa using hfirst
      | succ i => exact deadline_succ a i ▸ hrest i (by omega)
    refine ⟨n + 1, s', by rw [hrun, deadline_succ], ?_⟩
    exact
      { held := by
          rw [stamps_succ, List.flatten_cons, ← List.append_assoc]
          exact held
        within := hsucc hle within
        clock := clock
        forth := Nat.le_trans ready.ahead forth
        later := hsucc forth later
        stops := deadline_succ a n ▸ stops }

lemma mem_stamps {clock : Clock} {r : Bytes} :
    r ∈ stamps clock a n ↔ ∃ i < n, stamp clock (a.deadline + i * a.period) = r := by
  simp only [stamps, List.mem_map, List.mem_range]

lemma isRecord_stamps (c : Clock) (a : Annotator) (n : Nat) : ∀ r ∈ stamps c a n, IsRecord r := by
  intro r hr
  obtain ⟨i, -, rfl⟩ := mem_stamps.mp hr
  exact Timestamp.isRecord _ _

/-- The timestamps of a served log are those it had and one for each deadline that was met. -/
theorem timestamps_stamps (framed : ∀ r ∈ rs, IsRecord r) (c : Clock) (a : Annotator) (n : Nat) :
    LogLines.timestamps (rs.flatten ++ (stamps c a n).flatten) =
      LogLines.timestamps rs.flatten ++ stamps c a n := by
  have hall : (stamps c a n).filter LogLines.isTimestamp = stamps c a n := by
    apply List.filter_eq_self.mpr
    intro r hr
    obtain ⟨i, -, rfl⟩ := mem_stamps.mp hr
    exact LogLines.isTimestamp_record _
  rw [LogLines.timestamps_records framed, LogLines.timestamps, LogLines.split_append framed,
    LogLines.split_records (isRecord_stamps c a n), List.filter_append, hall]

/-- Whatever others have written stays as it was. -/
theorem others_stamps (framed : ∀ r ∈ rs, IsRecord r) (c : Clock) (a : Annotator) (n : Nat) :
    LogLines.others (rs.flatten ++ (stamps c a n).flatten) = LogLines.others rs.flatten := by
  have hnone : (stamps c a n).filter (!LogLines.isTimestamp ·) = [] := by
    apply List.filter_eq_nil_iff.mpr
    intro r hr
    obtain ⟨i, -, rfl⟩ := mem_stamps.mp hr
    simp [stamp, LogLines.isTimestamp_record]
  rw [LogLines.others_records framed, LogLines.others, LogLines.split_append framed,
    LogLines.split_records (isRecord_stamps c a n), List.filter_append, hnone, List.append_nil]

/-- Each new timestamp shows a time that has come. -/
theorem Served.faithful {s' : Station} (served : Served limit enough s a log n s')
    (told : ∀ i < n, ({ s.clock with
      now := a.deadline + i * a.period } : Clock).instant.inRange = true)
    (valid : Timestamp.validOffset s.clock.offset = true) :
    ∀ r ∈ stamps s.clock a n, LogLines.isFaithful s'.clock r = true := by
  intro r hr
  obtain ⟨i, hi, rfl⟩ := mem_stamps.mp hr
  apply LogLines.isFaithful_record (told i hi) valid
  · rw [served.clock]
  · rw [served.clock]
  · exact served.later i hi

/-- A cancellation is the end of a waiting annotator, and is a course. -/
theorem cancel_course (shows : Shows c s a) (waiting : a.phase = .waiting) :
    ∃ c', c.run? nextDeadline [.cancel, .wake, .join] = some c' ∧
      Shows c' (s.cancel a).2 (s.cancel a).1 := by
  obtain ⟨rfl, hnow, hflag⟩ := shows
  have hstopped : c.annotator.cancel.resume (.woken s.clock.now) =
      c.annotator.cancel.moveTo (.stopped .cancelled) := by
    simp [resume, resume?, Annotator.cancel, waiting]
  refine ⟨{ c with
    annotator := c.annotator.cancel.moveTo (.stopped .cancelled), joined := true }, ?_, ?_⟩
  · simp [Course.run?, Course.step?, wake?, resume?, Annotator.cancel, waiting, moveTo, isStopped]
  · rw [Station.cancel, hstopped]
    exact ⟨rfl, hnow, hflag⟩

theorem cancel_stopped (h : a.phase = .waiting ∨ a.isStopped = true) :
    (s.cancel a).1.isStopped = true := by
  obtain waiting | stopped := h
  · simp [Station.cancel, resume, resume?, Annotator.cancel, waiting, moveTo, isStopped]
  · cases hphase : a.phase with
    | stopped why => simp [Station.cancel, resume, resume?, Annotator.cancel, hphase, isStopped]
    | _ => simp [isStopped, hphase] at stopped

/-- Nothing comes of a stopped annotator but that time goes by. -/
theorem runUntil_stopped (limit : Nat) (enough : Station → Bool) (stopped : a.isStopped = true) :
    ∃ clock, s.runUntil limit enough a = (a, { s with clock }) := by
  have hnone : s.due? a limit = none := by
    apply Option.eq_none_iff_forall_ne_some.mpr
    intro time h
    obtain ⟨⟨waiting, -⟩, -⟩ := due?_eq_some.mp h
    simp [isStopped, waiting] at stopped
  cases h : enough s with
  | true => exact ⟨s.clock, runUntil_enough h⟩
  | false => exact ⟨_, runUntil_rest h hnone⟩

end Station

end RecordLog.Annotator

import Mathlib.Tactic.Lemma
import RecordLog.Annotator.Course

/-! When an annotator fires, and how it stops. Each firing is at or after its deadline, the
deadlines are whole periods after the start, and no append is begun but by a firing that saw the
flag unset. -/
namespace RecordLog.Annotator

/-- A late deadline is followed by the first one after now that is whole periods away. -/
theorem nextDeadline_steady : Timer.Steady nextDeadline where
  later positive _ := lt_nextDeadline positive
  whole := by
    intro deadline period now due
    unfold nextDeadline
    split
    · have hsum : now + period - (now - deadline) % period - deadline =
          period * ((now - deadline) / period) + period := by
        have hdivide := Nat.div_add_mod (now - deadline) period
        omega
      rw [hsum]
      exact Nat.dvd_add (Nat.dvd_mul_right _ _) (Nat.dvd_refl _)
    · have hsum : deadline + period - deadline = period := Nat.add_sub_cancel_left _ _
      exact hsum.symm ▸ Nat.dvd_refl period

/-- Firings that have had no attempt to append: one under way, or the last one of all. -/
def Phase.untried : Phase → Nat
  | .vetting | .stopped .shutdown => 1
  | _ => 0

/-- Attempts that have had no answer. -/
def Phase.unanswered : Phase → Nat
  | .appending => 1
  | _ => 0

namespace Course

variable {timer : Timer} {c c' : Course} {e : Event} {start period : Nat}

/-- What an event does. -/
inductive Step (timer : Timer) (c : Course) : Event → Course → Prop
  | pass (time : Nat) : Step timer c (.pass time) { c with now := c.now + time }
  | stop (phase : c.annotator.phase = .waiting) (cancelled : c.annotator.cancelled = true) :
    Step timer c .wake { c with annotator := c.annotator.moveTo (.stopped .cancelled) }
  | fire (phase : c.annotator.phase = .waiting) (going : c.annotator.cancelled = false)
    (due : c.annotator.deadline ≤ c.now) :
    Step timer c .wake { c with
      annotator := { c.annotator with
        deadline := timer c.annotator.deadline c.annotator.period c.now, phase := .vetting }
      firings := c.firings ++ [⟨c.annotator.deadline, c.now⟩] }
  | giveUp (phase : c.annotator.phase = .vetting) (set : c.flag.triggered = true) :
    Step timer c .look { c with annotator := c.annotator.moveTo (.stopped .shutdown) }
  | begin (phase : c.annotator.phase = .vetting) (unset : c.flag.triggered = false) :
    Step timer c .look { c with
      annotator := c.annotator.moveTo .appending, attempts := c.attempts ++ [c.now] }
  | finish (phase : c.annotator.phase = .appending) (result : Except IoError Unit) :
    Step timer c (.append result) { c with
      annotator := c.annotator.moveTo .waiting, results := c.results ++ [result] }
  | trigger : Step timer c .trigger { c with flag := ⟨true⟩ }
  | cancel : Step timer c .cancel { c with annotator := c.annotator.cancel }
  | join (cancelled : c.annotator.cancelled = true) (stopped : c.annotator.isStopped = true) :
    Step timer c .join { c with joined := true }

theorem Step.of_step? (h : c.step? timer e = some c') : Step timer c e c' := by
  cases e with
  | pass time => exact Option.some.inj h ▸ .pass time
  | trigger => exact Option.some.inj h ▸ .trigger
  | cancel => exact Option.some.inj h ▸ .cancel
  | join =>
    simp only [step?, Bool.and_eq_true, Option.ite_none_right_eq_some, Option.some.injEq] at h
    obtain ⟨⟨cancelled, stopped⟩, rfl⟩ := h
    exact .join cancelled stopped
  | wake =>
    obtain ⟨a, hwake, rfl⟩ := Option.map_eq_some_iff.mp h
    obtain ⟨next, hnext, rfl⟩ := Option.map_eq_some_iff.mp hwake
    cases hphase : c.annotator.phase <;> simp only [resume?, hphase, reduceCtorEq] at hnext
    split at hnext
    · rename_i cancelled
      obtain rfl := Option.some.inj hnext
      simpa [moveTo] using (Step.stop hphase cancelled : Step timer c _ _)
    · rename_i going
      split at hnext
      · rename_i due
        obtain rfl := Option.some.inj hnext
        simpa using (Step.fire hphase (by simpa using going) due : Step timer c _ _)
      · cases hnext
  | look =>
    obtain ⟨a, hlook, rfl⟩ := Option.map_eq_some_iff.mp h
    cases hphase : c.annotator.phase <;> simp only [resume?, hphase, reduceCtorEq] at hlook
    obtain rfl := Option.some.inj hlook
    cases hflag : c.flag.triggered with
    | true => simpa [hflag, moveTo] using (Step.giveUp hphase hflag : Step timer c _ _)
    | false => simpa [hflag, moveTo] using (Step.begin hphase hflag : Step timer c _ _)
  | append result =>
    obtain ⟨a, hend, rfl⟩ := Option.map_eq_some_iff.mp h
    cases hphase : c.annotator.phase <;> simp only [resume?, hphase, reduceCtorEq] at hend
    obtain rfl := Option.some.inj hend
    exact .finish hphase result

/-- What holds of an annotator started at `start`, whatever has happened since. -/
structure Sound (start period : Nat) (c : Course) : Prop where
  period_eq : c.annotator.period = period
  ahead : ∃ k, c.annotator.deadline = start + k * period ∧ c.firings.length < k
  elapsed : start + c.firings.length * period ≤ c.now
  served : ∀ f ∈ c.firings, f.deadline < c.annotator.deadline ∧ f.deadline ≤ f.time ∧
    f.time ≤ c.now ∧ ∃ k, 1 ≤ k ∧ f.deadline = start + k * period
  rising : (c.firings.map (·.deadline)).Pairwise (· < ·)
  tried : c.firings.length = c.attempts.length + c.annotator.phase.untried
  answered : c.attempts.length = c.results.length + c.annotator.phase.unanswered
  closed : c.annotator.phase = .stopped .shutdown → c.flag.triggered = true
  ended : c.joined = true → c.annotator.isStopped = true

namespace Sound

theorem fresh {clock : Clock} (positive : 0 < period) (h : start? clock period = some c) :
    Sound clock.now period c := by
  obtain ⟨a, hstart, rfl⟩ := Option.map_eq_some_iff.mp h
  obtain ⟨deadline, hdeadline, rfl⟩ := Option.map_eq_some_iff.mp hstart
  have hfirst : deadline = clock.now + period := by
    simp only [Clock.deadline?, Option.ite_none_right_eq_some, Option.some.injEq] at hdeadline
    exact hdeadline.2.symm
  have hphase : (if period = 0 then Phase.stopped .panicked else .waiting) = .waiting :=
    if_neg (by omega)
  rw [hphase]
  exact
    { period_eq := rfl
      ahead := ⟨1, by simpa using hfirst, Nat.one_pos⟩
      elapsed := by simp
      served := by simp
      rising := .nil
      tried := rfl
      answered := rfl
      closed := nofun
      ended := nofun }

/-- A firing goes on record, and the timer sets a later deadline. -/
lemma fire (h : Sound start period c) (steady : timer.Steady) (positive : 0 < period)
    (phase : c.annotator.phase = .waiting) (due : c.annotator.deadline ≤ c.now) :
    Sound start period { c with
      annotator := { c.annotator with
        deadline := timer c.annotator.deadline c.annotator.period c.now, phase := .vetting }
      firings := c.firings ++ [⟨c.annotator.deadline, c.now⟩] } := by
  obtain ⟨k, hdeadline, hk⟩ := h.ahead
  have hperiod : 0 < c.annotator.period := h.period_eq ▸ positive
  have later := steady.later hperiod due
  have whole : c.annotator.period ∣ _ := steady.whole due
  rw [h.period_eq] at later whole
  obtain ⟨n, hn⟩ := whole
  have hmul : (c.firings.length + 1) * period ≤ k * period := Nat.mul_le_mul_right period hk
  constructor
  case period_eq => exact h.period_eq
  case ahead =>
    have hpos : 0 < n := by
      rcases Nat.eq_zero_or_pos n with rfl | hpos
      · omega
      · exact hpos
    refine ⟨k + n, ?_, ?_⟩
    · change timer c.annotator.deadline c.annotator.period c.now = start + (k + n) * period
      rw [h.period_eq, Nat.add_mul, Nat.mul_comm n]
      omega
    · rw [List.length_append, List.length_singleton]
      omega
  case elapsed =>
    rw [List.length_append, List.length_singleton]
    simp only
    omega
  case served =>
    intro f hf
    obtain hf | hf := List.mem_append.mp hf
    · obtain ⟨hbefore, hrest⟩ := h.served f hf
      exact ⟨h.period_eq ▸ Nat.lt_trans hbefore later, hrest⟩
    · obtain rfl := List.mem_singleton.mp hf
      exact ⟨h.period_eq ▸ later, due, Nat.le_refl _, k, by omega, hdeadline⟩
  case rising =>
    rw [List.map_append, List.pairwise_append]
    refine ⟨h.rising, List.pairwise_singleton _ _, ?_⟩
    intro d hd d' hd'
    obtain ⟨f, hf, rfl⟩ := List.mem_map.mp hd
    obtain rfl := List.mem_singleton.mp hd'
    exact (h.served f hf).1
  case tried =>
    have htried := h.tried
    rw [phase] at htried
    rw [List.length_append, htried]
    rfl
  case answered =>
    have hanswered := h.answered
    rw [phase] at hanswered
    exact hanswered
  case closed => simp
  case ended =>
    intro joined
    have hended := h.ended joined
    simp [isStopped, phase] at hended

/-- Where the annotator keeps its timer and no firing is added only the phase is to be looked at. -/
lemma of_same (h : Sound start period c) (hperiod : c'.annotator.period = c.annotator.period)
    (hdeadline : c'.annotator.deadline = c.annotator.deadline) (hnow : c.now ≤ c'.now)
    (hfirings : c'.firings = c.firings)
    (tried : c.attempts.length + c.annotator.phase.untried =
      c'.attempts.length + c'.annotator.phase.untried)
    (answered : c'.attempts.length = c'.results.length + c'.annotator.phase.unanswered)
    (closed : c'.annotator.phase = .stopped .shutdown → c'.flag.triggered = true)
    (ended : c'.joined = true → c'.annotator.isStopped = true) : Sound start period c' where
  period_eq := hperiod.trans h.period_eq
  ahead := by rw [hdeadline, hfirings]; exact h.ahead
  elapsed := by rw [hfirings]; exact Nat.le_trans h.elapsed hnow
  served := by
    intro f hf
    rw [hfirings] at hf
    obtain ⟨hbefore, hlate, hpast, hform⟩ := h.served f hf
    exact ⟨hdeadline ▸ hbefore, hlate, Nat.le_trans hpast hnow, hform⟩
  rising := by rw [hfirings]; exact h.rising
  tried := by rw [hfirings, h.tried, tried]
  answered := answered
  closed := closed
  ended := ended

theorem step (h : Sound start period c) (steady : timer.Steady) (positive : 0 < period)
    (hs : Step timer c e c') : Sound start period c' := by
  have htried := h.tried
  have hanswered := h.answered
  cases hs with
  | pass time =>
    exact h.of_same rfl rfl (Nat.le_add_right _ _) rfl rfl hanswered h.closed h.ended
  | fire phase going due => exact h.fire steady positive phase due
  | stop phase cancelled =>
    rw [phase] at hanswered
    refine h.of_same rfl rfl (Nat.le_refl _) rfl ?_ hanswered (by simp [moveTo]) fun _ => rfl
    rw [phase]
    rfl
  | giveUp phase set =>
    rw [phase] at hanswered
    refine h.of_same rfl rfl (Nat.le_refl _) rfl ?_ hanswered (fun _ => set) fun _ => rfl
    rw [phase]
    rfl
  | begin phase unset =>
    rw [phase] at hanswered
    refine h.of_same rfl rfl (Nat.le_refl _) rfl ?_ ?_ (by simp [moveTo]) fun joined => ?_
    · rw [phase, List.length_append]
      rfl
    · rw [List.length_append, hanswered]
      rfl
    · have hended := h.ended joined
      simp [isStopped, phase] at hended
  | finish phase result =>
    rw [phase] at hanswered
    refine h.of_same rfl rfl (Nat.le_refl _) rfl ?_ ?_ (by simp [moveTo]) fun joined => ?_
    · rw [phase]
      rfl
    · rw [List.length_append, hanswered]
      rfl
    · have hended := h.ended joined
      simp [isStopped, phase] at hended
  | trigger => exact h.of_same rfl rfl (Nat.le_refl _) rfl rfl hanswered (fun _ => rfl) h.ended
  | cancel => exact h.of_same rfl rfl (Nat.le_refl _) rfl rfl hanswered h.closed h.ended
  | join cancelled stopped =>
    exact h.of_same rfl rfl (Nat.le_refl _) rfl rfl hanswered h.closed fun _ => stopped

end Sound

lemma run?_cons (timer : Timer) (c : Course) (e : Event) (events : List Event) :
    c.run? timer (e :: events) = (c.step? timer e).bind (·.run? timer events) := by
  rw [run?, List.foldlM_cons]
  rfl

theorem Sound.run (h : Sound start period c) (steady : timer.Steady) (positive : 0 < period)
    {events : List Event} (hrun : c.run? timer events = some c') : Sound start period c' := by
  induction events generalizing c with
  | nil => exact Option.some.inj hrun ▸ h
  | cons e events ih =>
    rw [run?_cons] at hrun
    obtain ⟨next, hfirst, hrest⟩ := Option.bind_eq_some_iff.mp hrun
    exact ih (h.step steady positive (.of_step? hfirst)) hrest

/-- No append is to come: the thread has ended, or has been asked to before it looks for that. -/
def Idle (c : Course) : Prop :=
  c.annotator.isStopped = true ∨ c.annotator.phase = .waiting ∧ c.annotator.cancelled = true

/-- An idle annotator does nothing more. -/
lemma Idle.step (h : c.Idle) (hs : Step timer c e c') : c'.Idle ∧ c'.firings = c.firings ∧
    c'.attempts = c.attempts ∧ c'.results = c.results := by
  cases hs with
  | pass | trigger | join => exact ⟨h, rfl, rfl, rfl⟩
  | stop | giveUp => exact ⟨.inl rfl, rfl, rfl, rfl⟩
  | cancel => exact ⟨h.imp id fun h => ⟨h.1, rfl⟩, rfl, rfl, rfl⟩
  | fire phase going due => simp [Idle, isStopped, phase, going] at h
  | begin phase unset => simp [Idle, isStopped, phase] at h
  | finish phase result => simp [Idle, isStopped, phase] at h

theorem Idle.run (h : c.Idle) {events : List Event} (hrun : c.run? timer events = some c') :
    c'.Idle ∧ c'.firings = c.firings ∧ c'.attempts = c.attempts ∧ c'.results = c.results := by
  induction events generalizing c with
  | nil => exact Option.some.inj hrun ▸ ⟨h, rfl, rfl, rfl⟩
  | cons e events ih =>
    rw [run?_cons] at hrun
    obtain ⟨next, hfirst, hrest⟩ := Option.bind_eq_some_iff.mp hrun
    obtain ⟨hidle, hfirings, hattempts, hresults⟩ := h.step (.of_step? hfirst)
    obtain ⟨hidle', hfirings', hattempts', hresults'⟩ := ih hidle hrest
    exact ⟨hidle', hfirings'.trans hfirings, hattempts'.trans hattempts, hresults'.trans hresults⟩

/-- What does not depend on how the appends end. -/
def outline (c : Course) : Course := { c with results := [] }

lemma step?_outline (c : Course) (e : Event) :
    (c.step? timer e).map outline = (c.outline.step? timer e.timing).map outline := by
  cases e with
  | append result =>
    cases hphase : c.annotator.phase <;>
      simp [step?, Event.timing, outline, resume?, hphase]
  | join =>
    cases hstopped : c.annotator.cancelled && c.annotator.isStopped <;>
      simp [step?, Event.timing, outline, hstopped]
  | _ =>
    simp only [step?, Event.timing, outline, Option.map_map, Function.comp_def, Option.map_some]

/-- Two annotators that differ in what their appends came to go on alike. -/
lemma step_alike {d : Course} {e' : Event} (alike : c.outline = d.outline)
    (timing : e.timing = e'.timing) (hs : c.step? timer e = some c') :
    ∃ d', d.step? timer e' = some d' ∧ c'.outline = d'.outline := by
  have hsame : (c.step? timer e).map outline = (d.step? timer e').map outline := by
    rw [step?_outline c, step?_outline d, alike, timing]
  rw [hs, Option.map_some] at hsame
  obtain ⟨d', hd, houtline⟩ := Option.map_eq_some_iff.mp hsame.symm
  exact ⟨d', hd, houtline.symm⟩

theorem run_alike {d : Course} {events events' : List Event} (alike : c.outline = d.outline)
    (timing : events.map Event.timing = events'.map Event.timing)
    (hrun : c.run? timer events = some c') :
    ∃ d', d.run? timer events' = some d' ∧ c'.outline = d'.outline := by
  induction events generalizing c d events' with
  | nil =>
    obtain rfl := List.map_eq_nil_iff.mp timing.symm
    exact ⟨d, rfl, Option.some.inj hrun ▸ alike⟩
  | cons e events ih =>
    obtain ⟨e', rest, rfl, hfirst, hrest⟩ := List.map_eq_cons_iff.mp timing.symm
    rw [run?_cons] at hrun
    obtain ⟨next, hstep, hnext⟩ := Option.bind_eq_some_iff.mp hrun
    obtain ⟨next', hstep', halike⟩ := step_alike alike hfirst.symm hstep
    obtain ⟨d', hd, houtline⟩ := ih halike hrest.symm hnext
    exact ⟨d', by rw [run?_cons, hstep', Option.bind_some, hd], houtline⟩

/-- What holds of an annotator that was `fresh` when it was started, with this clock and period, and
has come to `c` by these events. -/
structure Cadence (timer : Timer) (clock : Clock) (period : Nat) (fresh : Course)
    (events : List Event) (c : Course) : Prop where
  rising : (c.firings.map (·.deadline)).Pairwise (· < ·)
  /-- Deadlines are whole periods after the start, and none is served before its time. -/
  served : ∀ f ∈ c.firings, (∃ k, 1 ≤ k ∧ f.deadline = clock.now + k * period) ∧
    f.deadline ≤ f.time ∧ f.time ≤ c.now
  /-- There are no more records than attempts, than firings, than periods since the start. -/
  recorded : c.recorded ≤ c.attempts.length
  attempted : c.attempts.length ≤ c.firings.length
  periods : c.firings.length ≤ (c.now - clock.now) / period
  /-- Every firing has made one attempt, but for one that has yet to look at the flag or has found
  it set; and every attempt but one under way has had its answer. -/
  tried : c.firings.length = c.attempts.length + c.annotator.phase.untried
  answered : c.attempts.length = c.results.length + c.annotator.phase.unanswered
  /-- A firing ends the thread if the flag is set, and makes an attempt to append otherwise. -/
  looks : c.annotator.phase = .vetting → ∃ next, c.step? timer .look = some next ∧
    if c.flag.triggered then
      next.annotator.phase = .stopped .shutdown ∧ next.attempts = c.attempts
    else next.annotator.phase = .appending ∧ next.attempts = c.attempts ++ [c.now]
  shutdown : c.annotator.phase = .stopped .shutdown → c.flag.triggered = true ∧
    ∀ later last, c.run? timer later = some last →
      last.firings = c.firings ∧ last.attempts = c.attempts
  /-- The same events with other results of the appends make the same firings and attempts. -/
  alike : ∀ events', events'.map Event.timing = events.map Event.timing →
    ∃ other, fresh.run? timer events' = some other ∧ other.firings = c.firings ∧
      other.attempts = c.attempts ∧ other.annotator = c.annotator ∧ other.now = c.now
  /-- A thread that was asked to stop before it waits again stops, even if a deadline is due. -/
  cancelled : c.annotator.phase = .waiting → c.annotator.cancelled = true →
    (∃ next, c.step? timer .wake = some next ∧ next.annotator.phase = .stopped .cancelled) ∧
    ∀ later last, c.run? timer later = some last →
      last.firings = c.firings ∧ last.attempts = c.attempts
  /-- Once somebody has seen the end of the thread no attempt is left, and none comes. -/
  joined : c.joined = true → c.attempts.length = c.results.length ∧
    ∀ later last, c.run? timer later = some last →
      last.attempts = c.attempts ∧ last.results = c.results

/-- An annotator started with a period keeps to it. Its firings serve strictly later and later
deadlines, each whole periods after the start and never served early, so that there are no more of
them, nor of records, than periods since the start. A firing makes one attempt to append, unless it
finds the flag set and ends the thread. How the appends end changes none of this. A thread that is
asked to stop before it waits again stops although a deadline is due, and once somebody has seen its
end there is no attempt left, and none comes. -/
theorem keeps_cadence (steady : timer.Steady) {clock : Clock} (positive : 0 < period)
    {fresh : Course} (started : start? clock period = some fresh) {events : List Event}
    (hrun : fresh.run? timer events = some c) : Cadence timer clock period fresh events c := by
  have h : Sound clock.now period c := (Sound.fresh positive started).run steady positive hrun
  have htried := h.tried
  have hanswered := h.answered
  have hrecorded : c.recorded ≤ c.results.length := List.countP_le_length
  refine {
    rising := h.rising
    served := fun f hf => ?_
    recorded := by omega
    attempted := by omega
    periods := ?_
    tried := htried
    answered := hanswered
    looks := fun hphase => ?_
    shutdown := fun hphase => ?_
    alike := fun events' timing => ?_
    cancelled := fun hphase cancelled => ?_
    joined := fun hjoined => ?_ }
  · obtain ⟨-, hlate, hpast, hform⟩ := h.served f hf
    exact ⟨hform, hlate, hpast⟩
  · rw [Nat.le_div_iff_mul_le positive]
    have helapsed := h.elapsed
    omega
  · cases hflag : c.flag.triggered with
    | true =>
      refine ⟨{ c with annotator := c.annotator.moveTo (.stopped .shutdown) }, ?_, by simp [moveTo]⟩
      simp [step?, resume?, hphase, hflag, moveTo]
    | false =>
      let next : Course :=
        { c with annotator := c.annotator.moveTo .appending, attempts := c.attempts ++ [c.now] }
      refine ⟨next, ?_, by simp [next, moveTo]⟩
      simp [step?, resume?, hphase, hflag, moveTo, next]
  · have hidle : c.Idle := .inl (by simp [isStopped, hphase])
    refine ⟨h.closed hphase, fun later last hlater => ?_⟩
    obtain ⟨-, hfirings, hattempts, -⟩ := hidle.run hlater
    exact ⟨hfirings, hattempts⟩
  · obtain ⟨other, hother, houtline⟩ := run_alike rfl timing.symm hrun
    simp only [outline, mk.injEq] at houtline
    obtain ⟨hannotator, hnow, -, -, hfirings, hattempts, -⟩ := houtline
    exact ⟨other, hother, hfirings.symm, hattempts.symm, hannotator.symm, hnow.symm⟩
  · have hidle : c.Idle := .inr ⟨hphase, cancelled⟩
    refine ⟨⟨{ c with annotator := c.annotator.moveTo (.stopped .cancelled) }, ?_, rfl⟩,
      fun later last hlater => ?_⟩
    · simp [step?, wake?, resume?, hphase, cancelled, moveTo]
    · obtain ⟨-, hfirings, hattempts, -⟩ := hidle.run hlater
      exact ⟨hfirings, hattempts⟩
  · have hstopped := h.ended hjoined
    have hidle : c.Idle := .inl hstopped
    refine ⟨?_, fun later last hlater => ?_⟩
    · have hnone : c.annotator.phase.unanswered = 0 := by
        cases hphase : c.annotator.phase <;> simp [isStopped, hphase] at hstopped
        rfl
      omega
    · obtain ⟨-, -, hattempts, hresults⟩ := hidle.run hlater
      exact ⟨hattempts, hresults⟩

/-- Woken late, an annotator leaves out the deadlines it has missed. Its append takes a while and
fails; then it is cancelled just as the next deadline is due, and does not fire again. -/
theorem keeps_cadence_cancelled_when_due :
    ∃ fresh c, start? { now := 1000 } 100000000 = some fresh ∧
      fresh.run? nextDeadline [.pass 350000000, .wake, .look, .pass 30000000,
        .append (.error .noSpace), .pass 20000000, .cancel] = some c ∧
      c.firings = [⟨100001000, 350001000⟩] ∧ c.attempts = [350001000] ∧ c.recorded = 0 ∧
      c.annotator.deadline = 400001000 ∧ c.now = 400001000 ∧
      (∃ next, c.step? nextDeadline .wake = some next ∧
        next.annotator.phase = .stopped .cancelled) ∧
      ∀ later last, c.run? nextDeadline later = some last → last.attempts = [350001000] := by
  have hfresh : start? { now := 1000 } 100000000 =
      some { annotator := { period := 100000000, deadline := 100001000 }, now := 1000 } := by
    simp [start?, Annotator.start?, Clock.deadline?, Clock.maxSeconds]
  have hrun : run? nextDeadline
      { annotator := { period := 100000000, deadline := 100001000 }, now := 1000 }
      [.pass 350000000, .wake, .look, .pass 30000000, .append (.error .noSpace), .pass 20000000,
        .cancel] = some {
          annotator := { period := 100000000, deadline := 400001000, cancelled := true }
          now := 400001000
          firings := [⟨100001000, 350001000⟩]
          attempts := [350001000]
          results := [.error .noSpace] } := by
    simp [run?, step?, wake?, resume?, nextDeadline, tolerance, moveTo, Annotator.cancel]
  have cadence := keeps_cadence nextDeadline_steady (by decide) hfresh hrun
  obtain ⟨hstops, hlast⟩ := cadence.cancelled rfl rfl
  exact ⟨_, _, hfresh, hrun, rfl, rfl, rfl, rfl, rfl, hstops,
    fun later last hlater => (hlast later last hlater).2⟩

end Course

end RecordLog.Annotator

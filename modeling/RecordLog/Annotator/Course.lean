import RecordLog.Annotator
import RecordLog.ShutdownFlag

/-! An annotator in the course of time. Its thread may be woken late and take its time, an append
may fail, and meanwhile others set the flag, ask the thread to stop and wait for its end. -/
namespace RecordLog.Annotator

/-- How a timer goes on: the deadline after one that is served, from that deadline, the period and
the time at which it is served. -/
abbrev Timer := Nat → Nat → Nat → Nat

/-- What is relied on of a timer: the next deadline is later, by a whole number of periods. -/
structure Timer.Steady (timer : Timer) : Prop where
  later : ∀ {deadline period now}, 0 < period → deadline ≤ now →
    deadline < timer deadline period now
  whole : ∀ {deadline period now}, deadline ≤ now → period ∣ timer deadline period now - deadline

/-- Wakes the thread of an annotator that has this timer. -/
def wake? (timer : Timer) (a : Annotator) (now : Nat) : Option Annotator :=
  (a.resume? (.woken now)).map fun next =>
    if next.phase = .vetting then { next with deadline := timer a.deadline a.period now } else next

theorem wake?_nextDeadline (a : Annotator) (now : Nat) :
    a.wake? nextDeadline now = a.resume? (.woken now) := by
  cases hphase : a.phase <;> simp only [wake?, resume?, hphase, Option.map_none]
  split
  · rfl
  · split <;> rfl

/-- A deadline that was served, and when. -/
structure Firing where
  deadline : Nat
  time : Nat
  deriving DecidableEq, Repr

structure Course where
  annotator : Annotator
  now : Nat
  flag : ShutdownFlag := {}
  /-- Whether somebody has cancelled the annotator and seen its thread end. -/
  joined : Bool := false
  firings : List Firing := []
  /-- When each attempt to append began. -/
  attempts : List Nat := []
  results : List (Except IoError Unit) := []

/-- What happens next: time goes by, the thread goes on, or somebody else does something. -/
inductive Event
  | pass (time : Nat)
  | wake
  | look
  | append (result : Except IoError Unit)
  | trigger
  | cancel
  | join

/-- The same event, if it is the end of an append one that succeeds. -/
def Event.timing : Event → Event
  | append _ => append (.ok ())
  | e => e

namespace Course

def start? (clock : Clock) (period : Nat) : Option Course :=
  (Annotator.start? clock period).map fun annotator => { annotator, now := clock.now }

/-- What is left after an event, or `none` if it cannot happen now. -/
def step? (timer : Timer) (c : Course) : Event → Option Course
  | .pass time => some { c with now := c.now + time }
  | .wake => (c.annotator.wake? timer c.now).map fun annotator =>
    let fired := if annotator.phase = .vetting then [⟨c.annotator.deadline, c.now⟩] else []
    { c with annotator, firings := c.firings ++ fired }
  | .look => (c.annotator.resume? (.flag c.flag.triggered)).map fun annotator =>
    let begun := if annotator.phase = .appending then [c.now] else []
    { c with annotator, attempts := c.attempts ++ begun }
  | .append result => (c.annotator.resume? (.appended result)).map fun annotator =>
    { c with annotator, results := c.results ++ [result] }
  | .trigger => some { c with flag := c.flag.trigger.2 }
  | .cancel => some { c with annotator := c.annotator.cancel }
  | .join =>
    if c.annotator.cancelled && c.annotator.isStopped then some { c with joined := true } else none

def run? (timer : Timer) (c : Course) (events : List Event) : Option Course :=
  events.foldlM (step? timer) c

/-- The records that have been added to the log. -/
def recorded (c : Course) : Nat := c.results.countP (·.isOk)

end Course

end RecordLog.Annotator

import RecordLog.Clock
import RecordLog.IoError
import RecordLog.Journal

/-! Periodic timestamps, as a machine that is woken and answered. It fires first one period after
its start, never before a deadline, and leaves out deadlines that it is far too late for. A
cancellation is looked at before a deadline, and the shutdown flag after one. -/
namespace RecordLog

namespace Annotator

/-- Why the thread came to its end. -/
inductive Stop
  | cancelled
  | shutdown
  /-- No timer runs with a period of zero. -/
  | panicked
  deriving DecidableEq, Repr

/-- What the thread waits for. -/
inductive Phase
  | waiting
  | vetting
  | appending
  | stopped (why : Stop)
  deriving DecidableEq, Repr

inductive Reply
  | woken (now : Nat)
  | flag (set : Bool)
  | appended (result : Except IoError Unit)

/-- A deadline that is served no later than this after its time is followed by the very next. -/
def tolerance : Nat := 5000000

/-- The deadline after one that is served at `now`: a whole number of periods later, and after
`now` if this one was served too late. -/
def nextDeadline (deadline period now : Nat) : Nat :=
  if deadline + tolerance < now then now + period - (now - deadline) % period
  else deadline + period

theorem lt_nextDeadline {deadline period now : Nat} (h : 0 < period) :
    deadline < nextDeadline deadline period now := by
  unfold nextDeadline
  split
  · have := Nat.mod_lt (now - deadline) h
    omega
  · omega

end Annotator

structure Annotator where
  period : Nat
  deadline : Nat
  cancelled : Bool := false
  phase : Annotator.Phase := .waiting
  deriving DecidableEq, Repr

namespace Annotator

/-- An annotator started now, or `none` if its first deadline cannot be told. -/
def start? (clock : Clock) (period : Nat) : Option Annotator :=
  (clock.deadline? period).map fun deadline =>
    { period, deadline, phase := if period = 0 then .stopped .panicked else .waiting }

def moveTo (a : Annotator) (phase : Phase) : Annotator := { a with phase }

/-- The machine after an answer, or `none` if it still waits or nobody asked. -/
def resume? (a : Annotator) (reply : Reply) : Option Annotator :=
  match a.phase, reply with
  | .waiting, .woken now =>
    if a.cancelled then some (a.moveTo (.stopped .cancelled))
    else if a.deadline ≤ now then
      some { a with deadline := nextDeadline a.deadline a.period now, phase := .vetting }
    else none
  | .vetting, .flag set => some (a.moveTo (if set then .stopped .shutdown else .appending))
  | .appending, .appended _ => some (a.moveTo .waiting)
  | _, _ => none

/-- The machine after an answer; an answer it does not wait for changes nothing. -/
def resume (a : Annotator) (reply : Reply) : Annotator := (a.resume? reply).getD a

@[simp] theorem resume_flag_deadline (a : Annotator) (set : Bool) :
    (a.resume (.flag set)).deadline = a.deadline := by
  cases h : a.phase <;> simp [resume, resume?, h, moveTo]

@[simp] theorem resume_appended_deadline (a : Annotator) (r : Except IoError Unit) :
    (a.resume (.appended r)).deadline = a.deadline := by
  cases h : a.phase <;> simp [resume, resume?, h, moveTo]

/-- Asks the thread to stop. -/
def cancel (a : Annotator) : Annotator := { a with cancelled := true }

def isStopped (a : Annotator) : Bool :=
  match a.phase with
  | .stopped _ => true
  | _ => false

def event (level : Level) (message : String) (fields : List (String × String)) : Event :=
  { level, target := "echolog::annotator", message, fields }

def started (period : Nat) : Event :=
  event .info "Timestamp annotator started" [("interval_secs", (Clock.inSeconds period).render)]

def sawShutdown : Event := event .debug "Shutdown in progress, timestamps stopped" []

/-- What is reported of an attempt to append; the record shows without its delimiter. -/
def attempted (record : String) : Except IoError Unit → Event
  | .ok () =>
    event .debug "Appended timestamp" [("record", record.trimAsciiEnd.toString)]
  | .error e => event .warn "Failed to append timestamp, skipping" [("error", e.message)]

/-- What is reported when the thread of a cancelled annotator has ended. -/
def joined (a : Annotator) : List Event :=
  (if a.phase = .stopped .panicked then [event .warn "Annotator thread panicked" []] else [])
    ++ [event .debug "Timestamp annotator stopped" []]

end Annotator

end RecordLog

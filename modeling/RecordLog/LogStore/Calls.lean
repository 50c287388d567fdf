import RecordLog.LogStore

/-! Calls on one log from several threads, step by step. A call waits for the lock, makes the file
calls it needs and lets go; the system may refuse any of them, and a write may take only a part.
Nobody else touches the file, so it is all that the calls share beside the lock. -/
namespace RecordLog.LogStore

inductive Call
  | append (record : Bytes)
  | readAll
  | remove
  deriving DecidableEq, Repr

inductive Answer
  | done
  | content (bytes : Bytes)
  | failed (error : IoError)
  deriving DecidableEq, Repr

/-- How the system takes a file call. Only a write looks at the number of octets. -/
abbrev Reaction := Except IoError Nat

/-- How far a call has come. From `locked` to `leaving` its thread has the lock. -/
inductive Stage
  | waiting
  | locked
  | writing (left : Bytes)
  | reading
  | leaving (answer : Answer)
  deriving DecidableEq, Repr

namespace Call

/-- What a call answers and leaves when it has the log to itself and nothing fails. -/
def alone : Call → Bytes → Answer × Bytes
  | append record, log => (.done, log ++ record)
  | readAll, log => (.content log, log)
  | remove, _ => (.done, [])

/-- Writes on, or leaves when everything is written. -/
def writeRest : Bytes → Stage
  | [] => .leaving .done
  | left => .writing left

/-- One file call under the lock: the next stage and the file after it. Opening, writing and reading
are tried again when interrupted. -/
def work (c : Call) (stage : Stage) (file : Option Bytes) (r : Reaction) : Stage × Option Bytes :=
  let failing (e : IoError) : Stage × Option Bytes :=
    if e.isInterrupted && c != remove then (stage, file) else (.leaving (.failed e), file)
  match stage, c, r with
  | .locked, append record, .ok _ => (writeRest record, some (file.getD []))
  | .writing _, _, .ok 0 => (.leaving (.failed .shortWrite), file)
  | .writing left, _, .ok n => (writeRest (left.drop n), some (file.getD [] ++ left.take n))
  | .locked, readAll, .ok _ =>
    match file with
    | none => (.leaving (.content []), none)
    | some _ => (.reading, file)
  | .reading, _, .ok _ => (.leaving (.content (file.getD [])), file)
  | .locked, remove, .ok _ => (.leaving .done, none)
  | .locked, readAll, .error e =>
    if e.kind = .notFound then (.leaving (.content []), file) else failing e
  | .locked, remove, .error e =>
    if e.kind = .notFound then (.leaving .done, file) else failing e
  | .locked, append _, .error e | .writing _, _, .error e | .reading, _, .error e => failing e
  | .waiting, _, _ | .leaving _, _, _ => (stage, file)

end Call

/-- A thread with the calls it has still to make, the first of them under way. -/
structure Caller where
  calls : List Call
  stage : Stage := .waiting
  /-- Newest first. -/
  answers : List Answer := []
  deriving DecidableEq, Repr

structure Calls where
  callers : List Caller
  file : Option Bytes := none
  holder : Option Nat := none
  /-- The calls that have taken the lock, each with the number of its thread, newest first. -/
  turns : List (Nat × Call) := []
  deriving DecidableEq, Repr

namespace Calls

/-- The content of the log; a log without a file is empty. -/
def log (s : Calls) : Bytes := s.file.getD []

def update (s : Calls) (i : Nat) (t : Caller) : Calls := { s with callers := s.callers.set i t }

/-- The next step of thread `i`, or `none` while it waits for the lock or has no call to make. -/
def step? (s : Calls) (i : Nat) (r : Reaction) : Option Calls :=
  match s.callers[i]? with
  | some t =>
    match t.calls, t.stage with
    | [], _ => none
    | c :: _, .waiting =>
      if s.holder.isSome then none
      else some { s.update i { t with stage := .locked } with
        holder := some i, turns := (i, c) :: s.turns }
    | _ :: calls, .leaving answer =>
      some { s.update i { calls, answers := answer :: t.answers } with holder := none }
    | c :: _, stage =>
      let (stage, file) := c.work stage s.file r
      some { s.update i { t with stage } with file }
  | none => none

/-- The threads after steps taken in this order. -/
def run? (s : Calls) (steps : List (Nat × Reaction)) : Option Calls :=
  steps.foldlM (fun s (i, r) => s.step? i r) s

/-- The answers of calls that have the log to themselves one after another, and the log then. -/
def inTurn (log : Bytes) : List (Nat × Call) → List (Nat × Answer) × Bytes
  | [] => ([], log)
  | (i, c) :: turns =>
    let (answer, log) := c.alone log
    let (answers, log) := inTurn log turns
    ((i, answer) :: answers, log)

end Calls

end RecordLog.LogStore

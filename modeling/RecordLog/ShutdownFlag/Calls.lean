import RecordLog.ShutdownFlag

/-! Calls on flags from several threads, step by step. A call reaches the flags in one access, which
nothing cuts in two, and its thread learns the answer later. Any thread may use any flag. -/
namespace RecordLog.FlagTable

inductive Call
  | create
  | clone (i : Nat)
  | trigger (i : Nat)
  | read (i : Nat)
  deriving DecidableEq, Repr

/-- The flag that a call uses. -/
@[simp] def Call.flag? : Call → Option Nat
  | create => none
  | clone i | trigger i | read i => some i

inductive Answer
  | made (i : Nat)
  /-- Whether it was this call that set the flag. -/
  | won (first : Bool)
  | seen (set : Bool)
  deriving DecidableEq, Repr

/-- The answer to a call, and the flags after it. `none` if it uses a flag that was not made. -/
def answer? (t : FlagTable) : Call → Option (Answer × FlagTable)
  | .create => let (i, t) := t.create; some (.made i, t)
  | .clone i => (t.clone? i).map fun (j, t) => (.made j, t)
  | .trigger i => (t.trigger? i).map fun (first, t) => (.won first, t)
  | .read i => (t.isTriggered? i).map fun set => (.seen set, t)

/-- How far a thread has come with its call. -/
inductive Stage
  | idle
  | called (c : Call)
  | answered (c : Call) (answer : Answer)
  deriving DecidableEq, Repr

structure Caller where
  stage : Stage := .idle
  /-- Newest first. -/
  answers : List (Call × Answer) := []
  deriving DecidableEq, Repr

structure Access where
  thread : Nat
  call : Call
  answer : Answer
  deriving DecidableEq, Repr

structure Calls where
  callers : List Caller
  table : FlagTable := {}
  /-- Newest first. -/
  history : List Access := []
  deriving DecidableEq, Repr

inductive Move
  | call (thread : Nat) (c : Call)
  /-- The call of the thread goes on: to its access, or to its end. -/
  | proceed (thread : Nat)
  deriving DecidableEq, Repr

namespace Calls

def update (s : Calls) (i : Nat) (t : Caller) : Calls := { s with callers := s.callers.set i t }

def step? (s : Calls) : Move → Option Calls
  | .call i c =>
    match s.callers[i]? with
    | some { stage := .idle, answers } =>
      if ∀ j ∈ c.flag?, j < s.table.handles.length then
        some (s.update i { stage := .called c, answers })
      else none
    | _ => none
  | .proceed i =>
    match s.callers[i]? with
    | some { stage := .called c, answers } =>
      (s.table.answer? c).map fun (answer, table) =>
        { s.update i { stage := .answered c answer, answers } with
          table, history := ⟨i, c, answer⟩ :: s.history }
    | some { stage := .answered c answer, answers } =>
      some (s.update i { answers := (c, answer) :: answers })
    | _ => none

def run? (s : Calls) (moves : List Move) : Option Calls := moves.foldlM step? s

end Calls

end RecordLog.FlagTable

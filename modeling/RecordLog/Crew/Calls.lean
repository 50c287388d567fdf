import RecordLog.Crew
import RecordLog.IoError

/-! Calls on the registry step by step. One thread at a time starts a worker, or takes workers out
and joins them; meanwhile the workers go on, and any of them may end between two steps. -/
namespace RecordLog.Crew

variable {τ : Type}

/-- The workers that a call is to take out and join. -/
inductive Sweep
  | finished
  | all
  deriving DecidableEq, Repr

inductive Call (τ : Type)
  | spawn (attempt : Except IoError (Nat → τ))
  | sweep (which : Sweep)

/-- How far the call under way has come. -/
inductive Stage
  | idle
  /-- The worker runs and has no entry yet. -/
  | starting (worker : Nat)
  /-- Members still to look at, and the keys of those that had their mark set. -/
  | looking (which : Sweep) (left : List Member) (marked : List Nat)
  /-- Keys still to take out, and the members taken out. -/
  | removing (keys : List Nat) (out : List Member)
  | joining (left : List Member) (count : Nat)
  /-- A key without an entry was to be taken out. -/
  | broken
  deriving DecidableEq, Repr

def entries (c : Crew τ) : List Member := members c.registry.toList

/-- What to take out after all members have been looked at. -/
def Sweep.keys (which : Sweep) (c : Crew τ) (marked : List Nat) : List Nat :=
  match which with
  | finished => marked
  | all => c.entries.map (·.id)

/-- Forces the socket of a worker closed. -/
def shut (c : Crew τ) (i : Nat) : Crew τ := c.update i ({ · with shut := true })

structure Calls (τ : Type) where
  crew : Crew τ := {}
  stage : Stage := .idle
  /-- The looks of the newest sweep, each with the mark that it found. -/
  seen : List (Member × Bool) := []
  /-- All members ever taken out, and those of them joined. -/
  taken : List Member := []
  joined : List Member := []
  /-- What the sweeps have returned. -/
  results : List Nat := []

inductive Move (τ : Type)
  | call (c : Call τ)
  /-- The call under way goes on. -/
  | proceed
  | finish (worker : Nat) (ending : Worker.Ending)

namespace Calls

def begin (s : Calls τ) : Call τ → Calls τ
  | .spawn (.error _) => s
  | .spawn (.ok task) =>
    let id := s.crew.registry.nextKey
    { s with
      crew := { s.crew with workers := s.crew.workers ++ [{ id, task := task id }] }
      stage := .starting s.crew.workers.length }
  | .sweep which => { s with stage := .looking which s.crew.entries [], seen := [] }

def look (s : Calls τ) (which : Sweep) (m : Member) (left : List Member) (marked : List Nat) :
    Calls τ :=
  let mark := s.crew.isComplete m.worker
  { s with
    crew := if which = .all && !mark then s.crew.shut m.worker else s.crew
    stage := .looking which left (if mark then marked ++ [m.id] else marked)
    seen := s.seen ++ [(m, mark)] }

def remove (s : Calls τ) (key : Nat) (keys : List Nat) (out : List Member) : Calls τ :=
  match s.crew.registry.get? key with
  | none => { s with stage := .broken }
  | some worker =>
    let m : Member := ⟨key, worker⟩
    { s with
      crew := { s.crew with registry := s.crew.registry.erase key }
      stage := .removing keys (out ++ [m])
      taken := s.taken ++ [m] }

/-- The next step of the call under way, or `none` while it waits for a worker to end. -/
def proceed? (s : Calls τ) : Option (Calls τ) :=
  match s.stage with
  | .starting worker =>
    some { s with
      crew := { s.crew with registry := (s.crew.registry.insert worker).2 }, stage := .idle }
  | .looking which (m :: left) marked => some (s.look which m left marked)
  | .looking which [] marked => some { s with stage := .removing (which.keys s.crew marked) [] }
  | .removing (key :: keys) out => some (s.remove key keys out)
  | .removing [] out => some { s with stage := .joining out out.length }
  | .joining (m :: left) count =>
    if s.crew.isComplete m.worker then
      some { s with stage := .joining left count, joined := s.joined ++ [m] }
    else none
  | .joining [] count => some { s with stage := .idle, results := s.results ++ [count] }
  | .idle | .broken => none

def step? (s : Calls τ) : Move τ → Option (Calls τ)
  | .call c => if s.stage = .idle then some (s.begin c) else none
  | .proceed => s.proceed?
  | .finish i ending =>
    match s.crew.workers[i]? with
    | some { ending := none, .. } => some { s with crew := s.crew.finish i ending }
    | _ => none

def run? (s : Calls τ) (moves : List (Move τ)) : Option (Calls τ) :=
  moves.foldlM step? s

end Calls

end RecordLog.Crew

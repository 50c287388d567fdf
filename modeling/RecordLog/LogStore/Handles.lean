import RecordLog.LogStore.Calls

/-! Stores made on any paths, used one call at a time. A store is a handle: several may stand for
the file at one path, and what the log there holds shows in the answers that all of them got. -/
namespace RecordLog.LogStore

def Answer.ofResult : Except IoError Unit → Answer
  | .ok () => .done
  | .error e => .failed e

/-- A call on the files of the host, with nobody else at them. -/
def Call.on (s : LogStore) (h : Host) : Call → Answer × Host
  | append record =>
    let (result, h) := s.append record h
    (.ofResult result, h)
  | readAll =>
    match s.readAll h with
    | .ok bytes => (.content bytes, h)
    | .error e => (.failed e, h)
  | remove =>
    let (result, h) := s.remove h
    (.ofResult result, h)

inductive Act
  | create (path : Bytes)
  | call (s : LogStore) (c : Call)
  deriving DecidableEq, Repr

def Act.path : Act → Bytes
  | create path => path
  | call s _ => s.path

structure Handles where
  host : Host
  made : List LogStore := []
  /-- Newest first. -/
  history : List (Act × Answer) := []

namespace Handles

def note (s : Handles) (act : Act) (answer : Answer) (h : Host) : Handles :=
  { s with host := h, history := (act, answer) :: s.history }

/-- The next act, or `none` if it uses a store that was not made. -/
def step? (s : Handles) : Act → Option Handles
  | .create path =>
    match LogStore.create path s.host with
    | (.ok store, h) => some { s.note (.create path) .done h with made := store :: s.made }
    | (.error e, h) => some (s.note (.create path) (.failed e) h)
  | .call store c =>
    if store ∈ s.made then
      let (answer, h) := c.on store s.host
      some (s.note (.call store c) answer h)
    else none

def run? (s : Handles) (acts : List Act) : Option Handles := acts.foldlM step? s

/-- The records that the log at a path must hold after these answers, oldest first: what was added
since a store was last made there or the log last removed. `none` if no store was made there. -/
def recordsAt (path : Bytes) : List (Act × Answer) → Option (List Bytes)
  | [] => none
  | (act, answer) :: earlier =>
    let before := recordsAt path earlier
    if act.path = path ∧ answer = .done then
      match act with
      | .create _ => some []
      | .call _ (.append record) => before.map (· ++ [record])
      | .call _ .readAll => before
      | .call _ .remove => before.map fun _ => []
    else before

end Handles

end RecordLog.LogStore

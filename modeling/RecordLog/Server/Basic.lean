import RecordLog.Annotator
import RecordLog.Crew
import RecordLog.LogStore
import RecordLog.Server.Session
import RecordLog.ShutdownFlag

/-! The server as threads that share a store, a registry and a flag. One lock guards the store and
one the registry; a thread takes a lock in one step, and works under it and lets go in the next. -/
namespace RecordLog

namespace Server

inductive Thread
  | acceptor
  | worker (i : Nat)
  | annotator
  | coordinator
  deriving DecidableEq, Repr

/-- What the acceptor does next. -/
inductive Acceptor
  | polling
  | accepting
  /-- An accept has failed. -/
  | refused (cause : IoError)
  | registering (arrival : Arrival)
  | reaping
  | joining (left : List Member) (count : Nat)
  | stopped

/-- What the coordinator does next. -/
inductive Coordinator
  | waiting
  | triggering
  | closingListener
  | joiningAcceptor
  | closingWorkers
  | joiningWorkers (left : List Member) (joined : Nat)
  | cancelling (joined : Nat)
  | joiningAnnotator (joined : Nat)
  | removing (joined : Nat)
  | finished (joined : Nat)
  deriving DecidableEq, Repr

end Server

structure Server where
  host : Host
  store : LogStore
  address : SocketAddress
  annotator : Annotator
  clock : Clock := {}
  flag : ShutdownFlag := {}
  crew : Crew Server.Session := {}
  /-- Whether the listening socket still accepts. -/
  listening : Bool := true
  /-- Results of the next accepts. -/
  arrivals : List (Except IoError Server.Arrival) := []
  acceptor : Server.Acceptor := .polling
  coordinator : Server.Coordinator := .waiting
  storeLock : Option Server.Thread := none
  registryLock : Option Server.Thread := none
  /-- Workers that the acceptor has joined. -/
  reaped : Nat := 0

namespace Server

def event (level : Level) (message : String) (fields : List (String × String)) : Event :=
  { level, target := "echolog::server", message, fields }

def report (s : Server) (es : List Event) : Server := { s with host := es.foldl Host.report s.host }

/-- A step that works under the store's lock: takes the lock if it is free, and works and lets go
if `t` has it. -/
def underStoreLock (s : Server) (t : Thread) (work : Server → Server) : Option Server :=
  match s.storeLock with
  | none => some { s with storeLock := some t }
  | some holder => if holder = t then some { work s with storeLock := none } else none

/-- The same for the registry's lock. -/
def underRegistryLock (s : Server) (t : Thread) (work : Server → Server) : Option Server :=
  match s.registryLock with
  | none => some { s with registryLock := some t }
  | some holder => if holder = t then some { work s with registryLock := none } else none

/-- Reports the joining of a member that has ended. -/
def reportJoined (s : Server) (m : Member) : Server :=
  s.report (s.crew.joined (·.peer.render) m)

/-- The number of workers that a finished shutdown has joined. -/
def outcome? (s : Server) : Option Nat :=
  match s.coordinator with
  | .finished joined => some joined
  | _ => none

end Server

end RecordLog

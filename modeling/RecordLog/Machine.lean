import RecordLog.Clock
import RecordLog.Host
import RecordLog.LogFilter
import RecordLog.Network
import RecordLog.Settings
import RecordLog.Server.Basic
import RecordLog.Server.Listener

/-! The machine on which a server is started: its files, network and clock, the process that
starts, and the calls that the system refuses. An attempt works on a machine and leaves it changed
even where it fails. -/
namespace RecordLog

/-- Calls of a start that the system may refuse for reasons of its own. -/
inductive SystemCall
  | blockSignals
  | workingDirectory
  | fork
  | newSession
  | changeDirectory
  | openNull
  | redirect
  | localAddress
  | cloneListener
  | timer
  | annotatorThread
  | acceptorThread
  deriving DecidableEq, Repr

/-- The process at work. -/
structure Process where
  sessionLeader : Bool := false
  /-- Where its three standard streams lead, once they have been redirected. -/
  streams : Option Bytes := none
  /-- The threads that it has started for a server, newest first. -/
  threads : List Server.Thread := []
  deriving DecidableEq, Repr

structure Machine where
  host : Host
  network : Network := {}
  clock : Clock := {}
  /-- The filter of events that the environment asks for. -/
  environment : Option String := none
  /-- The number that the next process gets. -/
  nextProcess : Nat := 2
  refuses : SystemCall → Option IoError := fun _ => none
  process : Process := {}
  /-- Whether the process at work is the child of the one that was started. -/
  forked : Bool := false
  filter : LogFilter := ⟨[]⟩
  /-- Events go to this file, or else to the standard output. -/
  diagnostics : Option Bytes := none
  /-- Events after these many are lost, because the standard output leads nowhere. -/
  lostAfter : Option Nat := none

/-- Why a process ends before it serves. -/
inductive Failure
  | settings (e : SettingsError)
  | system (e : IoError)
  | server (e : ServerError)
  | panic

/-- Help and version end well, a panic has a code of its own. -/
def Failure.exitCode : Failure → Nat
  | settings (.usage r) => r.exitCode
  | settings _ | system _ | server _ => 1
  | panic => 101

abbrev Attempt := ExceptT Failure (StateM Machine)

namespace Attempt

/-- A result that may be a failure. -/
def check {ε α : Type} (wrap : ε → Failure) : Except ε α → Attempt α
  | .ok a => pure a
  | .error e => throw (wrap e)

/-- Fails if the system refuses the call. -/
def permit (call : SystemCall) (wrap : IoError → Failure) : Attempt Unit := do
  match (← get).refuses call with
  | none => pure ()
  | some e => throw (wrap e)

def report (e : Event) : Attempt Unit := modify fun m => { m with host := m.host.report e }

/-- A thread of the process starts. -/
def begin (t : Server.Thread) : Attempt Unit :=
  modify fun m => { m with process.threads := t :: m.process.threads }

end Attempt

/-- The events that can be seen, of all that were reported. -/
def Machine.visible (m : Machine) (events : List Event) : List Event :=
  ((m.lostAfter.elim events events.take)).filter m.filter.passes

end RecordLog

import RecordLog.Machine
import RecordLog.Server.Step
import RecordLog.Signals

/-! Starting the server program. The address is taken before the process turns into a daemon and
before an old log is discarded, so that most failures show to whoever started the program and leave
the log alone. -/
namespace RecordLog.Launch

def event (level : Level) (message : String) (fields : List (String × String)) : Event :=
  { level, target := "echolog", message, fields }

/-- Settings from the program arguments. -/
def loadSettings (args : List Bytes) : Attempt Settings := do
  Attempt.check .settings (Settings.load args (← get).host.files)

/-- From here on events are written, to the file that the settings name, if they name one. -/
def openDiagnostics (s : Settings) : Attempt Unit := do
  let filter ← Attempt.check (fun _ => .panic)
    (LogFilter.choose (← get).environment s.logLevel)
  modify fun m => { m with filter }
  match s.logFile with
  | none => pure ()
  | some path =>
    let m ← get
    let (_, files) ← Attempt.check .system (m.host.files.openAppend path)
    set { m with host := { m.host with files }, diagnostics := some path }

/-- A path that does not depend on the working directory. -/
def absolute (path : Bytes) : Attempt Bytes := do
  if path.isEmpty then throw (.system .emptyPath)
  if path.head? ≠ some Bytes.slash then Attempt.permit .workingDirectory .system
  pure (Location.absolute (← get).host.files.workingDirectory path)

def starting (s : Settings) (dataFile : Bytes) : Event :=
  event .info "Starting echolog server"
    [("listen", s.listen), ("data_file", Utf8.lossy dataFile),
     ("interval_secs", toString s.interval), ("daemon", toString s.daemon)]

def openListener (s : Settings) : Attempt SocketAddress := do
  let m ← get
  let (address, network) ← Attempt.check .server (m.network.openListener s.listen s.backlog)
  set { m with network }
  pure address

def nullDevice : Bytes := Bytes.ofString "/dev/null"

/-- The process forks and its parent ends well. The child leads a session of its own, works at the
root, and has its standard streams lead nowhere. -/
def daemonize : Attempt Unit := do
  Attempt.permit .fork .system
  let m ← get
  Attempt.report { level := .info, target := "echolog::daemon",
                   message := "Forked daemon, parent exiting",
                   fields := [("pid", toString m.nextProcess)] }
  modify fun m => { m with forked := true, nextProcess := m.nextProcess + 1 }
  Attempt.permit .newSession .system
  modify fun m => { m with process.sessionLeader := true }
  Attempt.permit .changeDirectory .system
  modify fun m => { m with host.files.workingDirectory := [] }
  Attempt.permit .openNull .system
  Attempt.permit .redirect .system
  modify fun m =>
    { m with
      process.streams := some nullDevice
      lostAfter := if m.diagnostics.isSome then none else some m.host.journal.length }

def createStore (path : Bytes) : Attempt LogStore := do
  let m ← get
  let (store, host) := LogStore.create path m.host
  set { m with host }
  Attempt.check (fun e => .server (.store e)) store

/-- A server on a listener and a store. Its annotator starts first, and is cancelled again if there
can be no acceptor. -/
def startServer (address : SocketAddress) (store : LogStore) (period : Nat) : Attempt Server := do
  Attempt.permit .localAddress (.server ∘ .socket)
  Attempt.permit .cloneListener (.server ∘ .socket)
  Attempt.permit .timer (.server ∘ .timer)
  match Annotator.start? (← get).clock period with
  | none => throw .panic
  | some annotator =>
    Attempt.permit .annotatorThread (.server ∘ .timer)
    Attempt.begin .annotator
    Attempt.report (Annotator.started period)
    match (← get).refuses .acceptorThread with
    | some e =>
      (annotator.cancel.resume (.woken (← get).clock.now)).joined.forM Attempt.report
      throw (.server (.spawn e))
    | none =>
      Attempt.begin .acceptor
      Attempt.report (Server.event .info "Server listening" [("address", address.render)])
      let m ← get
      pure { host := m.host, store, address, annotator, clock := m.clock }

/-- The address the server will listen on and the path of its log. -/
def settle (s : Settings) : Attempt (SocketAddress × Bytes) := do
  Attempt.permit .blockSignals .system
  let dataFile ← absolute s.dataFile
  Attempt.report (starting s dataFile)
  let address ← openListener s
  if s.daemon then daemonize
  pure (address, dataFile)

/-- Everything that a server needs before it can start. -/
def prepare (args : List Bytes) : Attempt (Settings × SocketAddress × LogStore) := do
  let settings ← loadSettings args
  openDiagnostics settings
  let (address, dataFile) ← settle settings
  let store ← createStore dataFile
  pure (settings, address, store)

/-- The whole start. -/
def start (args : List Bytes) : Attempt Server := do
  let (settings, address, store) ← prepare args
  startServer address store (Clock.ofSeconds settings.interval)

/-- Where a start has led. -/
structure Outcome where
  result : Except Failure Server
  machine : Machine

def run (args : List Bytes) (m : Machine) : Outcome :=
  let (result, machine) := (start args).run m
  ⟨result, machine⟩

namespace Outcome

/-- Exit code of the process at work, or `none` while it serves. -/
def exitCode? (o : Outcome) : Option Nat :=
  match o.result with
  | .ok _ => none
  | .error f => some f.exitCode

/-- Exit code of the process that was started, which is not the one at work after a fork. -/
def startedExitCode? (o : Outcome) : Option Nat := if o.machine.forked then some 0 else o.exitCode?

end Outcome

def caught (signal : Signal) (address : SocketAddress) : Event :=
  event .info "Caught signal, exiting" [("signal", signal.name), ("address", address.render)]

def serverStopped (workers : Nat) : Event :=
  event .info "Server stopped" [("workers", toString workers)]

/-- A termination signal comes, and the shutdown begins. -/
def catchSignal (signal : Signal) (s : Server) : Option Server :=
  (s.step? .shutdown).map (·.report [caught signal s.address])

/-- The shutdown has ended, and the process with it. -/
def stopped (s : Server) : Option Server :=
  s.outcome?.map fun joined => s.report [serverStopped joined]

/-- What a process that asked for its version prints. -/
def versionLine : String := "echolog 0.1.0"

end RecordLog.Launch

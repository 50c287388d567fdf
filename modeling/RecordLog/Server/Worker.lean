import RecordLog.Server.Basic

/-! The steps of a worker: it greets, serves its connection and says what it has done. -/
namespace RecordLog.Server

def updateSession (s : Server) (i : Nat) (f : Session → Session) : Server :=
  { s with crew := s.crew.update i fun w => { w with task := f w.task } }

/-- Takes the connection of worker `i` on by an answer. -/
def resumeWorker (i : Nat) (x : Session) (reply : Connection.Reply) (s : Server) : Server :=
  let c := (x.connection.resume? reply).getD x.connection
  (s.updateSession i fun _ => { x with connection := c }).report (x.connection.events c)

def greeting (x : Session) : Event :=
  event .info "Accepted connection"
    [("conn_id", toString x.connection.id), ("peer", x.peer.renderIp)]

/-- What is reported of a connection that failed. -/
def abortion (x : Session) : List Event :=
  match x.connection.ending? with
  | some (.failed e) =>
    [event .error "Connection aborted"
      [("conn_id", toString x.connection.id), ("peer", x.peer.renderIp), ("error", e.message)]]
  | _ => []

def farewell (x : Session) : Event :=
  event .info "Closed connection"
    [("conn_id", toString x.connection.id), ("peer", x.peer.renderIp),
     ("records", toString x.connection.records), ("discarded", toString x.connection.pending)]

/-- The next step of a served connection. -/
def stepServing (s : Server) (i : Nat) (w : Worker Session) : Option Server :=
  let x := w.task
  match x.connection.phase.request? with
  | none => some ((s.updateSession i ({ · with stage := .finishing })).report (abortion x))
  | some .readFlag => some (s.resumeWorker i x (.flag s.flag.triggered))
  | some (.receive limit) =>
    (x.receive? w.shut limit).map fun (r, x) => s.resumeWorker i x (.received r)
  | some (.append record) =>
    s.underStoreLock (.worker i) fun s =>
      let (r, host) := s.store.append record s.host
      { s with host }.resumeWorker i x (.appended r)
  | some .readBack =>
    s.underStoreLock (.worker i) fun s => s.resumeWorker i x (.content (s.store.readAll s.host))
  | some (.send bytes) =>
    (x.send? w.shut bytes).map fun (r, x) => s.resumeWorker i x (.accepted r)

/-- The next step of worker `i`, or `none` while it waits or when it has ended. -/
def stepWorker (s : Server) (i : Nat) : Option Server :=
  match s.crew.workers[i]? with
  | none => none
  | some w =>
    if w.isComplete then none
    else match w.task.stage with
      | .starting =>
        some ((s.updateSession i ({ · with stage := .serving })).report [greeting w.task])
      | .serving => s.stepServing i w
      | .finishing =>
        some ({ s with crew := s.crew.finish i .returned }.report [farewell w.task])

/-- Worker `i` panics: its thread ends and lets go of what it holds. -/
def panicWorker (s : Server) (i : Nat) : Server :=
  { s with
    crew := s.crew.finish i .panicked
    storeLock := if s.storeLock = some (.worker i) then none else s.storeLock }

end RecordLog.Server

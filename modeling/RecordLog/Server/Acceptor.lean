import RecordLog.Server.Basic

/-! The steps of the acceptor: it looks at the flag, accepts a client, starts a worker for it and
joins the workers that have ended. -/
namespace RecordLog.Server

/-- What an accept on a listening socket that has been shut down answers. -/
def acceptRefused : IoError := .invalidArgument

def stopAcceptor (s : Server) : Server :=
  { s with acceptor := .stopped }.report [event .debug "Acceptor stopped" []]

/-- Registers a worker for a client, unless none can be started. -/
def register (a : Arrival) (s : Server) : Server :=
  let attempt := match a.obstacle with
    | none => .ok (Session.ofArrival a)
    | some e => .error e
  let (id, crew) := s.crew.spawnIf attempt
  let peer := ("peer", a.peer.render)
  { s with crew, acceptor := .reaping }.report [match id with
    | .ok id => event .debug "Registered worker" [("conn_id", toString id), peer]
    | .error e => event .error "Failed to start worker" [peer, ("error", e.message)]]

def reap (s : Server) : Server :=
  let (members, crew) := s.crew.takeComplete
  { s with crew, acceptor := .joining members members.length }

def stepAcceptor (s : Server) : Option Server :=
  match s.acceptor with
  | .polling =>
    some (if s.flag.triggered then s.stopAcceptor else { s with acceptor := .accepting })
  | .accepting =>
    if !s.listening then some { s with acceptor := .refused acceptRefused }
    else match s.arrivals with
      | .ok a :: rest => some { s with arrivals := rest, acceptor := .registering a }
      | .error e :: rest => some { s with arrivals := rest, acceptor := .refused e }
      | [] => none
  | .refused e =>
    some (if s.flag.triggered then s.stopAcceptor
      else { s with acceptor := .polling }.report
        [event .error "Failed to accept connection" [("error", e.message)]])
  | .registering a => s.underRegistryLock .acceptor (register a)
  | .reaping => s.underRegistryLock .acceptor reap
  | .joining (m :: left) count =>
    if s.crew.isComplete m.worker then
      some ({ s with acceptor := .joining left count, reaped := s.reaped + 1 }.reportJoined m)
    else none
  | .joining [] count =>
    let note := [event .debug "Reclaimed finished workers" [("reaped", toString count)]]
    some ({ s with acceptor := .polling }.report (if count = 0 then [] else note))
  | .stopped => none

end RecordLog.Server

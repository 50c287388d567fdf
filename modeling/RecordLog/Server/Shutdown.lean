import RecordLog.Server.Basic

/-! The steps of the annotator's thread and of the coordinator, which takes the server down: it
sets the flag, ends the acceptor, closes and joins all workers, cancels the annotator, and removes
the log last, when nobody is left to write it again. -/
namespace RecordLog.Server

def stepAnnotator (s : Server) : Option Server :=
  let go (a : Annotator) : Server := { s with annotator := a }
  match s.annotator.phase with
  | .waiting => (s.annotator.resume? (.woken s.clock.now)).map go
  | .vetting =>
    let note := if s.flag.triggered then [Annotator.sawShutdown] else []
    some ((go (s.annotator.resume (.flag s.flag.triggered))).report note)
  | .appending =>
    s.underStoreLock .annotator fun s =>
      let record := s.clock.record
      let (result, host) := s.store.append (Bytes.ofString record) s.host
      { s with host, annotator := s.annotator.resume (.appended result) }.report
        [Annotator.attempted record result]
  | .stopped _ => none

def removalFailed (path : Bytes) (e : IoError) : Event :=
  event .error "Failed to remove log file" [("path", Utf8.lossy path), ("error", e.message)]

def shutdownComplete : Event := event .info "Shutdown complete" []

def removeLog (joined : Nat) (s : Server) : Server :=
  let (result, host) := s.store.remove s.host
  let note := match result with
    | .ok () => []
    | .error e => [removalFailed s.store.path e]
  { s with host, coordinator := .finished joined }.report (note ++ [shutdownComplete])

def stepCoordinator (s : Server) : Option Server :=
  match s.coordinator with
  | .waiting | .finished _ => none
  | .triggering =>
    let (won, flag) := s.flag.trigger
    some ({ s with flag, coordinator := .closingListener }.report
      (if won then [] else [event .debug "Shutdown already in progress" []]))
  | .closingListener =>
    some { s with listening := false, arrivals := [], coordinator := .joiningAcceptor }
  | .joiningAcceptor =>
    match s.acceptor with
    | .stopped => some { s with coordinator := .closingWorkers }
    | _ => none
  | .closingWorkers =>
    s.underRegistryLock .coordinator fun s =>
      let (members, crew) := s.crew.takeAll
      { s with crew, coordinator := .joiningWorkers members members.length }
  | .joiningWorkers (m :: left) joined =>
    if s.crew.isComplete m.worker then
      some ({ s with coordinator := .joiningWorkers left joined }.reportJoined m)
    else none
  | .joiningWorkers [] joined =>
    some ({ s with coordinator := .cancelling joined }.report
      [event .debug "Joined connection workers" [("joined", toString joined)]])
  | .cancelling joined =>
    some { s with annotator := s.annotator.cancel, coordinator := .joiningAnnotator joined }
  | .joiningAnnotator joined =>
    if s.annotator.isStopped then
      some ({ s with coordinator := .removing joined }.report s.annotator.joined)
    else none
  | .removing joined => s.underStoreLock .coordinator (removeLog joined)

end RecordLog.Server

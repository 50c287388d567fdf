import RecordLog.Server.Acceptor
import RecordLog.Server.Shutdown
import RecordLog.Server.Worker

/-! All that can happen to a server: steps of its own threads, and what comes from outside. -/
namespace RecordLog.Server

inductive Move
  /-- A thread of the server takes its next step. -/
  | thread (t : Thread)
  /-- A client connects, or an accept will fail. -/
  | arrive (result : Except IoError Arrival)
  /-- A receive of worker `i` will find this. -/
  | deliver (i : Nat) (result : Except IoError Bytes)
  /-- A send of worker `i` will be answered this. -/
  | grant (i : Nat) (result : Except IoError Nat)
  | panic (i : Nat)
  /-- Time passes. -/
  | tick (now : Nat)
  /-- Somebody asks for the shutdown. -/
  | shutdown
  /-- Somebody else changes the files. -/
  | change (c : FileSystem → Except IoError FileSystem)

def stepThread (s : Server) : Thread → Option Server
  | .acceptor => s.stepAcceptor
  | .worker i => s.stepWorker i
  | .annotator => s.stepAnnotator
  | .coordinator => s.stepCoordinator

/-- The server after a move, or `none` if the move is not possible now. -/
def step? (s : Server) : Move → Option Server
  | .thread t => s.stepThread t
  | .arrive r => if s.listening then some { s with arrivals := s.arrivals ++ [r] } else none
  | .deliver i r => some (s.updateSession i fun x => { x with inbound := x.inbound ++ [r] })
  | .grant i r => some (s.updateSession i fun x => { x with answers := x.answers ++ [r] })
  | .panic i =>
    match s.crew.workers[i]? with
    | some w => if w.isComplete then none else some (s.panicWorker i)
    | none => none
  | .tick now => some { s with clock := s.clock.advance now }
  | .shutdown =>
    if s.coordinator = .waiting then some { s with coordinator := .triggering } else none
  | .change c => some { s with host := (s.host.change c).2 }

/-- The threads there are. -/
def threads (s : Server) : List Thread :=
  .acceptor :: .annotator :: .coordinator
    :: (List.range s.crew.workers.length).map Thread.worker

/-- Some thread's step, or `none` if all of them wait. -/
def anyStep? (s : Server) : Option Server := s.threads.findSome? s.stepThread

end RecordLog.Server

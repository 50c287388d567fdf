import RecordLog.Connection.Basic
import RecordLog.Network

/-! A client's connection as its worker sees it: what its receives will find and what its sends
will be answered. An empty list means that the call waits, unless the socket has been forced
closed. -/
namespace RecordLog.Server

/-- How far the worker of a connection has come. -/
inductive Stage
  | starting
  | serving
  | finishing
  deriving DecidableEq, Repr

/-- A client that waits to be accepted. -/
structure Arrival where
  peer : SocketAddress
  /-- Results of its first receives; no octets at all mean that it has closed. -/
  inbound : List (Except IoError Bytes) := []
  /-- Results of its first sends. -/
  answers : List (Except IoError Nat) := []
  /-- Why no worker can be started for it. -/
  obstacle : Option IoError := none

structure Session where
  peer : SocketAddress
  connection : Connection
  stage : Stage := .starting
  inbound : List (Except IoError Bytes) := []
  answers : List (Except IoError Nat) := []
  /-- Octets that the client has taken. -/
  sent : Bytes := []

namespace Session

def ofArrival (a : Arrival) (id : Nat) : Session where
  peer := a.peer
  connection := { id }
  inbound := a.inbound
  answers := a.answers

/-- A receive. A socket forced closed still yields what has arrived, then its end. -/
def receive? (x : Session) (shut : Bool) (limit : Nat) : Option (Except IoError Bytes × Session) :=
  match x.inbound with
  | .ok bytes :: rest =>
    let later := if bytes.length ≤ limit then rest else .ok (bytes.drop limit) :: rest
    some (.ok (bytes.take limit), { x with inbound := later })
  | .error e :: rest => some (.error e, { x with inbound := rest })
  | [] => if shut then some (.ok [], x) else none

/-- A send. A socket forced closed takes nothing any more. -/
def send? (x : Session) (shut : Bool) (bytes : Bytes) : Option (Except IoError Nat × Session) :=
  if shut then some (.error .brokenPipe, x)
  else
    match x.answers with
    | .ok n :: rest =>
      let n := min n bytes.length
      some (.ok n, { x with answers := rest, sent := x.sent ++ bytes.take n })
    | .error e :: rest => some (.error e, { x with answers := rest })
    | [] => none

end Session

end RecordLog.Server

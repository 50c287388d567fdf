import RecordLog.IoError
import RecordLog.Network.AddressText

/-! The network of the host as one program sees it: which addresses have a listener, and what the
system says to the calls that ready a new one. -/
namespace RecordLog

/-- The calls that ready a listening socket, in their order. -/
inductive SocketCall
  | create (address : SocketAddress)
  | allowReuse
  | bind (address : SocketAddress)
  | listen (backlog : Int)
  deriving DecidableEq, Repr

structure Network where
  /-- Addresses that have a listener. -/
  held : List SocketAddress := []
  /-- Whether packets get from a client to a listener. -/
  reachable : Bool := true
  /-- Ports from one up to here are kept for privileged programs. -/
  firstOpenPort : Nat := 1024
  /-- Calls that fail for reasons of the system. -/
  refuses : SocketCall → Option IoError := fun _ => none

namespace SocketAddress

/-- The address of four octets at which a listener takes clients. A listener of eight groups takes
them at the address embedded in its own, and at all of them where it is on all addresses. -/
def v4? : SocketAddress → Option IPv4
  | v4 ip _ => some ip
  | v6 ip _ _ => if ip = .any then some .any else ip.mapped?

/-- The address of eight groups at which a listener takes clients. -/
def v6? : SocketAddress → Option IPv6
  | v4 .. => none
  | v6 ip _ _ => some ip

/-- Whether two addresses of one sort have a client in common, one of them standing for all. -/
def meet {α : Type} [DecidableEq α] (all : α) : Option α → Option α → Bool
  | some a, some b => a = b || a = all || b = all
  | _, _ => false

/-- Two listeners cannot have one port where a client could mean either, whatever the sorts of
their addresses. Scopes do not keep listeners apart here. -/
def conflicts (a b : SocketAddress) : Bool :=
  a.port = b.port && (meet .any a.v4? b.v4? || meet .any a.v6? b.v6?)

end SocketAddress

namespace Network

/-- A port that no listener holds, for a listener that asks for none. -/
def freePort? (n : Network) (a : SocketAddress) : Option UInt16 :=
  let ports := (List.range 28232).map fun i => (32768 + i).toUInt16
  ports.find? fun p => !n.held.any (a.withPort p).conflicts

/-- The address that binding to `a` gives. Port zero asks for any free port. -/
def bind (n : Network) (a : SocketAddress) : Except IoError SocketAddress :=
  if a.port = 0 then
    match n.freePort? a with
    | some p => .ok (a.withPort p)
    | none => .error .addressInUse
  else if a.port.toNat < n.firstOpenPort then .error .permissionDenied
  else if n.held.any a.conflicts then .error .addressInUse
  else .ok a

/-- A client's attempt to reach a listener. -/
def connect (n : Network) (a : SocketAddress) : Except IoError Unit :=
  if !n.reachable then .error .networkUnreachable
  else if a ∈ n.held then .ok ()
  else .error .connectionRefused

/-- The listener on `a` goes. -/
def release (n : Network) (a : SocketAddress) : Network :=
  { n with held := n.held.filter (· ≠ a) }

end Network

end RecordLog

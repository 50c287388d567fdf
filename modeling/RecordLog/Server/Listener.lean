import RecordLog.Network

/-! Why a server does not run, and the listening socket it starts from. -/
namespace RecordLog

inductive ServerError
  | address (text : String)
  | socket (cause : IoError)
  | socketOption (cause : IoError)
  | bind (address : SocketAddress) (cause : IoError)
  | listen (cause : IoError)
  | store (cause : IoError)
  | timer (cause : IoError)
  | spawn (cause : IoError)
  deriving DecidableEq, Repr

namespace ServerError

/-- An address that does not parse has no cause below it. -/
def cause? : ServerError → Option IoError
  | address _ => none
  | socket e | socketOption e | bind _ e | listen e | store e | timer e | spawn e => some e

def message : ServerError → String
  | address text => s!"Invalid listen address '{text}': invalid socket address syntax"
  | socket e => s!"Failed to create socket: {e.message}"
  | socketOption e => s!"Failed to set socket options: {e.message}"
  | bind a e => s!"Failed to bind to {a.render}: {e.message}"
  | listen e => s!"Failed to listen: {e.message}"
  | store e => s!"Failed to initialize log store: {e.message}"
  | timer e => s!"Failed to start timer: {e.message}"
  | spawn e => s!"Failed to start acceptor: {e.message}"

end ServerError

namespace Network

/-- What the system says to a call, `none` being success. -/
def permit (n : Network) (call : SocketCall) (wrap : IoError → ServerError) :
    Except ServerError Unit :=
  match n.refuses call with
  | none => .ok ()
  | some e => .error (wrap e)

/-- A listener on the address that a text spells, with its actual address. -/
def openListener (n : Network) (listen : String) (backlog : Int) :
    Except ServerError (SocketAddress × Network) := do
  match SocketAddress.parse? listen with
  | none => .error (.address listen)
  | some asked =>
    n.permit (.create asked) .socket
    n.permit .allowReuse .socketOption
    n.permit (.bind asked) (.bind asked)
    let actual ← (n.bind asked).mapError (.bind asked)
    n.permit (.listen backlog) .listen
    .ok (actual, { n with held := actual :: n.held })

end Network

end RecordLog

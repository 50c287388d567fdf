import RecordLog.Server.Step

/-! Clients of a running server. A client takes all that it is sent at once, and after whatever a
client does the threads of the server run until all of them wait. -/
namespace RecordLog

namespace Server

/-- A worker whose send waits for its client, with the number of octets that it offers. -/
def stalled? (s : Server) : Option (Nat × Nat) :=
  s.crew.workers.zipIdx.findSome? fun (w, i) =>
    match w.isComplete, w.task.stage, w.task.connection.phase.request? with
    | false, .serving, some (.send bytes) => some (i, bytes.length)
    | _, _, _ => none

/-- A step of any thread, or else more room for a send. -/
def advance? (s : Server) : Option Server :=
  s.anyStep? <|> (s.stalled?.bind fun (i, n) => s.step? (.grant i (.ok n)))

/-- Lets all threads run until they wait, for at most so many steps. -/
def settle : Nat → Server → Server
  | 0, s => s
  | n + 1, s =>
    match s.advance? with
    | none => s
    | some s => s.settle n

end Server

structure Client where
  name : String
  worker : Nat
  /-- Octets that the client has read. -/
  received : Nat := 0
  isOpen : Bool := true
  deriving DecidableEq, Repr

inductive ClientError
  | unreachable (cause : IoError)
  | unknown
  deriving DecidableEq, Repr

def ClientError.message : ClientError → String
  | unreachable e => e.message
  | unknown => "client"

structure Scene where
  server : Server
  network : Network
  clients : List Client := []

namespace Scene

/-- More steps than a scene ever takes. -/
def stepLimit : Nat := 1000000000

def settle (c : Scene) : Scene := { c with server := c.server.settle stepLimit }

def move (c : Scene) (m : Server.Move) : Scene :=
  { c with server := (c.server.step? m).getD c.server }.settle

/-- The open client of a name, the newest if there are several. -/
def client (c : Scene) (name : String) : Except ClientError Client :=
  match c.clients.find? fun k => k.name = name && k.isOpen with
  | some k => .ok k
  | none => .error .unknown

def update (c : Scene) (k : Client) : Scene :=
  { c with clients := c.clients.map fun old => if old.worker = k.worker then k else old }

/-- A client connects and its worker starts. -/
def connect (c : Scene) (name : String) : Except ClientError (Client × Scene) := do
  (c.network.connect c.server.address).mapError .unreachable
  let k : Client := { name, worker := c.server.crew.workers.length }
  let peer := c.server.address.withPort (40000 + k.worker).toUInt16
  .ok (k, { c.move (.arrive (.ok { peer })) with clients := k :: c.clients })

def send (c : Scene) (k : Client) (bytes : Bytes) : Scene :=
  if bytes.isEmpty then c else c.move (.deliver k.worker (.ok bytes))

/-- The client sends no more. -/
def finish (c : Scene) (k : Client) : Scene := c.move (.deliver k.worker (.ok []))

/-- The client breaks the connection off. -/
def reset (c : Scene) (k : Client) : Scene :=
  c.move (.deliver k.worker (.error .connectionReset))

/-- What a client has been sent and has not read. -/
def unread (c : Scene) (k : Client) : Bytes :=
  (c.server.crew.workers[k.worker]?.elim [] (·.task.sent)).drop k.received

/-- The client reads some octets. -/
def read (c : Scene) (k : Client) (n : Nat) : Bytes × Scene :=
  let data := (c.unread k).take n
  (data, c.update { k with received := k.received + data.length })

/-- Whether the worker of a client has ended. -/
def isServed (c : Scene) (k : Client) : Bool := c.server.crew.isComplete k.worker

def close (c : Scene) (k : Client) : Scene := c.update { k with isOpen := false }

/-- One client that sends some octets several times, finishes, and reads to the end. -/
def visit (c : Scene) (bytes : Bytes) (times : Nat) : Except ClientError (Bytes × Scene) := do
  let (k, c) ← c.connect ""
  let c := ((List.replicate times bytes).foldl (fun c bs => c.send k bs) c).finish k
  .ok (c.unread k, c.close k)

/-- Nobody listens at the server's address any more. -/
def release (c : Scene) : Scene := { c with network := c.network.release c.server.address }

/-- The server is shut down. -/
def shutdown (c : Scene) : Scene := (c.move .shutdown).release

/-- Whether a new client is turned away. -/
def refuses (c : Scene) : Bool := !(c.network.connect c.server.address).isOk

/-- Time passes from one deadline of the annotator to the next, up to a time, unless there is
enough before. -/
def runUntil (limit : Nat) (enough : Scene → Bool) (c : Scene) : Scene :=
  go stepLimit c
where
  go : Nat → Scene → Scene
    | 0, c => c
    | n + 1, c =>
      let a := c.server.annotator
      if enough c || limit < a.deadline || a.isStopped then c
      else go n (c.move (.tick a.deadline))

end Scene

end RecordLog

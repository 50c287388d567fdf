import RecordLog.Journal
import RecordLog.SlotTable

/-! Worker threads and the registry of those not yet joined. Every worker has a task, an id that is
its key in the registry, and an ending; the registry holds the numbers of workers, counted in the
order of their start. A worker's last action, whether it returns or panics, is its mark. -/
namespace RecordLog

namespace Worker

inductive Ending
  | returned
  | panicked
  deriving DecidableEq, Repr

end Worker

structure Worker (τ : Type) where
  id : Nat
  task : τ
  ending : Option Worker.Ending := none
  /-- Its socket was forced closed from outside. -/
  shut : Bool := false
  deriving DecidableEq, Repr

def Worker.isComplete {τ : Type} (w : Worker τ) : Bool := w.ending.isSome

/-- A registered worker: its id and its number. -/
structure Member where
  id : Nat
  worker : Nat
  deriving DecidableEq, Repr

structure Crew (τ : Type) where
  workers : List (Worker τ) := []
  registry : SlotTable Nat := .empty
  deriving Repr

namespace Crew

variable {τ : Type}

/-- Starts a worker and tells its id. -/
def spawn (c : Crew τ) (task : Nat → τ) : Nat × Crew τ :=
  let (id, registry) := c.registry.insert c.workers.length
  (id, { workers := c.workers ++ [{ id, task := task id }], registry })

/-- A start that fails leaves the registry as it was. -/
def spawnIf {ε : Type} (c : Crew τ) (attempt : Except ε (Nat → τ)) : Except ε Nat × Crew τ :=
  match attempt with
  | .error e => (.error e, c)
  | .ok task => let (id, c) := c.spawn task; (.ok id, c)

def update (c : Crew τ) (i : Nat) (f : Worker τ → Worker τ) : Crew τ :=
  { c with workers := c.workers.modify i f }

/-- Worker `i` marks itself complete; its first ending is its last. -/
def finish (c : Crew τ) (i : Nat) (ending : Worker.Ending) : Crew τ :=
  c.update i fun w => { w with ending := w.ending <|> some ending }

def isComplete (c : Crew τ) (i : Nat) : Bool := (c.workers[i]?).any (·.isComplete)

def members (taken : List (Nat × Nat)) : List Member := taken.map fun (id, worker) => ⟨id, worker⟩

/-- Takes out the members whose mark is set. They are joined next. -/
def takeComplete (c : Crew τ) : List Member × Crew τ :=
  let (taken, registry) := c.registry.extract c.isComplete
  (members taken, { c with registry })

/-- Forces the socket of every member not marked complete closed, and takes all members out. They
are joined next. -/
def takeAll (c : Crew τ) : List Member × Crew τ :=
  let (taken, registry) := c.registry.extract fun _ => true
  let live := (taken.map (·.2)).filter (!c.isComplete ·)
  (members taken, { live.foldl (fun c i => c.update i ({ · with shut := true })) c with registry })

/-- What is reported when a worker that has panicked is joined. -/
def panicked (id : Nat) (peer : String) : Event where
  level := .warn
  target := "echolog::runtime::registry"
  message := "Worker thread panicked"
  fields := [("conn_id", toString id), ("peer", peer)]

/-- What is reported when a member that has ended is joined. -/
def joined (c : Crew τ) (peer : τ → String) (m : Member) : List Event :=
  match c.workers[m.worker]? with
  | some { ending := some .panicked, task, .. } => [panicked m.id (peer task)]
  | _ => []

end Crew

end RecordLog

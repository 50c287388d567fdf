import RecordLog.Connection.Basic
import RecordLog.FileSystem.Change
import RecordLog.LogStore
import RecordLog.ShutdownFlag

/-! Serving a connection whose peer follows a script. The script says what each receive finds and
what happens at each write; in between, others may set the flag or change the files. -/
namespace RecordLog.Connection

/-- What others do meanwhile. A change of files that fails changes nothing. -/
inductive Deed
  | trigger
  | change (c : FileSystem.Change)
  deriving DecidableEq, Repr

/-- What the next receive finds. Octets that exceed the limit are left for later receives, and no
octets at all mean that the peer has closed. -/
inductive Item
  | deliver (bytes : Bytes)
  | fail (error : IoError)
  | meanwhile (deed : Deed)
  deriving DecidableEq, Repr

/-- What happens at a write. -/
inductive WriteAction
  | fail (error : IoError)
  | refuse
  | cap (limit : Nat)
  | meanwhile (deed : Deed)
  deriving DecidableEq, Repr

structure Script where
  items : List Item := []
  /-- Octets of the item under way that have not been received. -/
  rest : Bytes := []
  /-- Actions by the number of the write they belong to, counted from one. -/
  plan : List (Nat × WriteAction) := []
  /-- The most octets any write takes. -/
  maxWrite : Option Nat := none
  writes : Nat := 0
  deriving Repr

/-- The actions of the next write, in their order. -/
def Script.due (s : Script) : List WriteAction :=
  (s.plan.filter (·.1 = s.writes + 1)).map (·.2)

/-- All that a served connection deals with. -/
structure Surroundings where
  host : Host
  store : LogStore
  flag : ShutdownFlag := {}
  script : Script := {}

namespace Surroundings

def perform (w : Surroundings) : Deed → Surroundings
  | .trigger => { w with flag := w.flag.trigger.2 }
  | .change c => { w with host := (w.host.change c.apply).2 }

@[simp] theorem perform_script (w : Surroundings) (d : Deed) : (w.perform d).script = w.script := by
  cases d <;> rfl

/-- Takes items until one answers the receive. -/
def nextItem (limit : Nat) (w : Surroundings) : List Item → Except IoError Bytes × Surroundings
  | [] => (.ok [], { w with script.items := [] })
  | .deliver bytes :: items =>
    (.ok (bytes.take limit), { w with script.items := items, script.rest := bytes.drop limit })
  | .fail e :: items => (.error e, { w with script.items := items })
  | .meanwhile d :: items => (w.perform d).nextItem limit items

def receive (limit : Nat) (w : Surroundings) : Except IoError Bytes × Surroundings :=
  match w.script.rest with
  | [] => w.nextItem limit w.script.items
  | rest => (.ok (rest.take limit), { w with script.rest := rest.drop limit })

/-- Carries out the actions of one write, which takes `cap` octets unless one of them says less. -/
def act (cap : Nat) (w : Surroundings) : List WriteAction → Except IoError Nat × Surroundings
  | [] => (.ok cap, w)
  | .fail e :: _ => (.error e, w)
  | .refuse :: _ => (.ok 0, w)
  | .cap limit :: actions => act (min cap limit) w actions
  | .meanwhile d :: actions => act cap (w.perform d) actions

def send (bytes : Bytes) (w : Surroundings) : Except IoError Nat × Surroundings :=
  let cap := w.script.maxWrite.elim bytes.length (min bytes.length)
  act cap { w with script.writes := w.script.writes + 1 } w.script.due

/-- How the surroundings answer a question. -/
def answer (w : Surroundings) : Request → Reply × Surroundings
  | .readFlag => (.flag w.flag.triggered, w)
  | .receive limit => let (r, w) := w.receive limit; (.received r, w)
  | .append record =>
    let (r, host) := w.store.append record w.host
    (.appended r, { w with host })
  | .readBack => (.content (w.store.readAll w.host), w)
  | .send bytes => let (r, w) := w.send bytes; (.accepted r, w)

end Surroundings

end RecordLog.Connection

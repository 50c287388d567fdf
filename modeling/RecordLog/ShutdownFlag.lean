/-! The one-way shutdown flag. A flag is a handle on a cell; cloning a handle shares its cell, so
the handles fall into families that see each other's triggers. -/
namespace RecordLog

/-- One cell: unset, then set for good. -/
structure ShutdownFlag where
  triggered : Bool := false
  deriving DecidableEq, Repr

/-- Sets the flag and tells whether this call was the one that set it. -/
def ShutdownFlag.trigger (f : ShutdownFlag) : Bool × ShutdownFlag := (!f.triggered, ⟨true⟩)

/-- Handles in the order of their creation, each with the number of its cell. -/
structure FlagTable where
  cells : List ShutdownFlag := []
  handles : List Nat := []
  deriving DecidableEq, Repr

namespace FlagTable

/-- A new flag with a cell of its own, and the number of its handle. -/
def create (t : FlagTable) : Nat × FlagTable :=
  (t.handles.length, ⟨t.cells ++ [⟨false⟩], t.handles ++ [t.cells.length]⟩)

/-- A further handle on the cell of handle `i`. -/
def clone? (t : FlagTable) (i : Nat) : Option (Nat × FlagTable) :=
  t.handles[i]?.map fun cell => (t.handles.length, { t with handles := t.handles ++ [cell] })

def isTriggered? (t : FlagTable) (i : Nat) : Option Bool := do
  let cell ← t.handles[i]?
  let flag ← t.cells[cell]?
  pure flag.triggered

/-- Triggers handle `i`. Answers whether this call set the cell. -/
def trigger? (t : FlagTable) (i : Nat) : Option (Bool × FlagTable) := do
  let cell ← t.handles[i]?
  let flag ← t.cells[cell]?
  let (won, flag) := flag.trigger
  pure (won, { t with cells := t.cells.set cell flag })

/-- `n` calls of `trigger?` in any order: how many of them set the cell. -/
def race? (t : FlagTable) (i : Nat) : Nat → Option (Nat × FlagTable)
  | 0 => (t.isTriggered? i).map fun _ => (0, t)
  | n + 1 => do
    let (won, t) ← t.trigger? i
    let (wins, t) ← t.race? i n
    pure (wins + won.toNat, t)

/-- What every handle sees, in order of creation. -/
def readings (t : FlagTable) : List Bool :=
  t.handles.map fun cell => (t.cells[cell]?.map (·.triggered)).getD false

end FlagTable

end RecordLog

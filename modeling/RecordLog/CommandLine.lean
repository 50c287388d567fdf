import RecordLog.Text.Decimal
import RecordLog.Text.Utf8

/-! Command lines. Options have a long name, a short name or both; a value stands in the next
argument, after an equals sign, or right behind a short name, and short names without values may
share one dash. The value of an option is looked at only when the next option is met or the
arguments end, so an argument that fits nowhere is reported first. -/
namespace RecordLog.CommandLine

/-- Why no options could be read, or that help or the version was asked for instead. -/
inductive Refusal
  | unknownArgument
  | invalidValue
  | valueValidation
  | argumentConflict
  | tooManyValues
  | invalidUtf8
  | missingRequiredArgument
  | displayHelp
  | displayVersion
  deriving DecidableEq, Repr

/-- Help and version are no failures. -/
def Refusal.exitCode : Refusal → Nat
  | displayHelp | displayVersion => 0
  | _ => 2

/-- What an option does to the settings read so far. -/
inductive Action (σ : Type)
  | value (set : Bytes → σ → Except Refusal σ)
  | flag (set : σ → Except Refusal σ)
  | help
  | version

structure Switch (σ : Type) where
  short : Option UInt8 := none
  long : Option Bytes := none
  action : Action σ

/-- The switches of a program and what its operands, taken in order, do. -/
structure Grammar (σ : Type) where
  switches : List (Switch σ)
  operands : List (Bytes → σ → Except Refusal σ) := []

variable {σ : Type}

def Grammar.long? (g : Grammar σ) (name : Bytes) : Option (Action σ) :=
  (g.switches.find? (·.long = some name)).map (·.action)

def Grammar.short? (g : Grammar σ) (name : UInt8) : Option (Action σ) :=
  (g.switches.find? (·.short = some name)).map (·.action)

/-- A value that has been read but not looked at. -/
structure Pending (σ : Type) where
  set : Bytes → σ → Except Refusal σ
  value : Option Bytes

structure State (σ : Type) where
  settings : σ
  pending : Option (Pending σ) := none
  operands : List (Bytes → σ → Except Refusal σ)
  /-- After a double dash all arguments are operands. -/
  trailing : Bool := false

namespace State

/-- Looks at the pending value; an option without one is refused. -/
def settle (s : State σ) : Except Refusal (State σ) :=
  match s.pending with
  | none => .ok s
  | some ⟨_, none⟩ => .error .invalidValue
  | some ⟨set, some value⟩ =>
    (set value s.settings).map fun settings => { s with settings, pending := none }

/-- Takes up an option whose value is yet to come. -/
def await (s : State σ) (set : Bytes → σ → Except Refusal σ) : Except Refusal (State σ) :=
  s.settle.map fun s => { s with pending := some ⟨set, none⟩ }

/-- Takes up an option with a value at hand. -/
def accept (s : State σ) (set : Bytes → σ → Except Refusal σ) (value : Bytes) :
    Except Refusal (State σ) := do
  let s ← s.settle
  let settings ← set value s.settings
  .ok { s with settings }

/-- Takes up an option without a value. -/
def raise (s : State σ) (set : σ → Except Refusal σ) : Except Refusal (State σ) := do
  let s ← s.settle
  let settings ← set s.settings
  .ok { s with settings }

/-- Gives up with `r`, unless the pending value is refused first. -/
def stop (s : State σ) (r : Refusal) : Except Refusal (State σ) := do
  let _ ← s.settle
  .error r

def long (g : Grammar σ) (s : State σ) (name : Bytes) (attached : Option Bytes) :
    Except Refusal (State σ) :=
  match g.long? name, attached with
  | none, _ => .error .unknownArgument
  | some (.value set), some value => s.accept set value
  | some (.value set), none => s.await set
  | some _, some _ => .error .tooManyValues
  | some (.flag set), none => s.raise set
  | some .help, none => s.stop .displayHelp
  | some .version, none => s.stop .displayVersion

/-- Short names behind one dash, up to the first that takes a value. -/
def shorts (g : Grammar σ) (s : State σ) : Bytes → Except Refusal (State σ)
  | [] => .ok s
  | name :: rest =>
    match g.short? name with
    | none => .error .unknownArgument
    | some (.flag set) => (s.raise set).bind fun s => shorts g s rest
    | some .help => s.stop .displayHelp
    | some .version => s.stop .displayVersion
    | some (.value set) =>
      match rest with
      | [] => s.await set
      | 61 :: value => s.accept set value
      | value => s.accept set value

/-- An argument that is no option: the value of the option before it, or an operand. -/
def plain (s : State σ) (arg : Bytes) : Except Refusal (State σ) :=
  match s.trailing, s.pending with
  | false, some ⟨set, none⟩ => .ok { s with pending := some ⟨set, some arg⟩ }
  | _, _ =>
    match s.operands with
    | [] => .error .unknownArgument
    | set :: operands =>
      s.settle.map fun s => { s with operands, pending := some ⟨set, some arg⟩ }

def argument (g : Grammar σ) (s : State σ) (arg : Bytes) : Except Refusal (State σ) :=
  if s.trailing then s.plain arg
  else match arg with
    | [45, 45] => .ok { s with trailing := true }
    | 45 :: 45 :: body =>
      match body.dropWhile (· ≠ 61) with
      | [] => s.long g body none
      | _ :: value => s.long g (body.takeWhile (· ≠ 61)) (some value)
    | 45 :: c :: cs => s.shorts g (c :: cs)
    | arg => s.plain arg

theorem argument_operand (g : Grammar σ) (s : State σ) {arg : Bytes}
    (operand : ∀ c cs, arg ≠ 45 :: c :: cs) : s.argument g arg = s.plain arg := by
  unfold argument
  split
  · rfl
  · split
    · exact absurd rfl (operand 45 [])
    · exact absurd rfl (operand 45 _)
    · exact absurd rfl (operand _ _)
    · rfl

end State

/-- The settings that the arguments leave, starting from `start`. All operands must be there. -/
def Grammar.read (g : Grammar σ) (start : σ) (args : List Bytes) : Except Refusal σ := do
  let s ← args.foldlM (State.argument g) { settings := start, operands := g.operands }
  let s ← s.settle
  if s.operands.isEmpty then .ok s.settings else .error .missingRequiredArgument

/-! Values -/

/-- Any path but the empty one. -/
def pathValue (bs : Bytes) : Except Refusal Bytes :=
  if bs.isEmpty then .error .invalidValue else .ok bs

def textValue (bs : Bytes) : Except Refusal String :=
  match Utf8.decode? bs with
  | some s => .ok s
  | none => .error .invalidUtf8

/-- The largest number that a value may have. -/
def maxNumber : Nat := 18446744073709551615

/-- A number of 64 bits; one plus sign and any zeros may stand in front. -/
def numberValue (bs : Bytes) : Except Refusal Nat := do
  let text ← textValue bs
  let digits := match text.toList with
    | '+' :: cs => cs
    | cs => cs
  match Decimal.read? digits with
  | some n => if n ≤ maxNumber then .ok n else .error .valueValidation
  | none => .error .valueValidation

/-- Sets what must not be set twice. -/
def once {α : Type} (old : Option α) (read : Bytes → Except Refusal α) (bs : Bytes) :
    Except Refusal (Option α) :=
  if old.isSome then .error .argumentConflict else (read bs).map some

end RecordLog.CommandLine

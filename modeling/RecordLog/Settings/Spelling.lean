import RecordLog.Settings.Options

/-! Options written down. A value stands behind a long or a short name, in an argument of its own or
attached; the daemon option may share the dash of a short name. A command line is any spelling of
each choice, in the order of the choices. -/
namespace RecordLog.Settings

/-- An option and its value, which is ignored if the option takes none. -/
structure Choice where
  option : OptionName
  value : Bytes := []
  deriving DecidableEq, Repr

namespace Choice

def daemon : Choice := { option := .daemon }

/-- The options after a choice. -/
def apply (o : Options) (c : Choice) : Except CommandLine.Refusal Options := c.option.set o c.value

/-- The options after choices made from the first to the last. -/
def applyAll (o : Options) (cs : List Choice) : Except CommandLine.Refusal Options :=
  cs.foldlM apply o

/-- A value that reads as such wherever it stands. -/
def hasPlainValue (c : Choice) : Bool :=
  match c.value with
  | [] => !c.option.takesValue
  | b :: _ => b != 45 && b != 61

/-- The arguments that spell a choice by its long name. -/
def longSpellings (c : Choice) : List (List Bytes) :=
  let name : Bytes := 45 :: 45 :: c.option.long
  if c.option.takesValue then [[name, c.value], [name ++ 61 :: c.value]] else [[name]]

/-- The same by its short name: what follows the dash in the first argument, and the others. -/
def shortSpellings (c : Choice) : List (Bytes × List Bytes) :=
  match c.option.short? with
  | none => []
  | some name =>
    if c.option.takesValue then
      [([name], [c.value]), (name :: c.value, []), (name :: 61 :: c.value, [])]
    else [([name], [])]

end Choice

/-- Arguments that make these choices in this order. -/
inductive Spelled : List Choice → List Bytes → Prop
  | nil : Spelled [] []
  | long {c cs args rest} (written : args ∈ c.longSpellings) (later : Spelled cs rest) :
      Spelled (c :: cs) (args ++ rest)
  | short {c cs first more rest} (written : (first, more) ∈ c.shortSpellings)
      (later : Spelled cs rest) : Spelled (c :: cs) ((45 :: first) :: more ++ rest)
  | bundled {c cs first more rest} (written : (first, more) ∈ c.shortSpellings)
      (later : Spelled cs rest) :
      Spelled (.daemon :: c :: cs) ((45 :: 'd'.toUInt8 :: first) :: more ++ rest)

end RecordLog.Settings

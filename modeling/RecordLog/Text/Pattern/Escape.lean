/-! Escapes in regular expressions: what a backslash makes of the characters after it. -/
namespace RecordLog.Pattern

/-- How a part of an expression is read. -/
structure Modes where
  insensitive : Bool := false
  unicode : Bool := true
  /-- Blanks and comments do not count. -/
  verbose : Bool := false
  deriving DecidableEq, Repr

/-- There are no tables for the case of letters past ASCII. -/
def Modes.takesLiterals (m : Modes) : Bool := !(m.insensitive && m.unicode)

inductive Escape
  | literal (c : Char)
  /-- A class of ASCII characters. -/
  | asciiClass
  /-- A place between characters. -/
  | place
  deriving DecidableEq, Repr

def isHexDigit (c : Char) : Bool := c.isDigit || ('a' ≤ c && c ≤ 'f') || ('A' ≤ c && c ≤ 'F')

def hexValue (c : Char) : Nat :=
  if c.isDigit then c.toNat - 48 else if c.isUpper then c.toNat - 55 else c.toNat - 87

/-- The character that `n` hexadecimal digits name. Outside of Unicode, two digits name an octet,
which has to be an ASCII character. -/
def hexEscape (m : Modes) (n : Nat) (cs : List Char) : Option (Escape × List Char) :=
  let digits := cs.take n
  let point := digits.foldl (fun v c => 16 * v + hexValue c) 0
  if digits.length = n ∧ digits.all isHexDigit ∧ point.isValidChar ∧
      (m.unicode ∨ n ≠ 2 ∨ point < 128) then
    some (.literal (Char.ofNat point), cs.drop n)
  else none

/-- What follows a backslash. Classes and word boundaries of Unicode are not to be had, nor are
references to groups. -/
def escape (m : Modes) : List Char → Option (Escape × List Char)
  | [] => none
  | 'x' :: cs => hexEscape m 2 cs
  | 'u' :: cs => hexEscape m 4 cs
  | 'U' :: cs => hexEscape m 8 cs
  | c :: cs =>
    if ['a', 'f', 't', 'n', 'r', 'v'].contains c then some (.literal '\n', cs)
    else if c = 'A' ∨ c = 'z' then some (.place, cs)
    else if ['d', 's', 'w'].contains c then if m.unicode then none else some (.asciiClass, cs)
    else if ['b', 'B', '<', '>'].contains c then if m.unicode then none else some (.place, cs)
    else if c.isAlphanum ∨ '\x7f' < c then none
    else some (.literal c, cs)

end RecordLog.Pattern

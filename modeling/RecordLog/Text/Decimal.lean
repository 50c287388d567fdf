/-! Decimal digits, written and read. -/
namespace RecordLog.Decimal

/-- A number with zeros in front of it up to a width. -/
def padded (width n : Nat) : List Char := (Nat.toDigits 10 n).leftpad width '0'

def digit? (c : Char) : Option Nat := if c.isDigit then some (c.toNat - '0'.toNat) else none

/-- The value of digits after those that already make up `n`. -/
def readFrom (n : Nat) : List Char → Option Nat
  | [] => some n
  | c :: cs => (digit? c).bind fun d => readFrom (10 * n + d) cs

/-- The value of one or more digits and nothing else. -/
def read? (cs : List Char) : Option Nat := if cs.isEmpty then none else readFrom 0 cs

end RecordLog.Decimal

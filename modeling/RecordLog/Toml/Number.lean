import RecordLog.Calendar
import RecordLog.Text.Decimal
import RecordLog.Toml.Lexeme

/-! Numbers and dates of a TOML document. Only integers keep their value: the program has no use for
the others, but a document that spells them badly is refused. -/
namespace RecordLog.Toml

/-- Digits with single underscores between them, after those already found; the underscores go. -/
def digitsFrom (isDigit : Char → Bool) (found : List Char) :
    List Char → Option (List Char × List Char)
  | '_' :: c :: cs => if isDigit c then digitsFrom isDigit (c :: found) cs else none
  | ['_'] => none
  | c :: cs =>
    if isDigit c then digitsFrom isDigit (c :: found) cs else some (found.reverse, c :: cs)
  | [] => some (found.reverse, [])

/-- One or more digits, zeros in front allowed. -/
def digits (isDigit : Char → Bool) : Reader (List Char)
  | c :: cs => if isDigit c then digitsFrom isDigit [c] cs else none
  | [] => none

/-- Whether there is a minus sign in front, and the text after a sign of either sort. -/
def sign : List Char → Bool × List Char
  | '-' :: cs => (true, cs)
  | '+' :: cs => (false, cs)
  | cs => (false, cs)

/-- The digits of a decimal integer: a lone zero, or no zero in front. -/
def decimalDigits : Reader (List Char)
  | '0' :: cs => some (['0'], cs)
  | cs => digits Char.isDigit cs

def valueOf (base : Nat) (ds : List Char) : Nat := ds.foldl (fun n c => base * n + hexValue c) 0

def minInteger : Int := -9223372036854775808

def maxInteger : Int := 9223372036854775807

def inRange (n : Int) : Option Int := if minInteger ≤ n ∧ n ≤ maxInteger then some n else none

/-- Digits after the mark of a base, which takes no sign. -/
def based (base : Nat) (isDigit : Char → Bool) (cs : List Char) : Option (Int × List Char) := do
  let (ds, cs) ← digits isDigit cs
  let n ← inRange (valueOf base ds)
  some (n, cs)

/-- An integer of 64 bits. -/
def integer : Reader Int
  | '0' :: 'x' :: cs => based 16 isHexDigit cs
  | '0' :: 'o' :: cs => based 8 (fun c => '0' ≤ c && c ≤ '7') cs
  | '0' :: 'b' :: cs => based 2 (fun c => c = '0' || c = '1') cs
  | cs => do
    let (negative, cs) := sign cs
    let (ds, cs) ← decimalDigits cs
    let n ← inRange (if negative then -valueOf 10 ds else valueOf 10 ds)
    some (n, cs)

/-- Digits after a point. -/
def fraction : Reader (List Char)
  | '.' :: cs => digits Char.isDigit cs
  | _ => none

/-- A power of ten. -/
def exponent : List Char → Option (Int × List Char)
  | c :: cs =>
    if c = 'e' ∨ c = 'E' then do
      let (negative, cs) := sign cs
      let (ds, cs) ← digits Char.isDigit cs
      some (if negative then -valueOf 10 ds else valueOf 10 ds, cs)
    else none
  | [] => none

/-- Whether `mantissa · 10 ^ power` is past the largest double by half a unit or more. -/
def overflows (mantissa : Nat) (power : Int) : Bool :=
  let limit := Nat.pow 2 1024 - Nat.pow 2 970
  let size := (Nat.toDigits 10 mantissa).length + power
  if mantissa = 0 ∨ size < 300 then false
  else if 320 < size then true
  else if 0 ≤ power then limit ≤ mantissa * Nat.pow 10 power.toNat
  else limit * Nat.pow 10 (-power).toNat ≤ mantissa

/-- A number with a fraction, an exponent or both, or one of the names for what is no number.
Positive numbers too large for a double are refused. -/
def float (cs : List Char) : Option (Unit × List Char) :=
  let (negative, body) := sign cs
  match body with
  | 'i' :: 'n' :: 'f' :: rest => some ((), rest)
  | 'n' :: 'a' :: 'n' :: rest => some ((), rest)
  | _ => do
    let (whole, cs) ← decimalDigits body
    let (part, power, cs) ← match exponent cs with
      | some (power, cs) => some ([], power, cs)
      | none => do
        let (part, cs) ← fraction cs
        match exponent cs with
        | some (power, cs) => some (part, power, cs)
        | none => if cs.head? = some 'e' ∨ cs.head? = some 'E' then none else some (part, 0, cs)
    if !negative ∧ overflows (valueOf 10 (whole ++ part)) (power - part.length) then none
    else some ((), cs)

/-- Exactly `n` digits whose value lies in a range. -/
def field (n low high : Nat) (cs : List Char) : Option (Nat × List Char) := do
  if cs.length < n then none
  let v ← Decimal.read? (cs.take n)
  if low ≤ v ∧ v ≤ high then some (v, cs.drop n) else none

def expectChar (c : Char) : List Char → Option (List Char)
  | x :: cs => if x = c then some cs else none
  | [] => none

/-- Year, month and day of a date that exists. -/
def date (cs : List Char) : Option (List Char) := do
  let (year, cs) ← field 4 0 9999 cs
  let cs ← expectChar '-' cs
  let (month, cs) ← field 2 1 12 cs
  let cs ← expectChar '-' cs
  let (day, cs) ← field 2 1 31 cs
  let length ← (Calendar.monthLengths year)[month - 1]?
  if day ≤ length then some cs else none

/-- Hour, minute and second, with any number of digits after the second. -/
def time (cs : List Char) : Option (List Char) := do
  let (_, cs) ← field 2 0 23 cs
  let cs ← expectChar ':' cs
  let (_, cs) ← field 2 0 59 cs
  let cs ← expectChar ':' cs
  let (_, cs) ← field 2 0 60 cs
  match cs with
  | '.' :: c :: more => some (if c.isDigit then more.dropWhile Char.isDigit else cs)
  | cs => some cs

/-- An offset from universal time. -/
def offset : List Char → Option (List Char)
  | c :: cs =>
    if c = 'Z' ∨ c = 'z' then some cs
    else if c = '+' ∨ c = '-' then do
      let (_, cs) ← field 2 0 23 cs
      let cs ← expectChar ':' cs
      let (_, cs) ← field 2 0 59 cs
      some cs
    else none
  | [] => none

/-- A date, a time, or a date with a time and perhaps an offset. -/
def dateTime (cs : List Char) : Option (Unit × List Char) :=
  match date cs with
  | none => (time cs).map ((), ·)
  | some cs =>
    match cs with
    | c :: more =>
      if c = 'T' ∨ c = 't' ∨ c = ' ' then
        match time more with
        | none => some ((), cs)
        | some rest => some ((), (offset rest).getD rest)
      else some ((), cs)
    | [] => some ((), [])

end RecordLog.Toml

import RecordLog.Calendar
import RecordLog.Text.Decimal
import RecordLog.RecordBuffer

/-! Timestamp records: an instant shown as local time with its offset from universal time, tagged
and ended like any other record. -/
namespace RecordLog

/-- A point in time. From one to two thousand million nanoseconds mean a leap second, which belongs
to the last second of its minute. -/
structure Instant where
  /-- Whole seconds since the start of 1970, universal time. -/
  seconds : Int
  nanos : Nat := 0
  deriving DecidableEq, Repr

namespace Instant

def minYear : Int := -262143

def maxYear : Int := 262142

/-- The first day of 1970. -/
def epochDay : Int := 719528

def secondsPerDay : Int := 86400

/-- The instants that can be told. -/
def inRange (t : Instant) : Bool :=
  let day := t.seconds / secondsPerDay + epochDay
  Calendar.yearStart minYear ≤ day && day < Calendar.yearStart (maxYear + 1)
    && (t.nanos < 1000000000 || (t.nanos < 2000000000 && t.seconds % 60 = 59))

end Instant

namespace Timestamp

/-- Offsets east of universal time are less than a day. -/
def validOffset (offset : Int) : Bool := -86400 < offset && offset < 86400

/-- What a timestamp shows. -/
structure Fields where
  weekday : Nat
  date : Calendar.Date
  hour : Nat
  minute : Nat
  second : Nat
  west : Bool
  offsetMinutes : Nat
  deriving DecidableEq, Repr

/-- Local time at an offset. A leap second adds one to the seconds shown; the offset is rounded to
the nearest minute, half a minute away from zero. -/
def fieldsOf (t : Instant) (offset : Int) : Fields :=
  let shifted := t.seconds + offset
  let day := shifted / Instant.secondsPerDay + Instant.epochDay
  let second := (shifted % Instant.secondsPerDay).toNat
  { weekday := Calendar.weekdayOf day
    date := .ofDay day
    hour := second / 3600
    minute := second / 60 % 60
    second := second % 60 + t.nanos / 1000000000
    west := offset < 0
    offsetMinutes := (offset.natAbs + 30) / 60 }

/-- Seconds of local time that the fields show. -/
def Fields.localSeconds (f : Fields) : Int :=
  (f.date.toDay - Instant.epochDay) * Instant.secondsPerDay
    + f.hour * 3600 + f.minute * 60 + f.second

def weekdayNames : List String := ["Sun", "Mon", "Tue", "Wed", "Thu", "Fri", "Sat"]

def monthNames : List String :=
  ["Jan", "Feb", "Mar", "Apr", "May", "Jun", "Jul", "Aug", "Sep", "Oct", "Nov", "Dec"]

def nameAt (names : List String) (i : Nat) : List Char := (names[i]?.getD "").toList

/-- At least four digits, with a sign unless there are exactly four and no sign is needed. -/
def yearText (year : Int) : List Char :=
  let digits := Decimal.padded 4 year.natAbs
  if year < 0 then '-' :: digits else if year > 9999 then '+' :: digits else digits

def tag : List Char := "timestamp:".toList

/-- Tag, weekday, day, month, year, time and offset, ended by the delimiter. -/
def Fields.render (f : Fields) : List Char :=
  tag ++ nameAt weekdayNames f.weekday ++ ", ".toList ++ Decimal.padded 2 f.date.day
    ++ ' ' :: nameAt monthNames (f.date.month - 1) ++ ' ' :: yearText f.date.year
    ++ ' ' :: Decimal.padded 2 f.hour ++ ':' :: Decimal.padded 2 f.minute
    ++ ':' :: Decimal.padded 2 f.second
    ++ ' ' :: (if f.west then '-' else '+') :: Decimal.padded 2 (f.offsetMinutes / 60)
    ++ Decimal.padded 2 (f.offsetMinutes % 60) ++ ['\n']

/-- The record for an instant at an offset. -/
def record (t : Instant) (offset : Int) : String := String.ofList (fieldsOf t offset).render

/-! Reading -/

/-- Takes exactly these characters. -/
def expect : List Char → List Char → Option (List Char)
  | [], cs => some cs
  | x :: xs, c :: cs => if x = c then expect xs cs else none
  | _ :: _, [] => none

/-- Takes exactly `n` digits. -/
def digits (n : Nat) (cs : List Char) : Option (Nat × List Char) :=
  if cs.length < n then none else (Decimal.read? (cs.take n)).map (·, cs.drop n)

/-- Takes one of the names and tells which. -/
def oneOf (names : List String) (cs : List Char) : Option (Nat × List Char) :=
  (names.zipIdx.findSome? fun (name, i) => (expect name.toList cs).map (i, ·))

/-- Takes a year with or without a sign, up to the next blank. -/
def year (cs : List Char) : Option (Int × List Char) :=
  let (sign, cs) : Int × List Char := match cs with
    | '-' :: cs => (-1, cs)
    | '+' :: cs => (1, cs)
    | cs => (1, cs)
  (Decimal.read? (cs.takeWhile (· ≠ ' '))).map fun n => (sign * n, cs.dropWhile (· ≠ ' '))

/-- The fields of a record, as shown. -/
def read? (cs : List Char) : Option Fields := do
  let cs ← expect tag cs
  let (weekday, cs) ← oneOf weekdayNames cs
  let cs ← expect [',', ' '] cs
  let (day, cs) ← digits 2 cs
  let cs ← expect [' '] cs
  let (month, cs) ← oneOf monthNames cs
  let cs ← expect [' '] cs
  let (year, cs) ← year cs
  let cs ← expect [' '] cs
  let (hour, cs) ← digits 2 cs
  let cs ← expect [':'] cs
  let (minute, cs) ← digits 2 cs
  let cs ← expect [':'] cs
  let (second, cs) ← digits 2 cs
  let cs ← expect [' '] cs
  let (west, cs) ← match cs with
    | '-' :: cs => some (true, cs)
    | '+' :: cs => some (false, cs)
    | _ => none
  let (hours, cs) ← digits 2 cs
  let (minutes, cs) ← digits 2 cs
  let cs ← expect ['\n'] cs
  if cs.isEmpty then
    some ⟨weekday, ⟨year, month + 1, day⟩, hour, minute, second, west, hours * 60 + minutes⟩
  else none

end Timestamp

end RecordLog

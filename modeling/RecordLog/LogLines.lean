import RecordLog.Clock
import RecordLog.RecordBuffer
import RecordLog.Text.Utf8

/-! The content of a log as lines. A line ends with its delimiter; only the last may lack it. -/
namespace RecordLog.LogLines

def split (content : Bytes) : List Bytes :=
  let (records, rest) := (RecordBuffer.empty.extend content).drain
  if rest.size = 0 then records else records ++ [rest.bytes]

/-- Neighbours that are equal become one with their number. -/
def group : List Bytes → List (Bytes × Nat)
  | [] => []
  | line :: rest =>
    match group rest with
    | (other, n) :: more =>
      if line = other then (line, n + 1) :: more else (line, 1) :: (other, n) :: more
    | [] => [(line, 1)]

/-- Distinct lines in order of their octets, each with the number of times it occurs. -/
def tally (content : Bytes) : List (Bytes × Nat) :=
  group ((split content).mergeSort fun a b => !decide (b < a))

def isTimestamp (line : Bytes) : Bool :=
  (Bytes.ofString (String.ofList Timestamp.tag)).isPrefixOf line

def timestamps (content : Bytes) : List Bytes := (split content).filter isTimestamp

/-- Everything but the timestamps. -/
def others (content : Bytes) : Bytes := ((split content).filter (!isTimestamp ·)).flatten

/-- Whether a line is a timestamp as it would be written at some time up to now. -/
def isFaithful (clock : Clock) (line : Bytes) : Bool :=
  match (Utf8.decode? line).bind fun s => Timestamp.read? s.toList with
  | none => false
  | some fields =>
    let time := fields.localSeconds - clock.offset
    Bytes.ofString (String.ofList fields.render) = line
      && clock.origin ≤ time && time ≤ clock.instant.seconds

end RecordLog.LogLines

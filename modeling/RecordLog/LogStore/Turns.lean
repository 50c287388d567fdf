import RecordLog.LogStore
import RecordLog.RecordBuffer

/-! Several writers on one store. Each appends its record and reads the log back, a number of
times; whatever the order of their turns, every reading extends the ones before it. -/
namespace RecordLog.LogStore

structure Writer where
  record : Bytes
  turns : Nat
  /-- What this writer has read, newest first. -/
  readings : List Bytes := []

/-- One append and one reading. A failed call leaves no reading. -/
def Writer.turn (s : LogStore) (w : Writer) (h : Host) : Writer × Host :=
  match w.turns with
  | 0 => (w, h)
  | turns + 1 =>
    match s.append w.record h with
    | (.error _, h) => ({ w with turns }, h)
    | (.ok (), h) =>
      match s.readAll h with
      | .error _ => ({ w with turns }, h)
      | .ok content => ({ w with turns, readings := content :: w.readings }, h)

/-- A turn of each writer, in order. -/
def round (s : LogStore) : List Writer → Host → List Writer × Host
  | [], h => ([], h)
  | w :: writers, h =>
    let (w, h) := w.turn s h
    let (done, h) := s.round writers h
    (w :: done, h)

def rounds (s : LogStore) : Nat → List Writer → Host → List Writer × Host
  | 0, writers, h => (writers, h)
  | n + 1, writers, h =>
    let (writers, h) := s.round writers h
    s.rounds n writers h

/-- Rounds until no writer has turns left. -/
def takeTurns (s : LogStore) (writers : List Writer) (h : Host) : List Writer × Host :=
  s.rounds ((writers.map Writer.turns).foldl max 0) writers h

/-- Every reading has the one before it at its front and at least a record more. -/
def Writer.grows (w : Writer) : Bool :=
  let ordered := w.readings.reverse
  (([] : Bytes) :: ordered).zip ordered |>.all fun (old, new) =>
    old.isPrefixOf new && old.length + w.record.length ≤ new.length

end RecordLog.LogStore

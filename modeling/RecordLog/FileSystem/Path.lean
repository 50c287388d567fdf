import RecordLog.Bytes

/-! Paths. A path is read as a start (the root or the working directory), names to follow, and a
demand, made by a trailing slash, that the last name be a directory. -/
namespace RecordLog

/-- One step of a path; `.` and `..` are names too. -/
abbrev Name := Bytes

/-- Where an entry is: the names from the root to it, outermost first, none of them a dot. -/
abbrev Location := List Name

structure Path where
  absolute : Bool
  names : List Name
  slash : Bool
  deriving DecidableEq, Repr

namespace Path

/-- The longest path and the longest name that the system takes. -/
def maxLength : Nat := 4095

def maxName : Nat := 255

def dot : Name := [46]

def dotdot : Name := [46, 46]

/-- Repeated slashes count once. -/
def ofBytes (bs : Bytes) : Path where
  absolute := bs.head? = some Bytes.slash
  names := (bs.splitOn Bytes.slash).filter (· ≠ [])
  slash := bs.getLast? = some Bytes.slash

end Path

/-- A path made absolute from a working directory. Dots that stand for "here" vanish, dots that
stand for "up" and a trailing slash stay, and so do exactly two slashes at the start. -/
def Location.absolute (base : Location) (bs : Bytes) : Bytes :=
  let path := Path.ofBytes bs
  let names := path.names.filter (· ≠ Path.dot)
  let all := if path.absolute then names else base ++ names
  let doubled := bs.takeWhile (· = Bytes.slash) = [Bytes.slash, Bytes.slash]
  (if doubled then [Bytes.slash] else [])
    ++ Bytes.slash :: Bytes.join Bytes.slash all
    ++ (if path.slash && !all.isEmpty then [Bytes.slash] else [])

end RecordLog

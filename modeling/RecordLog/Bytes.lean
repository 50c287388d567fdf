/-! Byte strings. Records, file contents, paths and program arguments are all sequences of
octets; text is only one way to read them. -/
namespace RecordLog

/-- A sequence of octets. -/
abbrev Bytes := List UInt8

namespace Bytes

/-- The UTF-8 form of a text. -/
def ofString (s : String) : Bytes := s.toUTF8.toList

/-- The slash that separates the names of a path. -/
def slash : UInt8 := 47

/-- The octet that no path may hold. -/
def nul : UInt8 := 0

/-- Pieces between separators: `n` separators give `n + 1` pieces. -/
def splitOn (sep : UInt8) (bs : Bytes) : List Bytes :=
  let (last, done) := bs.foldl
    (fun (piece, done) b => if b = sep then ([], piece.reverse :: done) else (b :: piece, done))
    (([] : Bytes), ([] : List Bytes))
  (last.reverse :: done).reverse

/-- Pieces with a separator between each two. -/
def join (sep : UInt8) : List Bytes → Bytes
  | [] => []
  | [p] => p
  | p :: q :: ps => p ++ sep :: join sep (q :: ps)

end Bytes

end RecordLog

import RecordLog.Bytes

/-! UTF-8 read octet by octet. A malformed stretch is one maximal beginning of a character that
the next octet cannot continue, or one octet that begins none; each stretch is one `none` of
`scan`. -/
namespace RecordLog.Utf8

/-- The replacement character. -/
def replacement : Char := '\uFFFD'

/-- How many octets follow a leading octet and which values the first of them may have.
Overlong forms, surrogates and values past U+10FFFF are ruled out by that first range. -/
def lead (b : UInt8) : Option (Nat × UInt8 × UInt8) :=
  if b < 0x80 then some (0, 0x80, 0xBF)
  else if b < 0xC2 then none
  else if b < 0xE0 then some (1, 0x80, 0xBF)
  else if b = 0xE0 then some (2, 0xA0, 0xBF)
  else if b = 0xED then some (2, 0x80, 0x9F)
  else if b < 0xF0 then some (2, 0x80, 0xBF)
  else if b = 0xF0 then some (3, 0x90, 0xBF)
  else if b < 0xF4 then some (3, 0x80, 0xBF)
  else if b = 0xF4 then some (3, 0x80, 0x8F)
  else none

/-- The bits of the code point that a leading octet carries. -/
def leadBits (b : UInt8) : Nat → Nat
  | 0 => b.toNat
  | 1 => b.toNat % 0x20
  | 2 => b.toNat % 0x10
  | _ => b.toNat % 0x08

/-- Takes `n` continuation octets, the first between `lo` and `hi`. Returns the code point, or
`none` if one is missing, and what is left after the octets that fitted. -/
def continuation : Nat → UInt8 → UInt8 → Nat → Bytes → Option Nat × Bytes
  | 0, _, _, point, rest => (some point, rest)
  | _ + 1, _, _, _, [] => (none, [])
  | n + 1, lo, hi, point, b :: rest =>
    if lo ≤ b ∧ b ≤ hi then continuation n 0x80 0xBF (point * 64 + b.toNat % 64) rest
    else (none, b :: rest)

theorem continuation_length (n : Nat) (lo hi : UInt8) (point : Nat) (bs : Bytes) :
    (continuation n lo hi point bs).2.length ≤ bs.length := by
  induction n generalizing lo hi point bs with
  | zero => simp [continuation]
  | succ n ih =>
    cases bs with
    | nil => simp [continuation]
    | cons b bs =>
      simp only [continuation]
      split
      · exact Nat.le_succ_of_le (ih ..)
      · simp

/-- The first character or malformed stretch of `b :: rest`, and the octets after it. -/
def step (b : UInt8) (rest : Bytes) : Option Char × Bytes :=
  match lead b with
  | none => (none, rest)
  | some (n, lo, hi) =>
    let (point, rest) := continuation n lo hi (leadBits b n) rest
    (point.map Char.ofNat, rest)

theorem step_length (b : UInt8) (rest : Bytes) : (step b rest).2.length ≤ rest.length := by
  unfold step
  split
  · simp
  · exact continuation_length ..

/-- Characters and malformed stretches in order, after those already found. -/
def scanFrom (found : List (Option Char)) : Bytes → List (Option Char)
  | [] => found.reverse
  | b :: rest =>
    have := step_length b rest
    scanFrom ((step b rest).1 :: found) (step b rest).2
  termination_by bs => bs.length
  decreasing_by simp only [List.length_cons]; omega

/-- The characters of a byte string, each malformed stretch as `none`. -/
def scan (bs : Bytes) : List (Option Char) := scanFrom [] bs

/-- The text of well-formed UTF-8. -/
def decode? (bs : Bytes) : Option String := ((scan bs).mapM id).map String.ofList

/-- The text of any byte string, each malformed stretch shown as the replacement character. -/
def lossy (bs : Bytes) : String := String.ofList ((scan bs).map (·.getD replacement))

end RecordLog.Utf8

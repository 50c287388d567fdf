/-! Positive numbers of 53 significant bits, and the decimal text that shows one: the fewest digits
that read back as the same number, of those the nearest. All arithmetic is exact. -/
namespace RecordLog

/-- The number `significand * 2 ^ exponent`. Exponents are not bounded. -/
structure BinaryFloat where
  significand : Nat
  exponent : Int
  deriving DecidableEq, Repr

namespace BinaryFloat

/-- The least significand of 53 bits. -/
def leadingBit : Nat := Nat.pow 2 52

/-- Numerator and denominator of `n * 2 ^ e`. -/
def scaled (n : Nat) (e : Int) : Nat × Nat := (n * Nat.pow 2 e.toNat, Nat.pow 2 (-e).toNat)

/-- A quotient rounded to a whole number, a half going to the even neighbour. -/
def roundHalfEven (num den : Nat) : Nat :=
  let q := num / den
  let twice := 2 * (num % den)
  if twice < den ∨ (twice = den ∧ q % 2 = 0) then q else q + 1

/-- The number nearest to a quotient. -/
def nearest (num den : Nat) : BinaryFloat :=
  if num = 0 then ⟨0, 0⟩
  else
    let whole (e : Int) : Nat × Nat :=
      let (up, down) := scaled 1 (-e)
      (num * up, den * down)
    let guess : Int := (num.log2 : Int) - den.log2 - 52
    let e := if (whole guess).1 < leadingBit * (whole guess).2 then guess - 1 else guess
    let m := roundHalfEven (whole e).1 (whole e).2
    if m = 2 * leadingBit then ⟨leadingBit, e + 1⟩ else ⟨m, e⟩

/-- The sum, rounded. -/
def add (x y : BinaryFloat) : BinaryFloat :=
  let (a, b) := scaled x.significand x.exponent
  let (c, d) := scaled y.significand y.exponent
  nearest (a * d + c * b) (b * d)

/-- The number of decimal digits before the point of `num / den`, less one; negative for numbers
below one. The search starts at `limit` places behind the point. -/
def decimalExponent (num den limit : Nat) : Int :=
  if den ≤ num then ((Nat.toDigits 10 (num / den)).length : Int) - 1
  else
    match (List.range limit).find? fun k => den ≤ num * Nat.pow 10 (k + 1) with
    | some k => -((k : Int) + 1)
    | none => -(limit : Int)

/-- The digits as one number, with the power of ten that its last digit counts. -/
structure Digits where
  value : Nat
  power : Int
  deriving DecidableEq, Repr

/-- The shortest digits of a positive number, of two that are equally near the larger. Four times
the significand makes the ends of the interval of numbers that round to `x` whole. -/
def shortest (x : BinaryFloat) : Digits :=
  let below := if x.significand = leadingBit then 1 else 2
  let (unit, den) := scaled 1 (x.exponent - 2)
  let value := 4 * x.significand * unit
  let low := (4 * x.significand - below) * unit
  let high := (4 * x.significand + 2) * unit
  let closed := x.significand % 2 = 0
  let top := decimalExponent value den 400
  let within (num : Nat) (power : Int) : Bool :=
    let a := num * Nat.pow 10 power.toNat * den
    let ten := Nat.pow 10 (-power).toNat
    if closed then low * ten ≤ a && a ≤ high * ten else low * ten < a && a < high * ten
  let candidate (count : Nat) : Option Digits :=
    let power := top - (count : Int) + 1
    let num := value * Nat.pow 10 (-power).toNat
    let base := den * Nat.pow 10 power.toNat
    let near := (2 * num + base) / (2 * base)
    if within near power then some ⟨near, power⟩
    else if within (num / base) power then some ⟨num / base, power⟩
    else if within (num / base + 1) power then some ⟨num / base + 1, power⟩
    else none
  ((List.range 17).findSome? fun k => candidate (k + 1)).getD ⟨value, 0⟩

/-- Numbers from 0.0001 up to ten to the sixteenth are written with a point and at least one digit
behind it, others with a power of ten. -/
def render (x : BinaryFloat) : String :=
  if x.significand = 0 then "0.0"
  else
    let d := x.shortest
    let digits := (Nat.toDigits 10 d.value).reverse.dropWhile (· = '0') |>.reverse
    let point : Int := (Nat.toDigits 10 d.value).length + d.power
    if -4 < point ∧ point ≤ 16 then
      let whole := if 0 < point then
          (digits ++ List.replicate (point.toNat - digits.length) '0').take point.toNat
        else ['0']
      let part := List.replicate (-point).toNat '0' ++ digits.drop point.toNat
      String.ofList (whole ++ '.' :: if part.isEmpty then ['0'] else part)
    else
      let tail := if digits.length < 2 then [] else '.' :: digits.drop 1
      String.ofList (digits.take 1 ++ tail) ++ s!"e{point - 1}"

end BinaryFloat

end RecordLog

import Mathlib.Algebra.Group.Nat.Defs
import RecordLog.Text.Decimal

/-! Numbers written with zeros in front are read back. -/
namespace RecordLog.Decimal

lemma digit?_of_isDigit {c : Char} (h : c.isDigit) : digit? c = some (c.toNat - '0'.toNat) :=
  if_pos h

lemma readFrom_digits {cs : List Char} (h : ∀ c ∈ cs, c.isDigit) (n : Nat) :
    readFrom n cs = some (Nat.ofDigitChars 10 cs n) := by
  induction cs generalizing n with
  | nil => rw [readFrom, Nat.ofDigitChars_nil]
  | cons c cs ih =>
    rw [List.forall_mem_cons] at h
    rw [readFrom, digit?_of_isDigit h.1, Option.bind_some, ih h.2, Nat.ofDigitChars_cons]

lemma isDigit_of_mem_padded {width n : Nat} {c : Char} (h : c ∈ padded width n) : c.isDigit := by
  obtain h | h := List.mem_append.mp h
  · rw [List.eq_of_mem_replicate h]
    decide
  · exact Nat.isDigit_of_mem_toDigits (by decide) (by decide) h

lemma padded_ne_nil (width n : Nat) : padded width n ≠ [] :=
  List.append_ne_nil_of_right_ne_nil _ Nat.toDigits_ne_nil

theorem read?_padded (width n : Nat) : read? (padded width n) = some n := by
  have hsome : (padded width n).isEmpty = false := by
    simpa [List.isEmpty_iff] using padded_ne_nil width n
  rw [read?, hsome, if_neg Bool.false_ne_true, readFrom_digits fun c => isDigit_of_mem_padded,
    padded, List.leftpad, Nat.ofDigitChars_append, Nat.ofDigitChars_replicate_zero, Nat.mul_zero,
    Nat.ofDigitChars_ten_toDigits]

/-- A number that fits takes up the width and no more. -/
theorem length_padded {width n : Nat} (some : 0 < width) (fits : n < 10 ^ width) :
    (padded width n).length = width := by
  have hlength := (Nat.length_toDigits_le_iff (by decide) some).mpr fits
  rw [padded, List.length_leftpad]
  exact Nat.max_eq_left hlength

end RecordLog.Decimal

import Mathlib.Tactic.Lemma
import RecordLog.Calendar

/-! Days and dates. Every day has a date of the calendar, and that date is its own. -/
namespace RecordLog.Calendar

/-- Days in the first `n` of these months. -/
def daysIn (lengths : List Nat) (n : Nat) : Nat := (lengths.take n).foldl (· + ·) 0

@[simp] lemma daysIn_zero (lengths : List Nat) : daysIn lengths 0 = 0 := rfl

lemma daysIn_cons (length : Nat) (lengths : List Nat) (n : Nat) :
    daysIn (length :: lengths) (n + 1) = length + daysIn lengths n := by
  have hsum : (lengths.take n).foldl (· + ·) (length + 0) =
      length + (lengths.take n).foldl (· + ·) 0 := List.foldl_assoc
  rw [daysIn, List.take_succ_cons, List.foldl_cons, Nat.zero_add, daysIn, ← hsum, Nat.add_zero]

lemma daysIn_year (year : Int) :
    daysIn (monthLengths year) 12 = if isLeap year then 366 else 365 := by
  unfold monthLengths
  cases isLeap year <;> rfl

/-- The day that is found lies in its month, and the months before make up the rest. -/
theorem monthOf_spec {lengths : List Nat} {day : Nat} (within : day < daysIn lengths lengths.length)
    (month : Nat) : ∃ n length, lengths[n]? = some length ∧ daysIn lengths n ≤ day ∧
      day < daysIn lengths n + length ∧
      monthOf month lengths day = (month + n, day - daysIn lengths n + 1) := by
  induction lengths generalizing day month with
  | nil => exact absurd within (Nat.not_lt_zero day)
  | cons length lengths ih =>
    rw [List.length_cons, daysIn_cons] at within
    rw [monthOf]
    split
    · exact ⟨0, length, rfl, Nat.zero_le day, by simpa, rfl⟩
    · obtain ⟨n, found, hfound, hfrom, huntil, hmonth⟩ :=
        ih (show day - length < daysIn lengths lengths.length by omega) (month + 1)
      refine ⟨n + 1, found, by simpa using hfound, ?_, ?_, ?_⟩
      · rw [daysIn_cons]
        omega
      · rw [daysIn_cons]
        omega
      · rw [hmonth, daysIn_cons, Nat.sub_add_eq, Nat.add_assoc, Nat.add_comm 1 n]

lemma weekdayOf_lt (day : Int) : weekdayOf day < 7 := by
  unfold weekdayOf
  omega

namespace Date

/-- What the date of a day is: the day's year, and in it a month and a day of that month. -/
theorem ofDay_spec (day : Int) : ∃ n length, (monthLengths (yearOf day))[n]? = some length ∧
    (ofDay day).year = yearOf day ∧ (ofDay day).month = n + 1 ∧
    1 ≤ (ofDay day).day ∧ (ofDay day).day ≤ length ∧
    day = yearStart (yearOf day) + daysIn (monthLengths (yearOf day)) n +
      ((ofDay day).day - 1) := by
  obtain ⟨hfrom, huntil⟩ := yearOf_bounds day
  have within : (day - yearStart (yearOf day)).toNat < daysIn (monthLengths (yearOf day)) 12 := by
    rw [yearStart_succ] at huntil
    rw [daysIn_year]
    by_cases leap : isLeap (yearOf day) = true
    · rw [if_pos leap] at huntil ⊢
      omega
    · rw [if_neg leap] at huntil ⊢
      omega
  obtain ⟨n, length, hfound, hbefore, hafter, hmonth⟩ := monthOf_spec within 1
  have hdate : ofDay day = ⟨yearOf day, 1 + n,
      (day - yearStart (yearOf day)).toNat - daysIn (monthLengths (yearOf day)) n + 1⟩ := by
    simp only [ofDay, hmonth]
  rw [hdate]
  refine ⟨n, length, hfound, rfl, Nat.add_comm 1 n, Nat.le_add_left _ _, ?_, ?_⟩
  · simp only
    omega
  · simp only
    omega

/-- Every day has a month and a day of that month. -/
theorem ofDay_valid (day : Int) : (ofDay day).Valid := by
  obtain ⟨n, length, hfound, hyear, hmonth, hfirst, hlast, -⟩ := ofDay_spec day
  refine ⟨by omega, hfirst, length, ?_, hlast⟩
  rw [hyear, hmonth, Nat.add_sub_cancel, hfound]

/-- The date of a day is the day's own. -/
theorem toDay_ofDay (day : Int) : (ofDay day).toDay = day := by
  obtain ⟨n, length, -, hyear, hmonth, -, -, hday⟩ := ofDay_spec day
  simp only [toDay, hyear, hmonth, Nat.add_sub_cancel]
  exact hday.symm

lemma Valid.month_le {d : Date} (h : d.Valid) : d.month ≤ 12 := by
  obtain ⟨-, -, length, hlength, -⟩ := h
  have hlt := (List.getElem?_eq_some_iff.mp hlength).1
  simp only [monthLengths, List.length_cons, List.length_nil] at hlt
  omega

lemma Valid.day_le {d : Date} (h : d.Valid) : d.day ≤ 31 := by
  obtain ⟨-, -, length, hlength, hday⟩ := h
  have hmax : ∀ l ∈ monthLengths d.year, l ≤ 31 := by
    unfold monthLengths
    cases isLeap d.year <;> decide
  exact Nat.le_trans hday (hmax length (List.mem_of_getElem? hlength))

end Date

end RecordLog.Calendar

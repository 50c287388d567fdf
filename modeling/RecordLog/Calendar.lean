/-! The proleptic Gregorian calendar on all integers. Days are counted from the first of January of
the year zero; a year is found by a guess that is at most one off, a month by walking through the
months of the year. -/
namespace RecordLog.Calendar

def isLeap (year : Int) : Bool := year % 4 = 0 && (year % 100 ≠ 0 || year % 400 = 0)

/-- Days before the first of January. -/
def yearStart (year : Int) : Int :=
  365 * year + (year + 3) / 4 - (year + 99) / 100 + (year + 399) / 400

/-- The lengths of the months of a year. -/
def monthLengths (year : Int) : List Nat :=
  [31, if isLeap year then 29 else 28, 31, 30, 31, 30, 31, 31, 30, 31, 30, 31]

/-- The year that a day belongs to. -/
def yearOf (day : Int) : Int :=
  let guess := 400 * day / 146097
  if day < yearStart guess then guess - 1
  else if yearStart (guess + 1) ≤ day then guess + 1
  else guess

/-- Which of the months a day of the year falls into, counted from `month`, and which day of that
month it is. -/
def monthOf (month : Nat) : List Nat → Nat → Nat × Nat
  | [], day => (month, day + 1)
  | length :: months, day =>
    if day < length then (month, day + 1) else monthOf (month + 1) months (day - length)

/-- Months and days count from one. -/
structure Date where
  year : Int
  month : Nat
  day : Nat
  deriving DecidableEq, Repr

namespace Date

def ofDay (day : Int) : Date :=
  let year := yearOf day
  let (month, dayOfMonth) := monthOf 1 (monthLengths year) (day - yearStart year).toNat
  ⟨year, month, dayOfMonth⟩

/-- The day of a date, counted with the months before it. -/
def toDay (d : Date) : Int :=
  let before : Nat := ((monthLengths d.year).take (d.month - 1)).foldl (· + ·) 0
  yearStart d.year + before + (d.day - 1)

/-- A month of the year and a day of that month. -/
def Valid (d : Date) : Prop :=
  1 ≤ d.month ∧ 1 ≤ d.day ∧ ∃ length, (monthLengths d.year)[d.month - 1]? = some length ∧
    d.day ≤ length

end Date

/-- Days from Sunday; the first day of the year zero was a Saturday. -/
def weekdayOf (day : Int) : Nat := ((day + 6) % 7).toNat

theorem yearStart_succ (year : Int) :
    yearStart (year + 1) = yearStart year + (if isLeap year then 366 else 365) := by
  unfold yearStart
  split
  · rename_i h
    simp only [isLeap, ne_eq, Bool.and_eq_true, Bool.or_eq_true, decide_eq_true_eq] at h
    omega
  · rename_i h
    simp only [isLeap, ne_eq, Bool.and_eq_true, Bool.or_eq_true, decide_eq_true_eq] at h
    omega

theorem yearStart_bounds (year : Int) :
    146097 * year - 396 ≤ 400 * yearStart year ∧ 400 * yearStart year ≤ 146097 * year + 699 := by
  unfold yearStart
  omega

theorem yearOf_bounds (day : Int) :
    yearStart (yearOf day) ≤ day ∧ day < yearStart (yearOf day + 1) := by
  unfold yearOf
  dsimp only
  generalize hg : 400 * day / 146097 = guess
  have below := yearStart_bounds (guess - 1)
  have above := yearStart_bounds (guess + 1 + 1)
  split
  · exact ⟨by omega, by rw [Int.sub_add_cancel]; omega⟩
  split
  · exact ⟨by omega, by omega⟩
  · exact ⟨by omega, by omega⟩

end RecordLog.Calendar

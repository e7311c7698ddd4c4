import Mathlib.Tactic.IntervalCases

/-!
# The proleptic Gregorian calendar

Days are counted from 1 January 1970, months and days of the month from 1.  The counts
are those of ECMAScript, which also gives a day to months and days out of range: the
thirteenth month is January of the next year.

* `dayFromYear`, `daysBeforeMonth`, `makeDay` — the number of a day;
* `civilFromDay` — the year, month and day of the month of a number;
* `IsDate` — a day that is in the calendar; `makeDay_le` — dates that come later in the
  order of year, month and day have larger numbers;
* `makeDay_civilFromDay` — the year, month and day that are read of a number lead back to it.
-/

namespace Calendar

/-- The number of 1 January. -/
@[grind =] def dayFromYear (y : ℤ) : ℤ :=
  365 * (y - 1970) + (y - 1969) / 4 - (y - 1901) / 100 + (y - 1601) / 400

/-- A leap year. -/
def isLeap (y : ℤ) : Bool := decide (y % 4 = 0 ∧ (y % 100 ≠ 0 ∨ y % 400 = 0))

/-- The days of the year before the first of a month. -/
@[grind =] def daysBeforeMonth (leap : Bool) (m : ℤ) : ℤ :=
  (367 * m - 362) / 12 - if m ≤ 2 then 0 else if leap then 1 else 2

/-- The number of a day; months and days out of range count on. -/
def makeDay (y m d : ℤ) : ℤ :=
  let year := y + (m - 1) / 12
  dayFromYear year + daysBeforeMonth (isLeap year) ((m - 1) % 12 + 1) + d - 1

/-- The year a day is in. -/
def yearFromDay (n : ℤ) : ℤ :=
  let y := 1970 + n * 400 / 146097
  if n < dayFromYear y then y - 1 else if dayFromYear (y + 1) ≤ n then y + 1 else y

/-- The year, the month and the day of the month. -/
def civilFromDay (n : ℤ) : ℤ × ℤ × ℤ :=
  let y := yearFromDay n
  let dayOfYear := n - dayFromYear y
  let counted := dayOfYear +
    if dayOfYear < daysBeforeMonth (isLeap y) 3 then 0 else if isLeap y then 1 else 2
  let m := (12 * counted + 373) / 367
  (y, m, dayOfYear - daysBeforeMonth (isLeap y) m + 1)

/-- A day of the calendar. -/
def IsDate (y m d : ℤ) : Prop :=
  1 ≤ m ∧ m ≤ 12 ∧ 1 ≤ d ∧
    d ≤ (if m = 12 then 31 else daysBeforeMonth (isLeap y) (m + 1) - daysBeforeMonth (isLeap y) m)

instance (y m d : ℤ) : Decidable (IsDate y m d) :=
  inferInstanceAs (Decidable (1 ≤ m ∧ m ≤ 12 ∧ 1 ≤ d ∧ d ≤ (if m = 12 then 31 else
    daysBeforeMonth (isLeap y) (m + 1) - daysBeforeMonth (isLeap y) m)))

example : makeDay 2026 9 4 = 20700 ∧ civilFromDay 20700 = (2026, 9, 4) := by decide

/-! ## The order of the dates -/

variable {y m d y' m' : ℤ}

theorem makeDay_of_month (h1 : 1 ≤ m) (h12 : m ≤ 12) :
    makeDay y m d = dayFromYear y + daysBeforeMonth (isLeap y) m + d - 1 := by
  have hyear : (m - 1) / 12 = 0 := by omega
  have hmonth : (m - 1) % 12 + 1 = m := by omega
  unfold makeDay
  rw [hyear, hmonth, add_zero]

theorem daysBeforeMonth_mem (leap : Bool) (h1 : 1 ≤ m) (h12 : m ≤ 12) :
    0 ≤ daysBeforeMonth leap m ∧ daysBeforeMonth leap m ≤ 335 := by
  unfold daysBeforeMonth
  cases leap <;> simp only [Bool.false_eq_true, if_false, if_true] <;> split_ifs <;> omega

/-- The days of the years 0 to 9999, also with months and days up to 99. -/
theorem makeDay_bounds (hy : 0 ≤ y) (hy' : y ≤ 9999) (hm : 0 ≤ m) (hm' : m ≤ 99) (hd : 0 ≤ d)
    (hd' : d ≤ 99) : -1000000 ≤ makeDay y m d ∧ makeDay y m d ≤ 3000000 := by
  have hmonth := daysBeforeMonth_mem (isLeap (y + (m - 1) / 12)) (m := (m - 1) % 12 + 1)
    (by omega) (by omega)
  have hyear : -800000 ≤ dayFromYear (y + (m - 1) / 12) ∧
      dayFromYear (y + (m - 1) / 12) ≤ 2940000 := by
    unfold dayFromYear
    omega
  unfold makeDay
  simp only
  omega

/-- A year is as long as its months. -/
theorem dayFromYear_succ (y : ℤ) :
    dayFromYear (y + 1) = dayFromYear y + 365 + if isLeap y then 1 else 0 := by
  unfold dayFromYear isLeap
  by_cases h : y % 4 = 0 ∧ (y % 100 ≠ 0 ∨ y % 400 = 0)
  · rw [decide_eq_true h, if_pos rfl]
    omega
  · rw [decide_eq_false h, if_neg Bool.false_ne_true]
    omega

theorem dayFromYear_le (h : y ≤ y') : dayFromYear y ≤ dayFromYear y' := by
  unfold dayFromYear
  omega

/-- The first of a month comes after the days of an earlier month. -/
theorem daysBeforeMonth_lt (h : IsDate y m d) (hlt : m < m') (h12 : m' ≤ 12) :
    daysBeforeMonth (isLeap y) m + d ≤ daysBeforeMonth (isLeap y) m' := by
  obtain ⟨h1, -, -, hd⟩ := h
  rw [if_neg (by omega)] at hd
  have hnext : daysBeforeMonth (isLeap y) (m + 1) ≤ daysBeforeMonth (isLeap y) m' := by
    unfold daysBeforeMonth
    cases isLeap y <;> simp only [Bool.false_eq_true, if_false, if_true] <;> split_ifs <;> omega
  omega

/-- The days of a year come before the next. -/
theorem daysBeforeMonth_add_le (h : IsDate y m d) :
    daysBeforeMonth (isLeap y) m + d ≤ 365 + if isLeap y then 1 else 0 := by
  obtain ⟨h1, h12, -, hd⟩ := h
  by_cases hm : m = 12
  · rw [if_pos hm] at hd
    subst hm
    unfold daysBeforeMonth
    cases isLeap y <;> simp <;> omega
  · rw [if_neg hm] at hd
    have := (daysBeforeMonth_mem (isLeap y) (m := m + 1) (by omega) (by omega)).2
    split <;> omega

/-- **Later dates have larger numbers.** -/
theorem makeDay_le {d' : ℤ} (h : IsDate y m d) (h' : IsDate y' m' d')
    (hle : y < y' ∨ y = y' ∧ (m < m' ∨ m = m' ∧ d ≤ d')) : makeDay y m d ≤ makeDay y' m' d' := by
  rw [makeDay_of_month h.1 h.2.1, makeDay_of_month h'.1 h'.2.1]
  rcases hle with hy | ⟨rfl, hm | ⟨rfl, hd⟩⟩
  · have hyear := daysBeforeMonth_add_le h
    have hsucc := dayFromYear_succ y
    have hmono := dayFromYear_le (show y + 1 ≤ y' by omega)
    have hpos := (daysBeforeMonth_mem (isLeap y') h'.1 h'.2.1).1
    have := h'.2.2.1
    omega
  · have := daysBeforeMonth_lt h hm h'.2.1
    have := h'.2.2.1
    omega
  · omega

/-! ## Reading a day back -/

/-- A day is in its year. -/
theorem yearFromDay_spec (n : ℤ) :
    dayFromYear (yearFromDay n) ≤ n ∧ n < dayFromYear (yearFromDay n + 1) := by
  have hnear : dayFromYear (1970 + n * 400 / 146097 - 1) ≤ n ∧
      n < dayFromYear (1970 + n * 400 / 146097 + 2) := by
    unfold dayFromYear
    omega
  unfold yearFromDay
  simp only
  split_ifs with hbefore hafter
  · rw [sub_add_cancel]
    exact ⟨hnear.1, hbefore⟩
  · refine ⟨hafter, ?_⟩
    rw [add_assoc]
    exact hnear.2
  · exact ⟨not_lt.mp hbefore, not_le.mp hafter⟩

theorem dayFromYear_le_iff {n : ℤ} : dayFromYear y ≤ n ↔ y ≤ yearFromDay n := by
  obtain ⟨hfrom, hto⟩ := yearFromDay_spec n
  constructor
  · intro h
    by_contra hlt
    have := dayFromYear_le (show yearFromDay n + 1 ≤ y by omega)
    omega
  · intro h
    exact le_trans (dayFromYear_le h) hfrom

/-- The month of a day is a month, and its day is counted from the first of the month. -/
theorem civilFromDay_spec (n : ℤ) :
    (civilFromDay n).1 = yearFromDay n ∧ 1 ≤ (civilFromDay n).2.1 ∧ (civilFromDay n).2.1 ≤ 12 ∧
      n = dayFromYear (yearFromDay n) +
        daysBeforeMonth (isLeap (yearFromDay n)) (civilFromDay n).2.1 +
        (civilFromDay n).2.2 - 1 := by
  obtain ⟨hfrom, hto⟩ := yearFromDay_spec n
  have hlength := dayFromYear_succ (yearFromDay n)
  unfold civilFromDay
  simp only [true_and]
  generalize yearFromDay n = y at *
  refine ⟨?_, ?_, by omega⟩
  all_goals
    cases hleap : isLeap y
    all_goals
      simp only [hleap, Bool.false_eq_true, if_false, if_true] at hlength ⊢
      split_ifs <;> omega

/-- The same month and day of a later year is most of a year later. -/
theorem makeDay_add_le (hlt : y < y') (h1 : 1 ≤ m) (h12 : m ≤ 12) :
    makeDay y m d + 364 + 365 * (y' - y - 1) ≤ makeDay y' m d := by
  have hyears : dayFromYear y + 365 * (y' - y) ≤ dayFromYear y' := by
    unfold dayFromYear
    omega
  have hleap : daysBeforeMonth (isLeap y) m - 1 ≤ daysBeforeMonth (isLeap y') m := by
    unfold daysBeforeMonth
    cases isLeap y <;> cases isLeap y' <;> simp only [Bool.false_eq_true, if_false, if_true] <;>
      split_ifs <;> omega
  rw [makeDay_of_month h1 h12, makeDay_of_month h1 h12]
  omega

/-- **The number of the year, the month and the day of a day is its number.** -/
theorem makeDay_civilFromDay (n : ℤ) :
    makeDay (civilFromDay n).1 (civilFromDay n).2.1 (civilFromDay n).2.2 = n := by
  obtain ⟨hy, h1, h12, hn⟩ := civilFromDay_spec n
  rw [makeDay_of_month h1 h12, hy]
  omega

end Calendar

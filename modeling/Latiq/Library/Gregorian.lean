import Mathlib.Data.Int.Notation
import Mathlib.Data.Int.Order.Basic
import Mathlib.Tactic.IntervalCases

/-!
# The proleptic Gregorian calendar

Dates of the Gregorian calendar, carried back before its introduction, with a year 0 and negative years, and the
number of a day counted from 1970-01-01.

* `Date.number` — the number of a day: the days of the whole years before it, of the whole months before it in its
  year, and of its month.
* `Date.next` — the day after. The number of 1970-01-01 is 0, and `Date.number_next`: the day after has the next number.
* `Date.number_inj` — no two dates have one number.
-/

namespace Gregorian

/-- Every fourth year is a leap year, of the centuries only every fourth. -/
def IsLeap (y : ℤ) : Prop := y % 4 = 0 ∧ (y % 100 ≠ 0 ∨ y % 400 = 0)

instance (y : ℤ) : Decidable (IsLeap y) := inferInstanceAs (Decidable (_ ∧ _))

/-- The days of a month, of which there are twelve. -/
def daysIn (y : ℤ) : ℕ → ℕ
  | 1 | 3 | 5 | 7 | 8 | 10 | 12 => 31
  | 4 | 6 | 9 | 11 => 30
  | 2 => if IsLeap y then 29 else 28
  | _ => 0

/-- The days of the months before this one in a year. -/
def daysBeforeMonth (y : ℤ) : ℕ → ℕ
  | 0 => 0
  | m + 1 => daysBeforeMonth y m + daysIn y m

/-- The days of the years before this one, from the year 1 on. -/
def daysBeforeYear (y : ℤ) : ℤ := 365 * (y - 1) + (y - 1) / 4 - (y - 1) / 100 + (y - 1) / 400

structure Date where
  year : ℤ
  month : ℕ
  day : ℕ
  deriving DecidableEq, Repr

namespace Date

/-- A date of the calendar. -/
structure Valid (d : Date) : Prop where
  month_pos : 1 ≤ d.month
  month_le : d.month ≤ 12
  day_pos : 1 ≤ d.day
  day_le : d.day ≤ daysIn d.year d.month

/-- The number of a day, counted from 1970-01-01. -/
def number (d : Date) : ℤ := daysBeforeYear d.year + daysBeforeMonth d.year d.month + d.day - 719163

/-- The day after. -/
def next (d : Date) : Date :=
  if d.day < daysIn d.year d.month then ⟨d.year, d.month, d.day + 1⟩
  else if d.month < 12 then ⟨d.year, d.month + 1, 1⟩
  else ⟨d.year + 1, 1, 1⟩

end Date

/-! ### Months -/

theorem daysIn_pos {y : ℤ} {m : ℕ} (h1 : 1 ≤ m) (h12 : m ≤ 12) : 1 ≤ daysIn y m := by
  by_cases hleap : IsLeap y
  · interval_cases m <;> simp [daysIn, hleap]
  · interval_cases m <;> simp [daysIn, hleap]

theorem daysBeforeMonth_le {y : ℤ} {m n : ℕ} (h : m ≤ n) : daysBeforeMonth y m ≤ daysBeforeMonth y n := by
  induction h with
  | refl => exact le_rfl
  | step _ ih => exact ih.trans (Nat.le_add_right _ _)

/-- The days before each month: those of March are the first to depend on the year. -/
theorem daysBeforeMonth_eq {y : ℤ} {m : ℕ} (h1 : 1 ≤ m) (h12 : m ≤ 12) :
    daysBeforeMonth y m = if m ≤ 2 then 31 * (m - 1) else 59 + (if IsLeap y then 1 else 0) + (153 * (m - 3) + 2) / 5 := by
  by_cases hleap : IsLeap y
  · interval_cases m <;> simp [daysBeforeMonth, daysIn, hleap]
  · interval_cases m <;> simp [daysBeforeMonth, daysIn, hleap]

/-- A year has the days of its twelve months. -/
theorem daysBeforeYear_succ (y : ℤ) : daysBeforeYear (y + 1) = daysBeforeYear y + daysBeforeMonth y 13 := by
  have hmonths : (daysBeforeMonth y 13 : ℤ) = 365 + if IsLeap y then 1 else 0 := by
    by_cases hleap : IsLeap y
    · simp [daysBeforeMonth, daysIn, hleap]
    · simp [daysBeforeMonth, daysIn, hleap]
  rw [hmonths]
  unfold daysBeforeYear
  split_ifs with hleap
  · unfold IsLeap at hleap
    omega
  · unfold IsLeap at hleap
    omega

theorem daysBeforeYear_le {y y' : ℤ} (h : y ≤ y') : daysBeforeYear y ≤ daysBeforeYear y' := by
  unfold daysBeforeYear
  omega

/-! ### Numbers of days -/

namespace Date

theorem number_epoch : number ⟨1970, 1, 1⟩ = 0 := by decide

theorem valid_next {d : Date} (h : d.Valid) : d.next.Valid := by
  obtain ⟨y, m, k⟩ := d
  obtain ⟨hm, hm', hk, hk'⟩ := h
  unfold next
  split_ifs with hday hmonth
  · exact ⟨hm, hm', Nat.le_add_left 1 k, hday⟩
  · exact ⟨Nat.le_add_left 1 m, hmonth, Nat.le_refl 1, daysIn_pos (Nat.le_add_left 1 m) hmonth⟩
  · have hfirst : 1 ≤ 12 := by decide
    exact ⟨Nat.le_refl 1, hfirst, Nat.le_refl 1, daysIn_pos (Nat.le_refl 1) hfirst⟩

/-- The day after has the next number. -/
theorem number_next {d : Date} (h : d.Valid) : d.next.number = d.number + 1 := by
  obtain ⟨y, m, k⟩ := d
  obtain ⟨hm, hm', hk, hk'⟩ := h
  change k ≤ daysIn y m at hk'
  unfold next
  split_ifs with hday hmonth
  · simp only [number]
    omega
  · change ¬k < daysIn y m at hday
    simp only [number, daysBeforeMonth]
    omega
  · change ¬k < daysIn y m at hday
    change ¬m < 12 at hmonth
    change m ≤ 12 at hm'
    obtain rfl : m = 12 := by omega
    have hyear := daysBeforeYear_succ y
    have hlast : daysBeforeMonth y 13 = daysBeforeMonth y 12 + daysIn y 12 := rfl
    have hfirst : daysBeforeMonth (y + 1) 1 = 0 := rfl
    simp only [number, hfirst]
    omega

/-- The number of a date lies in its month. -/
theorem number_bounds {d : Date} (h : d.Valid) :
    daysBeforeYear d.year + daysBeforeMonth d.year d.month ≤ d.number + 719162 ∧
      d.number + 719162 < daysBeforeYear d.year + daysBeforeMonth d.year (d.month + 1) := by
  obtain ⟨hm, hm', hk, hk'⟩ := h
  have hsucc : daysBeforeMonth d.year (d.month + 1) = daysBeforeMonth d.year d.month + daysIn d.year d.month := rfl
  unfold number
  omega

/-- A date of an earlier year has a smaller number. -/
theorem number_lt_of_year {d d' : Date} (h : d.Valid) (h' : d'.Valid) (hlt : d.year < d'.year) :
    d.number < d'.number := by
  have hd := (number_bounds h).2
  have hd' := (number_bounds h').1
  have hmonths : daysBeforeMonth d.year (d.month + 1) ≤ daysBeforeMonth d.year 13 :=
    daysBeforeMonth_le (Nat.succ_le_succ h.month_le)
  have hsucc := daysBeforeYear_succ d.year
  have hyears : daysBeforeYear (d.year + 1) ≤ daysBeforeYear d'.year := daysBeforeYear_le hlt
  omega

/-- In one year, a date of an earlier month has a smaller number. -/
theorem number_lt_of_month {d d' : Date} (h : d.Valid) (h' : d'.Valid) (hyear : d.year = d'.year)
    (hlt : d.month < d'.month) : d.number < d'.number := by
  have hd := (number_bounds h).2
  have hd' := (number_bounds h').1
  rw [← hyear] at hd'
  have hmonths : daysBeforeMonth d.year (d.month + 1) ≤ daysBeforeMonth d.year d'.month := daysBeforeMonth_le hlt
  omega

/-- No two dates have one number. -/
theorem number_inj {d d' : Date} (h : d.Valid) (h' : d'.Valid) (heq : d.number = d'.number) : d = d' := by
  have hyear : d.year = d'.year := by
    rcases lt_trichotomy d.year d'.year with hlt | hyear | hlt
    · exact absurd heq (number_lt_of_year h h' hlt).ne
    · exact hyear
    · exact absurd heq (number_lt_of_year h' h hlt).ne'
  have hmonth : d.month = d'.month := by
    rcases lt_trichotomy d.month d'.month with hlt | hmonth | hlt
    · exact absurd heq (number_lt_of_month h h' hyear hlt).ne
    · exact hmonth
    · exact absurd heq (number_lt_of_month h' h hyear.symm hlt).ne'
  obtain ⟨y, m, k⟩ := d
  obtain ⟨y', m', k'⟩ := d'
  obtain rfl : y = y' := hyear
  obtain rfl : m = m' := hmonth
  simp only [number] at heq
  obtain rfl : k = k' := by omega
  rfl

end Date

end Gregorian

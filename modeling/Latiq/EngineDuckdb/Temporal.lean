import Latiq.Library.Decimal
import Latiq.Library.Gregorian
import Latiq.Library.RustStr

/-!
# Dates and timestamps as texts

How `value_to_json` writes a date and a timestamp: `split_unit_since_epoch` takes the seconds and the microseconds out of
a value in its unit, and `civil_from_days` the date out of a number of days. The arithmetic is that of 64-bit numbers,
and each step that does not fit gives no result; a conversion `as u32` keeps the low 32 bits.

## What is proved

* `civilFromDays_eq` — the date of a number of days: its year in its era of 400 years (`InEra`), and its month in the
  year that starts in March.
* `renders_gregorian` — of every 32-bit number of days and every 64-bit timestamp, the text written is that of the one
  date, and of the one date and time of day, of the calendar.
* `renderDate_inj`, `renderTimestamp_eq_iff`, `renderTime_eq_iff` — no two dates are written alike; timestamps are, and
  times of day, just where they are in one microsecond.
-/

namespace Latiq.EngineDuckdb

open RustStr (Text)
open Gregorian Decimal

/-- `i32`. -/
abbrev I32 := {x : ℤ // -2 ^ 31 ≤ x ∧ x < 2 ^ 31}

/-- `i64`. -/
abbrev I64 := {x : ℤ // -2 ^ 63 ≤ x ∧ x < 2 ^ 63}

/-- `duckdb::types::TimeUnit`. -/
inductive TimeUnit where
  | second | millisecond | microsecond | nanosecond
  deriving DecidableEq, Repr

namespace Temporal

/-- A result of 64-bit arithmetic. -/
def checked (x : ℤ) : Option ℤ := if -2 ^ 63 ≤ x ∧ x < 2 ^ 63 then some x else none

/-- `as u32`. -/
def asU32 (x : ℤ) : ℕ := (x % 2 ^ 32).toNat

/-- `split_unit_since_epoch`. -/
def splitUnitSinceEpoch (unit : TimeUnit) (v : ℤ) : Option (ℤ × ℕ) :=
  match unit with
  | .second => some (v, 0)
  | .millisecond => (checked (v % 1000 * 1000)).map fun us => (v / 1000, asU32 us)
  | .microsecond => some (v / 1000000, asU32 (v % 1000000))
  | .nanosecond => some (v / 1000000000, asU32 ((v % 1000000000).tdiv 1000))

/-- The last part of `civil_from_days`: the month and the day, from the year that starts in March and its day. -/
def monthAndDay (y doy : ℤ) : Option (ℤ × ℕ × ℕ) := do
  let mp := (← checked ((← checked (5 * doy)) + 2)).tdiv 153
  let d := asU32 (← checked ((← checked (doy - (← checked ((← checked (153 * mp)) + 2)).tdiv 5)) + 1))
  let month ← (if mp < 10 then checked (mp + 3) else checked (mp - 9))
  let m := asU32 month
  some (← checked (y + if m ≤ 2 then 1 else 0), m, d)

/-- `civil_from_days`. -/
def civilFromDays (z : ℤ) : Option (ℤ × ℕ × ℕ) := do
  let z ← checked (z + 719468)
  let low ← (if 0 ≤ z then some z else checked (z - 146096))
  let era := low.tdiv 146097
  let doe ← checked (z - (← checked (era * 146097)))
  let yoe := (← checked ((← checked ((← checked (doe - doe.tdiv 1460)) + doe.tdiv 36524)) - doe.tdiv 146096)).tdiv 365
  let y ← checked (yoe + (← checked (era * 400)))
  let doy ← checked (doe - (← checked ((← checked ((← checked (365 * yoe)) + yoe.tdiv 4)) - yoe.tdiv 100)))
  monthAndDay y doy

/-- `{y:04}-{m:02}-{d:02}`. -/
def dateText (y : ℤ) (m d : ℕ) : Text := signed 4 y ++ '-' :: (padded 2 m ++ '-' :: padded 2 d)

/-- `{h:02}:{mi:02}:{s:02}`. -/
def clockText (h mi s : ℤ) : Text := signed 2 h ++ ':' :: (signed 2 mi ++ ':' :: signed 2 s)

/-- `.{frac_us:06}`, where there is a fraction. -/
def fractionText (fracUs : ℕ) : Text := if fracUs > 0 then '.' :: padded 6 fracUs else []

/-- A date, as `value_to_json` writes it. -/
def renderDate (days : ℤ) : Option Text := do
  let (y, m, d) ← civilFromDays days
  some (dateText y m d)

/-- A timestamp, as `value_to_json` writes it. -/
def renderTimestamp (unit : TimeUnit) (t : ℤ) : Option Text := do
  let (secs, fracUs) ← splitUnitSinceEpoch unit t
  let (y, mo, d) ← civilFromDays (secs / 86400)
  let tod := secs % 86400
  some (dateText y mo d ++ ' ' :: (clockText (tod.tdiv 3600) ((tod.tmod 3600).tdiv 60) (tod.tmod 60) ++
    fractionText fracUs))

/-- A time of day, as `value_to_json` writes it. -/
def renderTime (unit : TimeUnit) (t : ℤ) : Option Text := do
  let (secs, fracUs) ← splitUnitSinceEpoch unit t
  some (clockText (secs.tdiv 3600) ((secs.tmod 3600).tdiv 60) (secs.tmod 60) ++ fractionText fracUs)

/-! ### What the texts denote -/

/-- A date and a time of day, to the microsecond. -/
structure Moment where
  date : Date
  hour : ℕ
  minute : ℕ
  second : ℕ
  micro : ℕ
  deriving DecidableEq, Repr

structure Moment.Valid (m : Moment) : Prop where
  date : m.date.Valid
  hour : m.hour < 24
  minute : m.minute < 60
  second : m.second < 60
  micro : m.micro < 1000000

/-- The microseconds from the start of 1970. -/
def Moment.micros (m : Moment) : ℤ :=
  (m.date.number * 86400 + m.hour * 3600 + m.minute * 60 + m.second) * 1000000 + m.micro

/-- No two moments are one instant. -/
theorem Moment.micros_inj {m m' : Moment} (h : m.Valid) (h' : m'.Valid) (heq : m.micros = m'.micros) : m = m' := by
  obtain ⟨d, hh, mi, s, us⟩ := m
  obtain ⟨d', hh', mi', s', us'⟩ := m'
  obtain ⟨hd, hhour, hminute, hsecond, hmicro⟩ := h
  obtain ⟨hd', hhour', hminute', hsecond', hmicro'⟩ := h'
  simp only [micros] at heq hhour hminute hsecond hmicro hhour' hminute' hsecond' hmicro'
  obtain rfl : d = d' := Date.number_inj hd hd' (by omega)
  obtain ⟨rfl, rfl, rfl, rfl⟩ : hh = hh' ∧ mi = mi' ∧ s = s' ∧ us = us' := by omega
  rfl

/-- The values in a second. -/
def perSecond : TimeUnit → ℤ
  | .second => 1
  | .millisecond => 1000
  | .microsecond => 1000000
  | .nanosecond => 1000000000

/-- A date, read from a text. -/
def readDate (t : Text) : Option (Date × Text) := do
  let (y, t) ← integer t
  let (m, t) ← number (← expect '-' t)
  let (d, t) ← number (← expect '-' t)
  some (⟨y, m, d⟩, t)

/-- The microseconds of a fraction with six digits; none are written where it is zero. -/
def readFraction (t : Text) : Option ℕ :=
  if t = [] then some 0
  else do
    let (n, rest) ← number (← expect '.' t)
    if t.length = 7 ∧ rest = [] then some n else none

/-- A date and a time of day, read from a text. -/
def readTimestamp (t : Text) : Option Moment := do
  let (date, t) ← readDate t
  let (h, t) ← number (← expect ' ' t)
  let (mi, t) ← number (← expect ':' t)
  let (s, t) ← number (← expect ':' t)
  let us ← readFraction t
  some ⟨date, h, mi, s, us⟩

/-! ### The era of 400 years -/

/-- Where a day is in its era, whose years start in March: in which century, in which four years of it, in which of these,
and on which day. A year of 366 days is the last of its four years, and of a century's last four only in the last century. -/
structure InEra (doe century quad year day : ℤ) : Prop where
  century_nonneg : 0 ≤ century
  century_le : century ≤ 3
  quad_nonneg : 0 ≤ quad
  quad_le : quad ≤ 24
  year_nonneg : 0 ≤ year
  year_le : year ≤ 3
  day_nonneg : 0 ≤ day
  day_le : day ≤ 365
  leap : day = 365 → year = 3 ∧ (quad < 24 ∨ century = 3)
  doe_eq : doe = 36524 * century + 1461 * quad + 365 * year + day

theorem exists_inEra {doe : ℤ} (h0 : 0 ≤ doe) (h1 : doe < 146097) : ∃ c q f k, InEra doe c q f k := by
  obtain ⟨c, hc⟩ : ∃ c, c = min 3 (doe / 36524) := ⟨_, rfl⟩
  obtain ⟨r, hr⟩ : ∃ r, r = doe - 36524 * c := ⟨_, rfl⟩
  obtain ⟨s, hs⟩ : ∃ s, s = r % 1461 := ⟨_, rfl⟩
  refine ⟨c, r / 1461, min 3 (s / 365), s - 365 * min 3 (s / 365), ?_⟩
  constructor <;> omega

namespace InEra

variable {doe c q f k : ℤ}

/-- The year of the era, by the closed form: the leap days before the day are taken off, and it is divided by 365. -/
theorem yoe_eq (h : InEra doe c q f k) :
    (doe - doe / 1460 + doe / 36524 - doe / 146096) / 365 = 100 * c + 4 * q + f := by
  obtain ⟨hc, hc', hq, hq', hf, hf', hk, hk', hleap, rfl⟩ := h
  -- the last day of the era is in a century of its own
  have hcentury : (36524 * c + 1461 * q + 365 * f + k) / 36524 = c ∧ (36524 * c + 1461 * q + 365 * f + k) / 146096 = 0 ∨
      k = 365 ∧ (36524 * c + 1461 * q + 365 * f + k) / 36524 = c + 1 ∧
        (36524 * c + 1461 * q + 365 * f + k) / 146096 = 1 := by omega
  omega

/-- The day of the year. -/
theorem doy_eq (h : InEra doe c q f k) :
    doe - (365 * (100 * c + 4 * q + f) + (100 * c + 4 * q + f) / 4 - (100 * c + 4 * q + f) / 100) = k := by
  obtain ⟨hc, hc', hq, hq', hf, hf', hk, hk', hleap, rfl⟩ := h
  omega

/-- The days of the era before a year of it. -/
theorem doe_eq_years (h : InEra doe c q f k) (era : ℤ) :
    era * 146097 + doe = 365 * (era * 400 + (100 * c + 4 * q + f)) + (era * 400 + (100 * c + 4 * q + f)) / 4 -
      (era * 400 + (100 * c + 4 * q + f)) / 100 + (era * 400 + (100 * c + 4 * q + f)) / 400 + k := by
  obtain ⟨hc, hc', hq, hq', hf, hf', hk, hk', hleap, rfl⟩ := h
  omega

/-- The February at the end of a year with 366 days is that of a leap year. -/
theorem isLeap (h : InEra doe c q f k) (hday : k = 365) (era : ℤ) : IsLeap (era * 400 + (100 * c + 4 * q + f) + 1) := by
  obtain ⟨hc, hc', hq, hq', hf, hf', hk, hk', hleap, rfl⟩ := h
  unfold IsLeap
  omega

end InEra

/-- The date of a day of the year that starts in March. -/
def marchDate (y k : ℤ) : Date :=
  let mp := (5 * k + 2) / 153
  let m := if mp < 10 then mp + 3 else mp - 9
  ⟨y + if m ≤ 2 then 1 else 0, m.toNat, (k - (153 * mp + 2) / 5 + 1).toNat⟩

theorem marchDate_of_le {y k : ℤ} (h0 : 0 ≤ k) (h : k ≤ 305) :
    ∃ m : ℕ, 3 ≤ m ∧ m ≤ 12 ∧ (5 * k + 2) / 153 = m - 3 ∧
      marchDate y k = ⟨y, m, (k - (153 * ((m : ℤ) - 3) + 2) / 5 + 1).toNat⟩ := by
  obtain ⟨mp, hmp⟩ : ∃ mp : ℕ, (5 * k + 2) / 153 = mp := ⟨((5 * k + 2) / 153).toNat, by omega⟩
  have hmp9 : mp ≤ 9 := by omega
  refine ⟨mp + 3, by omega, by omega, by omega, ?_⟩
  have hlt : (mp : ℤ) < 10 := by omega
  have hmonth : ¬(mp : ℤ) + 3 ≤ 2 := by omega
  rw [marchDate, hmp]
  simp only [if_pos hlt, if_neg hmonth, add_zero, Date.mk.injEq, true_and]
  omega

theorem marchDate_january {y k : ℤ} (h : 306 ≤ k) (h' : k ≤ 336) : marchDate y k = ⟨y + 1, 1, (k - 305).toNat⟩ := by
  have hmp : (5 * k + 2) / 153 = 10 := by omega
  rw [marchDate, hmp]
  simp only [Date.mk.injEq]
  refine ⟨rfl, rfl, ?_⟩
  omega

theorem marchDate_february {y k : ℤ} (h : 337 ≤ k) (h' : k ≤ 365) : marchDate y k = ⟨y + 1, 2, (k - 336).toNat⟩ := by
  have hmp : (5 * k + 2) / 153 = 11 := by omega
  rw [marchDate, hmp]
  simp only [Date.mk.injEq]
  refine ⟨rfl, rfl, ?_⟩
  omega

/-- From March to December it is a date of the year, and in January and February one of the next. -/
theorem valid_marchDate {y k : ℤ} (h0 : 0 ≤ k) (h365 : k ≤ 365) (hleap : k = 365 → IsLeap (y + 1)) :
    (marchDate y k).Valid := by
  rcases le_or_gt k 305 with hk | hk
  · obtain ⟨m, h3, h12, hmp, heq⟩ := marchDate_of_le (y := y) h0 hk
    rw [heq]
    refine ⟨(by decide : 1 ≤ 3).trans h3, h12, ?_, ?_⟩
    · show 1 ≤ (k - (153 * ((m : ℤ) - 3) + 2) / 5 + 1).toNat
      omega
    · show (k - (153 * ((m : ℤ) - 3) + 2) / 5 + 1).toNat ≤ daysIn y m
      interval_cases m <;> simp only [daysIn] <;> omega
  rcases le_or_gt k 336 with hk' | hk'
  · rw [marchDate_january hk hk']
    refine ⟨Nat.le_refl 1, (by decide : 1 ≤ 12), ?_, ?_⟩
    · show 1 ≤ (k - 305).toNat
      omega
    · show (k - 305).toNat ≤ 31
      omega
  · rw [marchDate_february hk' h365]
    refine ⟨(by decide : 1 ≤ 2), (by decide : 2 ≤ 12), ?_, ?_⟩
    · show 1 ≤ (k - 336).toNat
      omega
    · show (k - 336).toNat ≤ if IsLeap (y + 1) then 29 else 28
      split_ifs with hy
      · omega
      · have hne : k ≠ 365 := fun hlast => hy (hleap hlast)
        omega

theorem number_marchDate {y k : ℤ} (h0 : 0 ≤ k) (h365 : k ≤ 365) :
    (marchDate y k).number = 365 * y + y / 4 - y / 100 + y / 400 + k - 719468 := by
  rcases le_or_gt k 305 with hk | hk
  · obtain ⟨m, h3, h12, hmp, heq⟩ := marchDate_of_le (y := y) h0 hk
    have hmonth : ¬m ≤ 2 := by omega
    simp only [heq, Date.number, daysBeforeMonth_eq (by omega : 1 ≤ m) h12, if_neg hmonth, daysBeforeYear]
    -- the leap day of a year is before its March
    split_ifs with hy
    · unfold IsLeap at hy
      omega
    · unfold IsLeap at hy
      omega
  rcases le_or_gt k 336 with hk' | hk'
  · have hbefore : daysBeforeMonth (y + 1) 1 = 0 := rfl
    simp only [marchDate_january hk hk', Date.number, hbefore, daysBeforeYear]
    omega
  · have hbefore : daysBeforeMonth (y + 1) 2 = 31 := rfl
    simp only [marchDate_february hk' h365, Date.number, hbefore, daysBeforeYear]
    omega

/-! ### The date of a number of days -/

theorem checked_of {x : ℤ} (h : -2 ^ 63 ≤ x) (h' : x < 2 ^ 63) : checked x = some x := if_pos ⟨h, h'⟩

theorem bind_of {α β : Type} {o : Option α} {a : α} (h : o = some a) (f : α → Option β) : o >>= f = f a := by
  rw [h]
  rfl

theorem asU32_of {x : ℤ} (h : 0 ≤ x) (h' : x < 2 ^ 32) : asU32 x = x.toNat := by
  rw [asU32, Int.emod_eq_of_lt h h']

/-- The division that truncates, of a number taken down first where it is negative, is the one that rounds down. -/
theorem era_eq {z : ℤ} (h : -2 ^ 62 ≤ z) :
    ((if 0 ≤ z then some z else checked (z - 146096)).map fun n => n.tdiv 146097) = some (z / 146097) := by
  split_ifs with hz
  · rw [Option.map_some, Int.tdiv_eq_ediv_of_nonneg hz]
  · rw [checked_of (by omega) (by omega), Option.map_some, Int.tdiv_eq_ediv]
    congr 1
    split_ifs with hdvd
    · omega
    · rw [Int.sign_eq_one_of_pos (by decide)]
      omega

theorem monthAndDay_eq {y k : ℤ} (h0 : 0 ≤ k) (h365 : k ≤ 365) (hy : -2 ^ 62 ≤ y) (hy' : y ≤ 2 ^ 62) :
    monthAndDay y k = some ((marchDate y k).year, (marchDate y k).month, (marchDate y k).day) := by
  obtain ⟨mp, hmp⟩ : ∃ mp, mp = (5 * k + 2) / 153 := ⟨_, rfl⟩
  have h₁ : checked (5 * k) = some (5 * k) := checked_of (by omega) (by omega)
  have h₂ : checked (5 * k + 2) = some (5 * k + 2) := checked_of (by omega) (by omega)
  have hmp' : (5 * k + 2).tdiv 153 = mp := by rw [Int.tdiv_eq_ediv_of_nonneg (by omega), hmp]
  have h₃ : checked (153 * mp) = some (153 * mp) := checked_of (by omega) (by omega)
  have h₄ : checked (153 * mp + 2) = some (153 * mp + 2) := checked_of (by omega) (by omega)
  have hdiv : (153 * mp + 2).tdiv 5 = (153 * mp + 2) / 5 := Int.tdiv_eq_ediv_of_nonneg (by omega)
  have h₅ : checked (k - (153 * mp + 2) / 5) = some (k - (153 * mp + 2) / 5) := checked_of (by omega) (by omega)
  have h₆ : checked (k - (153 * mp + 2) / 5 + 1) = some (k - (153 * mp + 2) / 5 + 1) :=
    checked_of (by omega) (by omega)
  obtain ⟨m, hm⟩ : ∃ m, m = if mp < 10 then mp + 3 else mp - 9 := ⟨_, rfl⟩
  have hm1 : 1 ≤ m := by omega
  have hm12 : m ≤ 12 := by omega
  have hmonth : (if mp < 10 then checked (mp + 3) else checked (mp - 9)) = some m := by
    rw [← apply_ite checked, ← hm, checked_of (by omega) (by omega)]
  have hyear : (if asU32 m ≤ 2 then (1 : ℤ) else 0) = if m ≤ 2 then 1 else 0 := by
    rw [asU32_of (by omega) (by omega)]
    split_ifs <;> omega
  have hlast : checked (y + if m ≤ 2 then 1 else 0) = some (y + if m ≤ 2 then 1 else 0) := by
    split_ifs
    · exact checked_of (by omega) (by omega)
    · exact checked_of (by omega) (by omega)
  unfold monthAndDay
  rw [bind_of h₁, bind_of h₂, hmp']
  dsimp only
  rw [bind_of h₃, bind_of h₄, hdiv, bind_of h₅, bind_of h₆, bind_of hmonth]
  rw [hyear, bind_of hlast, marchDate, ← hmp, asU32_of (by omega) (by omega), asU32_of (by omega) (by omega)]
  dsimp only
  rw [← hm]

theorem civilFromDays_eq {z : ℤ} (h : -2 ^ 61 ≤ z) (h' : z ≤ 2 ^ 61) :
    ∃ d : Date, civilFromDays z = some (d.year, d.month, d.day) ∧ d.Valid ∧ d.number = z := by
  obtain ⟨era, hera⟩ : ∃ era, era = (z + 719468) / 146097 := ⟨_, rfl⟩
  obtain ⟨doe, hdoe⟩ : ∃ doe, doe = z + 719468 - era * 146097 := ⟨_, rfl⟩
  have hdoe0 : 0 ≤ doe := by omega
  have hdoe1 : doe < 146097 := by omega
  obtain ⟨c, q, f, k, hin⟩ := exists_inEra hdoe0 hdoe1
  obtain ⟨yoe, hyoe⟩ : ∃ yoe, yoe = 100 * c + 4 * q + f := ⟨_, rfl⟩
  have hyoe_eq := hin.yoe_eq
  have hdoy_eq := hin.doy_eq
  have hleap := fun hday => hin.isLeap hday era
  have hyears := hin.doe_eq_years era
  rw [← hyoe] at hyoe_eq hdoy_eq hleap hyears
  have hyoe0 : 0 ≤ yoe := by omega
  have hyoe399 : yoe ≤ 399 := by omega
  have hk0 := hin.day_nonneg
  have hk365 := hin.day_le
  clear hin hyoe
  refine ⟨marchDate (era * 400 + yoe) k, ?_, valid_marchDate hk0 hk365 hleap, ?_⟩
  · have hz : checked (z + 719468) = some (z + 719468) := checked_of (by omega) (by omega)
    obtain ⟨e, he, htdiv⟩ := Option.map_eq_some_iff.1 (era_eq (by omega : -2 ^ 62 ≤ z + 719468))
    rw [← hera] at htdiv
    have hdays : checked (era * 146097) = some (era * 146097) := checked_of (by omega) (by omega)
    have hdoe' : checked (z + 719468 - era * 146097) = some doe := by
      rw [hdoe, checked_of (by omega) (by omega)]
    have hdoeDiv : ∀ b, doe.tdiv b = doe / b := fun b => Int.tdiv_eq_ediv_of_nonneg hdoe0
    have hs₁ : checked (doe - doe / 1460) = some (doe - doe / 1460) := checked_of (by omega) (by omega)
    have hs₂ : checked (doe - doe / 1460 + doe / 36524) = some (doe - doe / 1460 + doe / 36524) :=
      checked_of (by omega) (by omega)
    have hs₃ : checked (doe - doe / 1460 + doe / 36524 - doe / 146096) =
        some (doe - doe / 1460 + doe / 36524 - doe / 146096) := checked_of (by omega) (by omega)
    have hyoe' : (doe - doe / 1460 + doe / 36524 - doe / 146096).tdiv 365 = yoe := by
      rw [Int.tdiv_eq_ediv_of_nonneg (by omega), hyoe_eq]
    have hyear₁ : checked (era * 400) = some (era * 400) := checked_of (by omega) (by omega)
    have hyear₂ : checked (yoe + era * 400) = some (era * 400 + yoe) := by
      rw [checked_of (by omega) (by omega), Int.add_comm]
    have hyoeDiv : ∀ b, yoe.tdiv b = yoe / b := fun b => Int.tdiv_eq_ediv_of_nonneg hyoe0
    have hd₁ : checked (365 * yoe) = some (365 * yoe) := checked_of (by omega) (by omega)
    have hd₂ : checked (365 * yoe + yoe / 4) = some (365 * yoe + yoe / 4) := checked_of (by omega) (by omega)
    have hd₃ : checked (365 * yoe + yoe / 4 - yoe / 100) = some (365 * yoe + yoe / 4 - yoe / 100) :=
      checked_of (by omega) (by omega)
    have hd₄ : checked (doe - (365 * yoe + yoe / 4 - yoe / 100)) = some k := by
      rw [hdoy_eq, checked_of (by omega) (by omega)]
    unfold civilFromDays
    rw [bind_of hz, bind_of he, htdiv]
    dsimp only
    rw [bind_of hdays, bind_of hdoe', hdoeDiv, bind_of hs₁, hdoeDiv, bind_of hs₂, hdoeDiv, bind_of hs₃, hyoe',
      bind_of hyear₁, bind_of hyear₂, bind_of hd₁, hyoeDiv, bind_of hd₂, hyoeDiv, bind_of hd₃, bind_of hd₄]
    exact monthAndDay_eq hk0 hk365 (by omega) (by omega)
  · rw [number_marchDate hk0 hk365]
    omega

/-! ### Reading the texts -/

theorem readDate_dateText (d : Date) {rest : Text} (h : Ends rest) :
    readDate (dateText d.year d.month d.day ++ rest) = some (d, rest) := by
  have hsep : ∀ t : Text, Ends ('-' :: t) := fun t => ends_cons rfl
  have hy := integer_signed 4 d.year (hsep (padded 2 d.month ++ ('-' :: (padded 2 d.day ++ rest))))
  have hm := number_padded 2 d.month (hsep (padded 2 d.day ++ rest))
  have hd := number_padded 2 d.day h
  rw [readDate, dateText, List.append_assoc, List.cons_append, List.append_assoc, List.cons_append, bind_of hy]
  dsimp only
  rw [bind_of (expect_cons '-' _), bind_of hm]
  dsimp only
  rw [bind_of (expect_cons '-' _), bind_of hd]

theorem readFraction_fractionText {us : ℕ} (h : us < 1000000) : readFraction (fractionText us) = some us := by
  unfold fractionText
  split_ifs with hus
  · have hread := number_padded 6 us ends_nil
    rw [List.append_nil] at hread
    have hlen : ('.' :: padded 6 us).length = 7 := by
      rw [List.length_cons, length_padded (by decide) h]
    rw [readFraction, if_neg (List.cons_ne_nil _ _), bind_of (expect_cons '.' _), bind_of hread]
    exact if_pos ⟨hlen, rfl⟩
  · obtain rfl : us = 0 := by omega
    rfl

theorem ends_fractionText (us : ℕ) : Ends (fractionText us) := by
  unfold fractionText
  split_ifs
  · exact ends_cons rfl
  · exact ends_nil

/-- A moment that is written is read back. -/
theorem readTimestamp_eq (m : Moment) (h : m.micro < 1000000) :
    readTimestamp (dateText m.date.year m.date.month m.date.day ++ ' ' ::
      (clockText m.hour m.minute m.second ++ fractionText m.micro)) = some m := by
  have hsep : ∀ t : Text, Ends (':' :: t) := fun t => ends_cons rfl
  have hspace : Ends (' ' :: (clockText m.hour m.minute m.second ++ fractionText m.micro)) := ends_cons rfl
  have hdate := readDate_dateText m.date hspace
  have hh := number_padded 2 m.hour (hsep (padded 2 m.minute ++ ':' :: (padded 2 m.second ++ fractionText m.micro)))
  have hmi := number_padded 2 m.minute (hsep (padded 2 m.second ++ fractionText m.micro))
  have hs := number_padded 2 m.second (ends_fractionText m.micro)
  have hfrac := readFraction_fractionText h
  rw [readTimestamp, bind_of hdate]
  dsimp only
  rw [bind_of (expect_cons ' ' _), clockText, signed_natCast, signed_natCast, signed_natCast, List.append_assoc,
    List.cons_append, List.append_assoc, List.cons_append, bind_of hh]
  dsimp only
  rw [bind_of (expect_cons ':' _), bind_of hmi]
  dsimp only
  rw [bind_of (expect_cons ':' _), bind_of hs]
  dsimp only
  rw [bind_of hfrac]

/-! ### Rendering -/

/-- The seconds and the microseconds of a value are those of its instant, rounded down to the microsecond. -/
theorem splitUnitSinceEpoch_eq (unit : TimeUnit) (t : I64) :
    ∃ secs us, splitUnitSinceEpoch unit t = some (secs, us) ∧ us < 1000000 ∧ -2 ^ 63 ≤ secs ∧ secs < 2 ^ 63 ∧
      secs * 1000000 + us = t * 1000000 / perSecond unit := by
  obtain ⟨t, h, h'⟩ := t
  dsimp only
  cases unit with
  | second => exact ⟨t, 0, rfl, by decide, h, h', by rw [perSecond]; omega⟩
  | millisecond =>
    refine ⟨t / 1000, asU32 (t % 1000 * 1000), ?_, ?_⟩
    · rw [splitUnitSinceEpoch, checked_of (by omega) (by omega)]
      rfl
    · rw [asU32_of (by omega) (by omega), perSecond]
      omega
  | microsecond =>
    refine ⟨t / 1000000, asU32 (t % 1000000), rfl, ?_⟩
    rw [asU32_of (by omega) (by omega), perSecond]
    omega
  | nanosecond =>
    refine ⟨t / 1000000000, asU32 ((t % 1000000000).tdiv 1000), rfl, ?_⟩
    rw [Int.tdiv_eq_ediv_of_nonneg (by omega), asU32_of (by omega) (by omega), perSecond]
    omega

theorem renderTimestamp_eq (unit : TimeUnit) (t : I64) :
    ∃ m : Moment, renderTimestamp unit t = some (dateText m.date.year m.date.month m.date.day ++ ' ' ::
      (clockText m.hour m.minute m.second ++ fractionText m.micro)) ∧ m.Valid ∧
        m.micros = t * 1000000 / perSecond unit := by
  obtain ⟨secs, us, hsplit, hus, hlow, hhigh, hmicros⟩ := splitUnitSinceEpoch_eq unit t
  obtain ⟨date, hcivil, hvalid, hnumber⟩ := @civilFromDays_eq (secs / 86400) (by omega) (by omega)
  obtain ⟨tod, htod⟩ : ∃ tod, tod = secs % 86400 := ⟨_, rfl⟩
  have h0 : 0 ≤ tod := by omega
  refine ⟨⟨date, (tod / 3600).toNat, (tod % 3600 / 60).toNat, (tod % 60).toNat, us⟩, ?_, ?_, ?_⟩
  · rw [renderTimestamp, bind_of hsplit]
    dsimp only
    rw [bind_of hcivil]
    dsimp only
    rw [← htod, Int.tdiv_eq_ediv_of_nonneg h0, Int.tmod_eq_emod_of_nonneg h0, Int.tmod_eq_emod_of_nonneg h0,
      Int.tdiv_eq_ediv_of_nonneg (by omega), Int.toNat_of_nonneg (by omega), Int.toNat_of_nonneg (by omega),
      Int.toNat_of_nonneg (by omega)]
  · refine ⟨hvalid, ?_, ?_, ?_, hus⟩
    · show (tod / 3600).toNat < 24
      omega
    · show (tod % 3600 / 60).toNat < 60
      omega
    · show (tod % 60).toNat < 60
      omega
  · simp only [Moment.micros]
    omega

/-- **Dates and timestamps are those of the calendar**: of every 32-bit number of days the one date with this number is
written, and of every 64-bit timestamp the one moment that is its instant rounded down to the microsecond. No step of the
arithmetic overflows. -/
theorem renders_gregorian (days : I32) (unit : TimeUnit) (t : I64) :
    (∃ d : Date, civilFromDays days = some (d.year, d.month, d.day) ∧ d.Valid ∧ d.number = days ∧
      (∀ d' : Date, d'.Valid → d'.number = days → d' = d) ∧
      ∃ text, renderDate days = some text ∧ readDate text = some (d, [])) ∧
    ∃ m : Moment, m.Valid ∧ m.micros = t * 1000000 / perSecond unit ∧
      (∀ m' : Moment, m'.Valid → m'.micros = t * 1000000 / perSecond unit → m' = m) ∧
      ∃ text, renderTimestamp unit t = some text ∧ readTimestamp text = some m := by
  refine ⟨?_, ?_⟩
  · obtain ⟨days, h, h'⟩ := days
    obtain ⟨d, hcivil, hvalid, hnumber⟩ := @civilFromDays_eq days (by omega) (by omega)
    have hread := readDate_dateText d ends_nil
    rw [List.append_nil] at hread
    exact ⟨d, hcivil, hvalid, hnumber, fun d' hd' hn => Date.number_inj hd' hvalid (hn.trans hnumber.symm),
      _, bind_of hcivil _, hread⟩
  · obtain ⟨m, htext, hvalid, hmicros⟩ := renderTimestamp_eq unit t
    exact ⟨m, hvalid, hmicros, fun m' hm' hn => Moment.micros_inj hm' hvalid (hn.trans hmicros.symm), _, htext,
      readTimestamp_eq m hvalid.micro⟩

example : renderTimestamp .nanosecond (-1) = some "1969-12-31 23:59:59.999999".toList := by decide +kernel

/-! ### The texts apart -/

theorem isSome_renderDate (days : I32) : (renderDate days).isSome := by
  obtain ⟨⟨_, _, _, _, _, text, htext, _⟩, _⟩ := renders_gregorian days .second ⟨0, by decide⟩
  rw [htext]
  rfl

theorem isSome_renderTimestamp (unit : TimeUnit) (t : I64) : (renderTimestamp unit t).isSome := by
  obtain ⟨m, htext, _⟩ := renderTimestamp_eq unit t
  rw [htext]
  rfl

/-- No two dates are written alike. -/
theorem renderDate_inj {a b : I32} (h : renderDate a = renderDate b) : a = b := by
  obtain ⟨⟨d, _, _, hnumber, _, text, htext, hread⟩, _⟩ := renders_gregorian a .second ⟨0, by decide⟩
  obtain ⟨⟨d', _, _, hnumber', _, text', htext', hread'⟩, _⟩ := renders_gregorian b .second ⟨0, by decide⟩
  obtain rfl : text = text' := Option.some.inj (htext.symm.trans (h.trans htext'))
  obtain ⟨rfl, -⟩ := Prod.mk.inj (Option.some.inj (hread.symm.trans hread'))
  exact Subtype.ext (hnumber.symm.trans hnumber')

/-- **Timestamps are written alike** just where they are in one microsecond. -/
theorem renderTimestamp_eq_iff {unit unit' : TimeUnit} {t t' : I64} :
    renderTimestamp unit t = renderTimestamp unit' t' ↔ t * 1000000 / perSecond unit = t' * 1000000 / perSecond unit' := by
  obtain ⟨m, htext, hvalid, hmicros⟩ := renderTimestamp_eq unit t
  obtain ⟨m', htext', hvalid', hmicros'⟩ := renderTimestamp_eq unit' t'
  rw [htext, htext', ← hmicros, ← hmicros']
  constructor
  · intro h
    have hread := readTimestamp_eq m hvalid.micro
    rw [Option.some.inj h, readTimestamp_eq m' hvalid'.micro] at hread
    rw [Option.some.inj hread]
  · intro h
    rw [Moment.micros_inj hvalid hvalid' h]

/-- The hours, minutes, seconds and microseconds of a text. -/
def readTime (t : Text) : Option (ℤ × ℤ × ℤ × ℕ) := do
  let (h, t) ← integer t
  let (mi, t) ← integer (← expect ':' t)
  let (s, t) ← integer (← expect ':' t)
  let us ← readFraction t
  some (h, mi, s, us)

theorem readTime_eq (h mi s : ℤ) {us : ℕ} (hus : us < 1000000) :
    readTime (clockText h mi s ++ fractionText us) = some (h, mi, s, us) := by
  have hsep : ∀ t : Text, Ends (':' :: t) := fun t => ends_cons rfl
  have hh := integer_signed 2 h (hsep (signed 2 mi ++ ':' :: (signed 2 s ++ fractionText us)))
  have hmi := integer_signed 2 mi (hsep (signed 2 s ++ fractionText us))
  have hs := integer_signed 2 s (ends_fractionText us)
  rw [readTime, clockText, List.append_assoc, List.cons_append, List.append_assoc, List.cons_append, bind_of hh]
  dsimp only
  rw [bind_of (expect_cons ':' _), bind_of hmi]
  dsimp only
  rw [bind_of (expect_cons ':' _), bind_of hs]
  dsimp only
  rw [bind_of (readFraction_fractionText hus)]

theorem renderTime_eq (unit : TimeUnit) (t : I64) :
    ∃ (secs : ℤ) (us : ℕ), renderTime unit t = some (clockText (secs.tdiv 3600) ((secs.tmod 3600).tdiv 60) (secs.tmod 60) ++
      fractionText us) ∧ us < 1000000 ∧ secs * 1000000 + us = t * 1000000 / perSecond unit := by
  obtain ⟨secs, us, hsplit, hus, _, _, hmicros⟩ := splitUnitSinceEpoch_eq unit t
  exact ⟨secs, us, by rw [renderTime, bind_of hsplit], hus, hmicros⟩

theorem isSome_renderTime (unit : TimeUnit) (t : I64) : (renderTime unit t).isSome := by
  obtain ⟨secs, us, htext, _⟩ := renderTime_eq unit t
  rw [htext]
  rfl

/-- **Times of day are written alike** just where they are in one microsecond. -/
theorem renderTime_eq_iff {unit unit' : TimeUnit} {t t' : I64} :
    renderTime unit t = renderTime unit' t' ↔ t * 1000000 / perSecond unit = t' * 1000000 / perSecond unit' := by
  obtain ⟨secs, us, htext, hus, hmicros⟩ := renderTime_eq unit t
  obtain ⟨secs', us', htext', hus', hmicros'⟩ := renderTime_eq unit' t'
  rw [htext, htext', ← hmicros, ← hmicros']
  constructor
  · intro h
    have hread := readTime_eq (secs.tdiv 3600) ((secs.tmod 3600).tdiv 60) (secs.tmod 60) hus
    rw [Option.some.inj h, readTime_eq _ _ _ hus'] at hread
    simp only [Option.some.injEq, Prod.mk.injEq] at hread
    obtain ⟨hh, hmi, hs, rfl⟩ := hread
    -- a number is put together from its quotients and its last remainder
    have hminutes : secs.tmod 3600 = secs'.tmod 3600 := by
      have hmod := Int.mul_tdiv_add_tmod (secs.tmod 3600) 60
      have hmod' := Int.mul_tdiv_add_tmod (secs'.tmod 3600) 60
      rw [Int.tmod_tmod_of_dvd _ (by decide)] at hmod hmod'
      rw [← hmod, ← hmod', hmi, hs]
    have hsecs : secs = secs' := calc
      secs = 3600 * secs.tdiv 3600 + secs.tmod 3600 := (Int.mul_tdiv_add_tmod secs 3600).symm
      _ = 3600 * secs'.tdiv 3600 + secs'.tmod 3600 := by rw [hh, hminutes]
      _ = secs' := Int.mul_tdiv_add_tmod secs' 3600
    rw [hsecs]
  · intro h
    obtain rfl : us = us' := by omega
    obtain rfl : secs = secs' := by omega
    rfl

end Temporal

end Latiq.EngineDuckdb

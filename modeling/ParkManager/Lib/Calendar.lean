import Mathlib.Algebra.Ring.Int.Defs
import Mathlib.Order.Monotone.Basic
import Mathlib.Tactic.IntervalCases
import Mathlib.Tactic.SplitIfs

/-!
# The Gregorian calendar

Dates, and days counted from 1970-01-01.  A year is counted from March, so that the
leap day comes last in it, and 400 years form an era of 146097 days.

Proved here:

* `daysBefore_yearOfEra`: the year of a day of the era;
* `toDays_ofDays`: the date of a day gives the day back;
* `ofDays_ok`: the date of a day has a month of the year and a day of the month.
-/

namespace Calendar

structure Date where
  year : ℤ
  month : ℕ
  day : ℕ
  deriving DecidableEq, Repr

def IsLeap (year : ℤ) : Prop := year % 4 = 0 ∧ (year % 100 ≠ 0 ∨ year % 400 = 0)

instance : DecidablePred IsLeap := fun year =>
  inferInstanceAs (Decidable (year % 4 = 0 ∧ (year % 100 ≠ 0 ∨ year % 400 = 0)))

def lastDay (year : ℤ) (month : ℕ) : ℕ :=
  if month = 2 then if IsLeap year then 29 else 28
  else if month = 4 ∨ month = 6 ∨ month = 9 ∨ month = 11 then 30
  else 31

/-- The month and the day exist. -/
structure Date.Ok (d : Date) : Prop where
  month : 1 ≤ d.month ∧ d.month ≤ 12
  day : 1 ≤ d.day ∧ d.day ≤ lastDay d.year d.month

instance (d : Date) : Decidable d.Ok :=
  decidable_of_iff ((1 ≤ d.month ∧ d.month ≤ 12) ∧ 1 ≤ d.day ∧ d.day ≤ lastDay d.year d.month)
    ⟨fun h => ⟨h.1, h.2⟩, fun h => ⟨h.1, h.2⟩⟩

/-- The days of an era before its year `yoe`. -/
def daysBefore (yoe : ℕ) : ℕ := 365 * yoe + yoe / 4 - yoe / 100

/-- The days of a year before its month `mp`, counted from March. -/
def daysBeforeMonth (mp : ℕ) : ℕ := (153 * mp + 2) / 5

def toDays (date : Date) : ℤ :=
  let y := if date.month ≤ 2 then date.year - 1 else date.year
  let era := y / 400
  let yoe := (y - era * 400).toNat
  let mp := if 2 < date.month then date.month - 3 else date.month + 9
  era * 146097 + daysBefore yoe + daysBeforeMonth mp + date.day - 1 - 719468

/-- A day of the era without the leap days before it, so that 365 make a year. -/
def withoutLeapDays (doe : ℕ) : ℕ := doe - doe / 1460 + doe / 36524 - doe / 146096

def yearOfEra (doe : ℕ) : ℕ := withoutLeapDays doe / 365

def ofDays (days : ℤ) : Date :=
  let z := days + 719468
  let era := z / 146097
  let doe := (z - era * 146097).toNat
  let yoe := yearOfEra doe
  let doy := doe - daysBefore yoe
  let mp := (5 * doy + 2) / 153
  let month := if mp < 10 then mp + 3 else mp - 9
  { year := yoe + era * 400 + if month ≤ 2 then 1 else 0
    month := month
    day := doy - daysBeforeMonth mp + 1 }

/-! ## The year of a day -/

theorem withoutLeapDays_mono : Monotone withoutLeapDays := by
  refine monotone_nat_of_le_succ fun doe => ?_
  have hera : ∀ n, n / 146096 = n / 36524 / 4 := fun n => (Nat.div_div_eq_div_mul n 36524 4).symm
  unfold withoutLeapDays
  rw [hera, hera]
  omega

theorem le_withoutLeapDays_daysBefore :
    ∀ yoe < 400, 365 * yoe ≤ withoutLeapDays (daysBefore yoe) := by
  decide +kernel

theorem withoutLeapDays_lt :
    ∀ yoe < 399, withoutLeapDays (daysBefore (yoe + 1) - 1) < 365 * (yoe + 1) := by
  decide +kernel

/-- A day of the era lies in its year; the last year has the leap day of the era. -/
theorem daysBefore_yearOfEra {doe : ℕ} (h : doe < 146097) :
    yearOfEra doe ≤ 399 ∧ daysBefore (yearOfEra doe) ≤ doe ∧
      (yearOfEra doe < 399 → doe < daysBefore (yearOfEra doe + 1)) := by
  have hlast : withoutLeapDays doe ≤ 145999 :=
    withoutLeapDays_mono (show doe ≤ 146096 by omega)
  have hyear : yearOfEra doe ≤ 399 := by unfold yearOfEra; omega
  refine ⟨hyear, ?_, fun hlt => ?_⟩
  · by_contra hn
    have hpos : yearOfEra doe ≠ 0 := fun h0 => hn (by rw [h0]; exact Nat.zero_le _)
    obtain ⟨yoe, hy⟩ := Nat.exists_eq_add_one_of_ne_zero hpos
    have hle : withoutLeapDays doe ≤ withoutLeapDays (daysBefore (yoe + 1) - 1) :=
      withoutLeapDays_mono (by rw [hy] at hn; omega)
    have := withoutLeapDays_lt yoe (by omega)
    unfold yearOfEra at hy
    omega
  · by_contra hn
    have hle : withoutLeapDays (daysBefore (yearOfEra doe + 1)) ≤ withoutLeapDays doe :=
      withoutLeapDays_mono (not_lt.mp hn)
    have := le_withoutLeapDays_daysBefore (yearOfEra doe + 1) (by omega)
    have hdef : yearOfEra doe = withoutLeapDays doe / 365 := rfl
    omega

theorem daysBefore_succ_le (yoe : ℕ) :
    daysBefore (yoe + 1) ≤ daysBefore yoe + 366 ∧
      (daysBefore yoe + 366 ≤ daysBefore (yoe + 1) → IsLeap (yoe + 1)) := by
  have h₄ : (yoe + 1) / 4 = _ := Nat.succ_div
  have h₁₀₀ : (yoe + 1) / 100 = _ := Nat.succ_div
  unfold daysBefore IsLeap
  split_ifs at h₄ h₁₀₀ <;> omega

/-- The day of the year, from 0; the last one only before the March of a leap year. -/
theorem dayOfYear_le {doe : ℕ} (h : doe < 146097) :
    doe - daysBefore (yearOfEra doe) ≤ 365 ∧
      (doe - daysBefore (yearOfEra doe) = 365 → IsLeap (yearOfEra doe + 1)) := by
  obtain ⟨hyear, hle, hlt⟩ := daysBefore_yearOfEra h
  generalize yearOfEra doe = yoe at hyear hle hlt
  by_cases hlast : yoe = 399
  · subst hlast
    have hdays : daysBefore 399 = 145731 := by decide
    exact ⟨by omega, fun _ => by decide⟩
  · obtain ⟨hsucc, hleap⟩ := daysBefore_succ_le yoe
    have := hlt (by omega)
    exact ⟨by omega, fun hdoy => hleap (by omega)⟩

/-! ## The month of a day -/

theorem daysBeforeMonth_le {doy : ℕ} (h : doy ≤ 365) :
    (5 * doy + 2) / 153 ≤ 11 ∧ daysBeforeMonth ((5 * doy + 2) / 153) ≤ doy := by
  unfold daysBeforeMonth
  omega

/-- The day of the month fits in the month `mp`, counted from March. -/
theorem dayOfMonth_le {doy : ℕ} (h : doy ≤ 365) {year : ℤ} (hleap : doy = 365 → IsLeap year) :
    let mp := (5 * doy + 2) / 153
    doy - daysBeforeMonth mp + 1 ≤ lastDay year (if mp < 10 then mp + 3 else mp - 9) := by
  intro mp
  have hmp : mp ≤ 11 := (daysBeforeMonth_le h).1
  have hdef : mp = (5 * doy + 2) / 153 := rfl
  clear_value mp
  unfold daysBeforeMonth lastDay
  -- 31, 30, 31, 30, 31 days from March and from August, 31 and at most 29 from January
  by_cases hyear : IsLeap year
  · simp only [hyear, ↓reduceIte]
    interval_cases mp <;> split_ifs <;> omega
  · have hdoy : doy ≠ 365 := fun hlast => hyear (hleap hlast)
    simp only [hyear, ↓reduceIte]
    interval_cases mp <;> split_ifs <;> omega

/-! ## The date of a day -/

/-- The date of the day `doy` of the year `yoe` of an era. -/
def dateOf (era : ℤ) (yoe doy : ℕ) : Date :=
  let mp := (5 * doy + 2) / 153
  let month := if mp < 10 then mp + 3 else mp - 9
  { year := yoe + era * 400 + if month ≤ 2 then 1 else 0
    month := month
    day := doy - daysBeforeMonth mp + 1 }

theorem exists_ofDays (days : ℤ) :
    ∃ (era : ℤ) (yoe doy : ℕ), ofDays days = dateOf era yoe doy ∧
      days + 719468 = era * 146097 + daysBefore yoe + doy ∧ yoe ≤ 399 ∧ doy ≤ 365 ∧
      (doy = 365 → IsLeap (yoe + 1)) := by
  have hdoe : (days + 719468 - (days + 719468) / 146097 * 146097).toNat < 146097 := by omega
  obtain ⟨hyear, hle, -⟩ := daysBefore_yearOfEra hdoe
  obtain ⟨hdoy, hleap⟩ := dayOfYear_le hdoe
  exact ⟨_, _, _, rfl, by omega, hyear, hdoy, hleap⟩

theorem month_of_march {mp : ℕ} (h : mp ≤ 11) :
    let month := if mp < 10 then mp + 3 else mp - 9
    1 ≤ month ∧ month ≤ 12 ∧ (if 2 < month then month - 3 else month + 9) = mp := by
  intro month
  have hmonth : month = if mp < 10 then mp + 3 else mp - 9 := rfl
  clear_value month
  split_ifs at hmonth ⊢ <;> omega

theorem toDays_dateOf {era : ℤ} {yoe doy : ℕ} (hyoe : yoe ≤ 399) (hdoy : doy ≤ 365) :
    toDays (dateOf era yoe doy) = era * 146097 + daysBefore yoe + doy - 719468 := by
  obtain ⟨hmp, hle⟩ := daysBeforeMonth_le hdoy
  obtain ⟨-, -, hback⟩ := month_of_march hmp
  have hyear : (if (dateOf era yoe doy).month ≤ 2 then (dateOf era yoe doy).year - 1
      else (dateOf era yoe doy).year) = yoe + era * 400 := by
    simp only [dateOf]
    split_ifs <;> omega
  have hera : (yoe + era * 400) / 400 = era := by omega
  have hof : (yoe + era * 400 - era * 400).toNat = yoe := by omega
  have hmonth : (if 2 < (dateOf era yoe doy).month then (dateOf era yoe doy).month - 3
      else (dateOf era yoe doy).month + 9) = (5 * doy + 2) / 153 := hback
  have hday : (dateOf era yoe doy).day = doy - daysBeforeMonth ((5 * doy + 2) / 153) + 1 := rfl
  simp only [toDays, hyear, hera, hof, hmonth, hday]
  omega

/-- The date of a day gives the day back. -/
theorem toDays_ofDays (days : ℤ) : toDays (ofDays days) = days := by
  obtain ⟨era, yoe, doy, he, hdays, hyoe, hdoy, -⟩ := exists_ofDays days
  rw [he, toDays_dateOf hyoe hdoy]
  omega

theorem isLeap_add_era (year era : ℤ) : IsLeap (year + era * 400) ↔ IsLeap year := by
  unfold IsLeap
  omega

/-- The date of a day is one of the calendar. -/
theorem ofDays_ok (days : ℤ) : (ofDays days).Ok := by
  obtain ⟨era, yoe, doy, he, -, -, hdoy, hleap⟩ := exists_ofDays days
  obtain ⟨hmp, -⟩ := daysBeforeMonth_le hdoy
  obtain ⟨h₁, h₁₂, -⟩ := month_of_march hmp
  rw [he]
  refine ⟨⟨h₁, h₁₂⟩, Nat.le_add_left 1 _, dayOfMonth_le hdoy fun hlast => ?_⟩
  -- the leap day is in February, the second month of the year that is counted from January
  have hfeb : (dateOf era yoe doy).year = yoe + 1 + era * 400 := by
    subst hlast
    simp only [dateOf]
    norm_num
    omega
  have := (isLeap_add_era (yoe + 1) era).mpr (hleap hlast)
  rwa [← hfeb] at this

end Calendar

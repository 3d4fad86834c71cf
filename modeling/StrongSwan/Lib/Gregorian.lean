import Mathlib

/-!
# The proleptic Gregorian calendar

Days are counted from 1970-01-01, which has the number 0. Months and days of a month begin at 0.

* `dayNumber`: the number of a date, `ofDayNumber`: the date of a number; **`ofDayNumber_spec`**.
-/

namespace Gregorian

def isLeap (year : ℤ) : Bool := year % 4 = 0 ∧ (year % 100 ≠ 0 ∨ year % 400 = 0)

/-- The days of a year -/
def yearLength (year : ℤ) : ℤ := if isLeap year then 366 else 365

/-- The days of a month -/
def monthLength (year : ℤ) : ℕ → ℤ
  | 1 => if isLeap year then 29 else 28
  | 3 | 5 | 8 | 10 => 30
  | _ => 31

/-- The days of a year before a month -/
def monthStart (year : ℤ) : ℕ → ℤ
  | 0 => 0
  | month + 1 => monthStart year month + monthLength year month

/-- The number of the first day of a year -/
def yearStart (year : ℤ) : ℤ :=
  365 * (year - 1970) + ((year - 1) / 4 - (year - 1) / 100 + (year - 1) / 400 - 477)

structure Date where
  year : ℤ
  month : ℕ
  day : ℕ
  deriving DecidableEq, Repr

namespace Date

variable (date : Date)

/-- The month is one of twelve, and the day is in it. -/
structure Valid : Prop where
  month : date.month < 12
  day : (date.day : ℤ) < monthLength date.year date.month

def dayNumber : ℤ := yearStart date.year + monthStart date.year date.month + date.day

def next : Date :=
  if (date.day + 1 : ℤ) < monthLength date.year date.month then { date with day := date.day + 1 }
  else if date.month + 1 < 12 then { date with month := date.month + 1, day := 0 }
  else { year := date.year + 1, month := 0, day := 0 }

end Date

/-! ## Years -/

theorem isLeap_iff (year : ℤ) :
    isLeap year = true ↔ year % 4 = 0 ∧ (year % 100 ≠ 0 ∨ year % 400 = 0) := decide_eq_true_iff

theorem yearStart_succ (year : ℤ) : yearStart (year + 1) = yearStart year + yearLength year := by
  have hiff := isLeap_iff year
  unfold yearStart yearLength
  by_cases hleap : isLeap year = true
  · rw [if_pos hleap]
    have hyear := hiff.1 hleap
    omega
  · rw [if_neg hleap]
    have hyear := mt hiff.2 hleap
    omega

theorem monthStart_twelve (year : ℤ) : monthStart year 12 = yearLength year := by
  simp only [monthStart, monthLength, yearLength]
  split_ifs <;> rfl

theorem monthLength_mem (year : ℤ) (month : ℕ) :
    28 ≤ monthLength year month ∧ monthLength year month ≤ 31 := by
  unfold monthLength
  split <;> (try split) <;> omega

theorem monthStart_mono (year : ℤ) : Monotone (monthStart year) := by
  refine monotone_nat_of_le_succ fun month => ?_
  have hlength := (monthLength_mem year month).1
  rw [monthStart]
  omega

theorem dayNumber_mem {date : Date} (h : date.Valid) :
    yearStart date.year ≤ date.dayNumber ∧ date.dayNumber < yearStart (date.year + 1) := by
  have hmonth := h.month
  have hday := h.day
  have hnonneg : 0 ≤ monthStart date.year date.month := monthStart_mono _ (Nat.zero_le _)
  have hle : monthStart date.year (date.month + 1) ≤ monthStart date.year 12 :=
    monthStart_mono _ hmonth
  rw [monthStart_twelve, monthStart] at hle
  rw [yearStart_succ, Date.dayNumber]
  omega

/-! ## Dates of numbers -/

/-- The year of a day, and the days before it in the year. Cycles have 400, 100, 4 and 1 years. -/
def yearOf (number : ℤ) : ℤ × ℤ :=
  let days := number + 719162
  let era := days / 146097
  let days := days % 146097
  let century := min (days / 36524) 3
  let days := days - 36524 * century
  let cycle := days / 1461
  let days := days % 1461
  let rest := min (days / 365) 3
  (400 * era + 100 * century + 4 * cycle + rest + 1, days - 365 * rest)

/-- The month of a day of a year, and the days before it in the month, with the months left -/
def monthOf (year : ℤ) : ℕ → ℕ → ℤ → ℕ × ℤ
  | 0, month, days => (month, days)
  | left + 1, month, days =>
    if days < monthLength year month then (month, days)
    else monthOf year left (month + 1) (days - monthLength year month)

def ofDayNumber (number : ℤ) : Date :=
  let (year, days) := yearOf number
  let (month, days) := monthOf year 11 0 days
  ⟨year, month, days.toNat⟩

/-- The day of a rest year in a cycle of a century of an era. -/
theorem year_of_cycles {number era century cycle rest day : ℤ}
    (hsum : number + 719162 = 146097 * era + 36524 * century + 1461 * cycle + day)
    (hcentury : 0 ≤ century ∧ century ≤ 3) (hcycle : 0 ≤ cycle ∧ cycle ≤ 24)
    (hrest : 0 ≤ rest ∧ rest ≤ 3) (hbelow : century ≠ 3 → 1461 * cycle + day < 36524)
    (hday : 365 * rest ≤ day ∧ day < 1461 ∧ (rest ≠ 3 → day < 365 * rest + 365)) :
    0 ≤ day - 365 * rest ∧
      day - 365 * rest < yearLength (400 * era + 100 * century + 4 * cycle + rest + 1) ∧
      yearStart (400 * era + 100 * century + 4 * cycle + rest + 1) + (day - 365 * rest) = number := by
  have hiff := isLeap_iff (400 * era + 100 * century + 4 * cycle + rest + 1)
  unfold yearStart yearLength
  -- the quotients of the year before
  have hfour : (400 * era + 100 * century + 4 * cycle + rest + 1 - 1) / 4 =
      100 * era + 25 * century + cycle := by omega
  have hhundred : (400 * era + 100 * century + 4 * cycle + rest + 1 - 1) / 100 =
      4 * era + century := by omega
  have hfourhundred : (400 * era + 100 * century + 4 * cycle + rest + 1 - 1) / 400 = era := by omega
  rw [hfour, hhundred, hfourhundred]
  refine ⟨by omega, ?_, by omega⟩
  split_ifs with hleap
  · omega
  · -- the last cycle of a century may have no leap year
    rw [hiff] at hleap
    have hshort : rest = 3 → day < 1460 := by
      intro hthree
      have hcycle24 : cycle = 24 := by
        by_contra hne
        exact hleap ⟨by omega, .inl (by omega)⟩
      have hcentury3 : century ≠ 3 := fun heq => hleap ⟨by omega, .inr (by omega)⟩
      have hless := hbelow hcentury3
      omega
    by_cases hthree : rest = 3
    · have hlt := hshort hthree
      omega
    · omega

theorem yearOf_spec (number : ℤ) :
    0 ≤ (yearOf number).2 ∧ (yearOf number).2 < yearLength (yearOf number).1 ∧
      yearStart (yearOf number).1 + (yearOf number).2 = number := by
  unfold yearOf
  exact year_of_cycles (by omega) (by omega) (by omega) (by omega) (by omega) (by omega)

theorem monthOf_spec (year : ℤ) (left month : ℕ) {days : ℤ} (hdays : 0 ≤ days)
    (hlt : monthStart year month + days < monthStart year (month + left + 1)) :
    (monthOf year left month days).1 ≤ month + left ∧
      0 ≤ (monthOf year left month days).2 ∧
      (monthOf year left month days).2 < monthLength year (monthOf year left month days).1 ∧
      monthStart year (monthOf year left month days).1 + (monthOf year left month days).2 =
        monthStart year month + days := by
  induction left generalizing month days with
  | zero =>
    refine ⟨le_rfl, hdays, ?_, rfl⟩
    simp only [monthOf, monthStart] at hlt ⊢
    omega
  | succ left ih =>
    unfold monthOf
    by_cases hin : days < monthLength year month
    · rw [if_pos hin]
      exact ⟨Nat.le_add_right _ _, hdays, hin, rfl⟩
    · rw [if_neg hin]
      have hstart : monthStart year (month + 1) = monthStart year month + monthLength year month := rfl
      have hend : month + 1 + left + 1 = month + (left + 1) + 1 := by omega
      have hrest : 0 ≤ days - monthLength year month := by omega
      obtain ⟨hle, hnonneg, hday, heq⟩ := ih (month + 1) hrest (by rw [hstart, hend]; omega)
      exact ⟨by omega, hnonneg, hday, by omega⟩

theorem ofDayNumber_spec (number : ℤ) :
    (ofDayNumber number).Valid ∧ (ofDayNumber number).dayNumber = number := by
  obtain ⟨hnonneg, hlt, hyear⟩ := yearOf_spec number
  have hmonth := monthOf_spec (yearOf number).1 11 0 hnonneg (by
    rw [monthStart_twelve, monthStart]
    omega)
  obtain ⟨hle, hday, hdaylt, heq⟩ := hmonth
  have hcast := Int.toNat_of_nonneg hday
  refine ⟨⟨Nat.lt_succ_of_le hle, ?_⟩, ?_⟩
  · simp only [ofDayNumber, hcast]
    exact hdaylt
  · simp only [ofDayNumber, Date.dayNumber, hcast]
    rw [monthStart] at heq
    omega

end Gregorian

import Mathlib

/-! The calendar with leap years, for days before and after some first day: the day of a date, and the
date of a day.
-/

namespace Calendar

/-- Years with 366 days. -/
def IsLeap (year : ℤ) : Prop :=
  year % 4 = 0 ∧ (year % 100 ≠ 0 ∨ year % 400 = 0)

instance (year : ℤ) : Decidable (IsLeap year) :=
  inferInstanceAs (Decidable (_ ∧ _))

/-- The days from the first day of the year 1 to that of a year. -/
def daysBeforeYear (year : ℤ) : ℤ :=
  365 * (year - 1) + (year - 1) / 4 - (year - 1) / 100 + (year - 1) / 400

/-- The days of the months of a year. -/
def monthLengths (year : ℤ) : List ℕ :=
  [31, if IsLeap year then 29 else 28, 31, 30, 31, 30, 31, 31, 30, 31, 30, 31]

/-- The days of a year in front of a month. -/
def daysBeforeMonth (year : ℤ) (month : ℕ) : ℕ :=
  ((monthLengths year).take (month - 1)).sum

/-- A date. -/
structure Date where
  year : ℤ
  month : ℕ
  day : ℕ
deriving DecidableEq

/-- The day of a date, counted from the first day of the year 1. -/
def Date.number (date : Date) : ℤ :=
  daysBeforeYear date.year + daysBeforeMonth date.year date.month + date.day - 1

/-- The year of a day: 400 years, 100 years, 4 years and single years are taken off it, where the last of
100 years and the last of single years may be a day longer.
-/
def yearOf (number : ℤ) : ℤ :=
  let centuries := min 3 (number % 146097 / 36524)
  let rest := number % 146097 - 36524 * centuries
  400 * (number / 146097) + 100 * centuries + 4 * (rest / 1461) + min 3 (rest % 1461 / 365) + 1

/-- How many of these lengths a day is behind, and how far behind them. -/
def monthFrom : List ℕ → ℕ → ℕ × ℕ
  | [], day => (0, day)
  | length :: lengths, day =>
      if day < length then (0, day)
      else
        let (month, rest) := monthFrom lengths (day - length)
        (month + 1, rest)

/-- The date of a day. -/
def dateOf (number : ℤ) : Date :=
  let year := yearOf number
  let (month, day) := monthFrom (monthLengths year) (number - daysBeforeYear year).toNat
  ⟨year, month + 1, day + 1⟩

/-- The days in front of a year are those of 400 years, of 100 years, of 4 years and of single years. -/
theorem daysBeforeYear_split {era centuries fours years : ℤ} (century : 0 ≤ centuries ∧ centuries ≤ 3)
    (four : 0 ≤ fours ∧ fours ≤ 24) (single : 0 ≤ years ∧ years ≤ 3)
    : daysBeforeYear (400 * era + 100 * centuries + 4 * fours + years + 1)
      = 146097 * era + 36524 * centuries + 1461 * fours + 365 * years := by
  unfold daysBeforeYear
  omega

/-- The last of four years is a leap year if it is not the last of 100 years, or the last of 400 years. -/
theorem isLeap_split {era centuries fours : ℤ} (century : 0 ≤ centuries ∧ centuries ≤ 3)
    (four : 0 ≤ fours ∧ fours ≤ 24) (last : fours ≤ 23 ∨ centuries = 3)
    : IsLeap (400 * era + 100 * centuries + 4 * fours + 3 + 1) := by
  refine ⟨by omega, ?_⟩
  rcases last with inside | rfl
  · left
    omega
  · by_cases inside : fours ≤ 23
    · left
      omega
    · right
      omega

/-- A day in 400 years is a day in 100 years, in 4 years and in a year. -/
theorem yearOf_split (number : ℤ)
    : ∃ era centuries fours years day,
        (0 ≤ centuries ∧ centuries ≤ 3) ∧ (0 ≤ fours ∧ fours ≤ 24) ∧ (0 ≤ years ∧ years ≤ 3)
        ∧ number = 146097 * era + 36524 * centuries + 1461 * fours + 365 * years + day
        ∧ yearOf number = 400 * era + 100 * centuries + 4 * fours + years + 1
        ∧ 0 ≤ day ∧ day ≤ 365 ∧ (day = 365 → years = 3 ∧ (fours ≤ 23 ∨ centuries = 3)) := by
  obtain ⟨centuries, century⟩ : ∃ centuries, centuries = min 3 (number % 146097 / 36524) := ⟨_, rfl⟩
  obtain ⟨rest, behind⟩ : ∃ rest, rest = number % 146097 - 36524 * centuries := ⟨_, rfl⟩
  obtain ⟨years, single⟩ : ∃ years, years = min 3 (rest % 1461 / 365) := ⟨_, rfl⟩
  have bounds : 0 ≤ rest ∧ rest ≤ 36524 ∧ (centuries ≤ 2 → rest ≤ 36523) := by omega
  have year : yearOf number
      = 400 * (number / 146097) + 100 * centuries + 4 * (rest / 1461) + years + 1 := by
    simp only [yearOf, century, behind, single]
  refine ⟨number / 146097, centuries, rest / 1461, years, rest % 1461 - 365 * years, by omega, by omega,
    by omega, by omega, year, by omega, by omega, fun last => ?_⟩
  clear year century
  omega

/-- A day is in its year. -/
theorem yearOf_spec (number : ℤ)
    : daysBeforeYear (yearOf number) ≤ number
      ∧ number < daysBeforeYear (yearOf number) + if IsLeap (yearOf number) then 366 else 365 := by
  obtain ⟨era, centuries, fours, years, day, century, four, single, split', year, start, bound, last⟩ :=
    yearOf_split number
  rw [year, daysBeforeYear_split century four single]
  refine ⟨by omega, ?_⟩
  split
  · omega
  · rename_i common
    -- only a leap year has a day behind 365 others
    have before : day ≠ 365 := by
      intro end'
      obtain ⟨rfl, leap⟩ := last end'
      exact common (isLeap_split century four leap)
    omega

/-- A day is behind the months that are taken off it, by induction on the months. -/
theorem monthFrom_spec {lengths : List ℕ} {day : ℕ} (within : day < lengths.sum)
    (bound : ∀ length ∈ lengths, length ≤ 31)
    : (monthFrom lengths day).1 < lengths.length ∧ (monthFrom lengths day).2 < 31
      ∧ (lengths.take (monthFrom lengths day).1).sum + (monthFrom lengths day).2 = day := by
  induction lengths generalizing day with
  | nil => exact absurd within (Nat.not_lt_zero _)
  | cons length lengths ih =>
      obtain ⟨own, others⟩ := List.forall_mem_cons.mp bound
      rw [monthFrom]
      split
      · rename_i here
        exact ⟨Nat.succ_pos _, here.trans_le own, Nat.zero_add day⟩
      · rw [List.sum_cons] at within
        obtain ⟨month, rest, behind⟩ := @ih (day - length) (by omega) others
        refine ⟨Nat.succ_lt_succ month, rest, ?_⟩
        dsimp only
        rw [List.take_succ_cons, List.sum_cons]
        omega

/-- The months of a year have no more than 31 days and make up the year. -/
theorem monthLengths_spec (year : ℤ)
    : (monthLengths year).sum = (if IsLeap year then 366 else 365)
      ∧ ∀ length ∈ monthLengths year, length ≤ 31 := by
  unfold monthLengths
  split <;> decide

/-- The day of the date of a day is this day, and the date is one of the calendar. -/
theorem number_dateOf (number : ℤ)
    : (dateOf number).number = number ∧ 1 ≤ (dateOf number).month ∧ (dateOf number).month ≤ 12
      ∧ 1 ≤ (dateOf number).day ∧ (dateOf number).day ≤ 31 := by
  obtain ⟨start, within⟩ := yearOf_spec number
  obtain ⟨sum, bound⟩ := monthLengths_spec (yearOf number)
  have inside : (number - daysBeforeYear (yearOf number)).toNat < (monthLengths (yearOf number)).sum := by
    rw [sum]
    split
    · rename_i leap
      rw [if_pos leap] at within
      omega
    · rename_i common
      rw [if_neg common] at within
      omega
  obtain ⟨month, day, behind⟩ := monthFrom_spec inside bound
  have twelve : (monthLengths (yearOf number)).length = 12 := rfl
  simp only [dateOf, Date.number, daysBeforeMonth, Nat.add_sub_cancel]
  omega

end Calendar

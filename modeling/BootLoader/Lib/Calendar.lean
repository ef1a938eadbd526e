import Mathlib.Algebra.BigOperators.Intervals
import Mathlib.Algebra.Order.BigOperators.Group.Finset

/-!
# The Gregorian calendar

Days are counted from the first one of a year, the epoch. Every day from there on has one date.
-/

namespace Calendar

/-- Every fourth year, and of the centuries every fourth one. -/
def isLeap (year : Nat) : Bool := (4 ∣ year ∧ ¬100 ∣ year) ∨ 400 ∣ year

def lengthOfYear (leap : Bool) : Nat := if leap then 366 else 365

def lengthsOfMonths (leap : Bool) : List Nat :=
  [31, if leap then 29 else 28, 31, 30, 31, 30, 31, 31, 30, 31, 30, 31]

def lengthOfMonth (leap : Bool) (month : Nat) : Nat := (lengthsOfMonths leap).getD (month - 1) 0

def daysBeforeMonth (leap : Bool) (month : Nat) : Nat :=
  ((lengthsOfMonths leap).take (month - 1)).sum

def daysBeforeYear (epoch year : Nat) : Nat :=
  ∑ y ∈ Finset.Ico epoch year, lengthOfYear (isLeap y)

structure Date where
  year : Nat
  month : Nat
  day : Nat
  month_mem : month ∈ Finset.Icc 1 12
  day_mem : day ∈ Finset.Icc 1 (lengthOfMonth (isLeap year) month)

/-- The days of the year before the date. -/
def Date.dayOfYear (date : Date) : Nat :=
  daysBeforeMonth (isLeap date.year) date.month + (date.day - 1)

/-- The days from the epoch to the date. -/
def Date.number (epoch : Nat) (date : Date) : Nat :=
  daysBeforeYear epoch date.year + date.dayOfYear

variable {epoch year year' days : Nat}

/-! ## Months -/

theorem month_fits : ∀ leap : Bool, ∀ month ∈ Finset.Icc 1 12,
    daysBeforeMonth leap month + lengthOfMonth leap month ≤ lengthOfYear leap := by
  decide

theorem months_apart : ∀ leap : Bool, ∀ month ∈ Finset.Icc 1 12, ∀ month' ∈ Finset.Icc 1 12,
    month < month' →
      daysBeforeMonth leap month + lengthOfMonth leap month ≤ daysBeforeMonth leap month' := by
  decide

theorem exists_month : ∀ leap : Bool, ∀ k < lengthOfYear leap, ∃ month ∈ Finset.Icc 1 12,
    daysBeforeMonth leap month ≤ k ∧ k < daysBeforeMonth leap month + lengthOfMonth leap month := by
  decide +kernel

theorem Date.dayOfYear_lt (date : Date) : date.dayOfYear < lengthOfYear (isLeap date.year) := by
  have hfits := month_fits (isLeap date.year) date.month date.month_mem
  have hday := Finset.mem_Icc.mp date.day_mem
  unfold Date.dayOfYear
  omega

theorem Date.ext_of_dayOfYear {date date' : Date} (hyear : date.year = date'.year)
    (h : date.dayOfYear = date'.dayOfYear) : date = date' := by
  obtain ⟨year, month, day, hmonth, hday⟩ := date
  obtain ⟨year', month', day', hmonth', hday'⟩ := date'
  obtain rfl : year = year' := hyear
  have hapart := months_apart (isLeap year) month hmonth month' hmonth'
  have hapart' := months_apart (isLeap year) month' hmonth' month hmonth
  rw [Finset.mem_Icc] at hday hday'
  unfold Date.dayOfYear at h
  dsimp only at h
  obtain rfl : month = month' := by
    rcases lt_trichotomy month month' with hlt | heq | hgt
    · have := hapart hlt
      omega
    · exact heq
    · have := hapart' hgt
      omega
  obtain rfl : day = day' := by omega
  rfl

/-! ## Years -/

theorem lengthOfYear_pos (leap : Bool) : 0 < lengthOfYear leap := by
  cases leap <;> decide

@[simp] theorem daysBeforeYear_self (epoch : Nat) : daysBeforeYear epoch epoch = 0 := by
  simp [daysBeforeYear]

theorem daysBeforeYear_succ (h : epoch ≤ year) :
    daysBeforeYear epoch (year + 1) = daysBeforeYear epoch year + lengthOfYear (isLeap year) :=
  Finset.sum_Ico_succ_top h _

theorem daysBeforeYear_mono (epoch : Nat) (h : year ≤ year') :
    daysBeforeYear epoch year ≤ daysBeforeYear epoch year' :=
  Finset.sum_le_sum_of_subset (Finset.Ico_subset_Ico_right h)

theorem year_le_daysBeforeYear (h : epoch ≤ year) :
    year ≤ epoch + daysBeforeYear epoch year := by
  induction year, h using Nat.le_induction with
  | base => exact Nat.le_add_right _ _
  | succ year h ih =>
    have hlength := lengthOfYear_pos (isLeap year)
    rw [daysBeforeYear_succ h]
    omega

theorem Date.number_lt (date : Date) (h : epoch ≤ date.year) :
    date.number epoch < daysBeforeYear epoch (date.year + 1) := by
  rw [daysBeforeYear_succ h]
  exact Nat.add_lt_add_left date.dayOfYear_lt _

theorem year_le_of_days (h : daysBeforeYear epoch year ≤ days)
    (h' : days < daysBeforeYear epoch (year' + 1)) : year ≤ year' := by
  by_contra hlt
  have := daysBeforeYear_mono epoch (show year' + 1 ≤ year by omega)
  omega

theorem exists_year (epoch days : Nat) : ∃ year, epoch ≤ year ∧
    daysBeforeYear epoch year ≤ days ∧ days < daysBeforeYear epoch (year + 1) := by
  induction days with
  | zero =>
    refine ⟨epoch, le_rfl, by simp, ?_⟩
    rw [daysBeforeYear_succ le_rfl, daysBeforeYear_self, Nat.zero_add]
    exact lengthOfYear_pos _
  | succ days ih =>
    obtain ⟨year, hepoch, hle, hlt⟩ := ih
    by_cases hnext : days + 1 < daysBeforeYear epoch (year + 1)
    · exact ⟨year, hepoch, by omega, hnext⟩
    · have hlength := lengthOfYear_pos (isLeap (year + 1))
      refine ⟨year + 1, by omega, by omega, ?_⟩
      rw [daysBeforeYear_succ (by omega)]
      omega

theorem exists_date (epoch days : Nat) : ∃ date : Date, epoch ≤ date.year ∧
    date.number epoch = days := by
  obtain ⟨year, hepoch, hle, hlt⟩ := exists_year epoch days
  rw [daysBeforeYear_succ hepoch] at hlt
  obtain ⟨month, hmonth, hfrom, hto⟩ :=
    exists_month (isLeap year) (days - daysBeforeYear epoch year) (by omega)
  let day := days - daysBeforeYear epoch year - daysBeforeMonth (isLeap year) month + 1
  refine ⟨⟨year, month, day, hmonth, Finset.mem_Icc.mpr (by omega)⟩, hepoch, ?_⟩
  unfold Date.number Date.dayOfYear
  dsimp only [day]
  omega

theorem date_unique {date date' : Date} (h : epoch ≤ date.year) (h' : epoch ≤ date'.year)
    (hnumber : date.number epoch = date'.number epoch) : date = date' := by
  have hlt := date.number_lt h
  have hlt' := date'.number_lt h'
  have hle : daysBeforeYear epoch date.year ≤ date.number epoch := Nat.le_add_right _ _
  have hle' : daysBeforeYear epoch date'.year ≤ date'.number epoch := Nat.le_add_right _ _
  have hyear : date.year = date'.year :=
    Nat.le_antisymm (year_le_of_days hle (hnumber ▸ hlt')) (year_le_of_days hle' (hnumber ▸ hlt))
  refine Date.ext_of_dayOfYear hyear ?_
  unfold Date.number at hnumber
  rw [hyear] at hnumber
  omega

end Calendar

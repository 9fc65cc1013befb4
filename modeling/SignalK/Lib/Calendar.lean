import Mathlib.Tactic.IntervalCases

/-! The proleptic Gregorian calendar: days counted from 1 January of year 0, and the
date that each of them carries. -/
namespace Calendar

structure Date where
  year : Int
  month : Nat
  day : Nat
  deriving DecidableEq

def leap (y : Int) : Int :=
  if y % 4 = 0 ∧ (y % 100 ≠ 0 ∨ y % 400 = 0) then 1 else 0

/-- The first day of a year. -/
def yearStart (y : Int) : Int :=
  365 * y + (y + 3) / 4 - (y + 99) / 100 + (y + 399) / 400

/-- The days of a year before a month of it; `l` is 1 in a leap year. -/
def monthStart (l : Int) : Nat → Int
  | 0 | 1 => 0
  | 2 => 31
  | 3 => 59 + l
  | 4 => 90 + l
  | 5 => 120 + l
  | 6 => 151 + l
  | 7 => 181 + l
  | 8 => 212 + l
  | 9 => 243 + l
  | 10 => 273 + l
  | 11 => 304 + l
  | 12 => 334 + l
  | _ => 365 + l

namespace Date

def Valid (d : Date) : Prop :=
  1 ≤ d.month ∧ d.month ≤ 12 ∧ 1 ≤ d.day ∧
    monthStart (leap d.year) d.month + d.day ≤ monthStart (leap d.year) (d.month + 1)

instance (d : Date) : Decidable d.Valid := by
  unfold Valid
  infer_instance

def number (d : Date) : Int :=
  yearStart d.year + monthStart (leap d.year) d.month + (d.day - 1)

/-- Earlier in the order of year, month and day. -/
def Before (d e : Date) : Prop :=
  d.year < e.year ∨ d.year = e.year ∧
    (d.month < e.month ∨ d.month = e.month ∧ d.day < e.day)

end Date

def yearOf (n : Int) : Int :=
  let y := n * 400 / 146097
  if n < yearStart y then y - 1
  else if yearStart (y + 1) ≤ n then y + 1
  else y

/-- The last of the first `m` months that has begun on day `o` of the year. -/
def lastMonth (l o : Int) : Nat → Nat
  | 0 => 1
  | m + 1 => if monthStart l (m + 1) ≤ o then m + 1 else lastMonth l o m

def monthOf (l o : Int) : Nat :=
  lastMonth l o 12

/-- The date of a day. -/
def date (n : Int) : Date :=
  let y := yearOf n
  let o := n - yearStart y
  let m := monthOf (leap y) o
  { year := y, month := m, day := (o - monthStart (leap y) m + 1).toNat }

theorem leap_cases (y : Int) : leap y = 0 ∨ leap y = 1 := by
  unfold leap
  split <;> simp

theorem yearStart_succ (y : Int) : yearStart (y + 1) = yearStart y + 365 + leap y := by
  unfold yearStart leap
  split <;> omega

theorem yearStart_le (y : Int) : 400 * yearStart y ≤ 146097 * y + 600 := by
  unfold yearStart
  omega

theorem le_yearStart (y : Int) : 146097 * y - 300 ≤ 400 * yearStart y := by
  unfold yearStart
  omega

theorem yearOf_spec (n : Int) : yearStart (yearOf n) ≤ n ∧ n < yearStart (yearOf n + 1) := by
  have hlo := le_yearStart (n * 400 / 146097 + 2)
  have hhi := yearStart_le (n * 400 / 146097 - 1)
  have hdiv : 146097 * (n * 400 / 146097) ≤ n * 400 ∧
      n * 400 < 146097 * (n * 400 / 146097) + 146097 := by omega
  simp only [yearOf]
  generalize n * 400 / 146097 = y at *
  have hy : y - 1 + 1 = y := by omega
  have hy2 : y + 1 + 1 = y + 2 := by omega
  split
  · rw [hy]
    omega
  · split
    · rw [hy2]
      omega
    · omega

theorem yearStart_mono {y z : Int} (h : y ≤ z) : yearStart y ≤ yearStart z := by
  unfold yearStart
  omega

theorem lastMonth_spec {l o : Int} {m : Nat} (h₀ : 0 ≤ o) (hm : 1 ≤ m)
    (h₁ : o < monthStart l (m + 1)) :
    1 ≤ lastMonth l o m ∧ lastMonth l o m ≤ m ∧ monthStart l (lastMonth l o m) ≤ o ∧
      o < monthStart l (lastMonth l o m + 1) := by
  induction m with
  | zero => omega
  | succ m ih =>
    rw [lastMonth]
    split
    · next h => exact ⟨by omega, le_rfl, h, h₁⟩
    · next h =>
      rcases Nat.eq_zero_or_pos m with rfl | hpos
      · exact absurd h₀ h
      · obtain ⟨h₂, h₃, h₄⟩ := ih hpos (by omega)
        exact ⟨h₂, by omega, h₄⟩

theorem monthOf_spec {l o : Int} (h₀ : 0 ≤ o) (h₁ : o < 365 + l) :
    1 ≤ monthOf l o ∧ monthOf l o ≤ 12 ∧ monthStart l (monthOf l o) ≤ o ∧
      o < monthStart l (monthOf l o + 1) :=
  lastMonth_spec h₀ (by decide) h₁

theorem date_valid (n : Int) : (date n).Valid := by
  obtain ⟨h₁, h₂⟩ := yearOf_spec n
  rw [yearStart_succ] at h₂
  obtain ⟨hm₁, hm₂, hm₃, hm₄⟩ :=
    monthOf_spec (l := leap (yearOf n)) (o := n - yearStart (yearOf n)) (by omega) (by omega)
  refine ⟨hm₁, hm₂, ?_, ?_⟩
  · simp only [date]
    omega
  · simp only [date]
    omega

@[simp] theorem number_date (n : Int) : (date n).number = n := by
  obtain ⟨h₁, h₂⟩ := yearOf_spec n
  rw [yearStart_succ] at h₂
  obtain ⟨hm₁, hm₂, hm₃, hm₄⟩ :=
    monthOf_spec (l := leap (yearOf n)) (o := n - yearStart (yearOf n)) (by omega) (by omega)
  simp only [Date.number, date]
  omega

theorem monthStart_mono {l : Int} (hl : l = 0 ∨ l = 1) {m k : Nat} (h : m ≤ k) :
    monthStart l m ≤ monthStart l k := by
  induction k, h using Nat.le_induction with
  | base => exact le_rfl
  | succ k _ ih =>
    refine ih.trans ?_
    unfold monthStart
    split
    all_goals simp_all
    all_goals omega

theorem monthStart_le {l : Int} (hl : l = 0 ∨ l = 1) (m : Nat) : monthStart l m ≤ 365 + l := by
  unfold monthStart
  split <;> omega

theorem monthStart_succ_le {l : Int} (hl : l = 0 ∨ l = 1) {m : Nat} (h₁ : 1 ≤ m) (h₂ : m ≤ 12) :
    monthStart l (m + 1) ≤ monthStart l m + 31 := by
  interval_cases m
  all_goals simp only [monthStart]; omega

theorem Date.Valid.day_le {d : Date} (h : d.Valid) : d.day ≤ 31 := by
  obtain ⟨h₁, h₂, _, h₃⟩ := h
  have := monthStart_succ_le (leap_cases d.year) h₁ h₂
  omega

theorem number_before {d e : Date} (hd : d.Valid) (he : e.Valid) (h : d.Before e) :
    d.number < e.number := by
  obtain ⟨dy, dm, dd⟩ := d
  obtain ⟨ey, em, ed⟩ := e
  obtain ⟨hd₁, hd₂, hd₃, hd₄⟩ := hd
  obtain ⟨he₁, he₂, he₃, he₄⟩ := he
  simp only [Date.number, Date.Before] at *
  rcases h with hy | ⟨rfl, hm | ⟨rfl, h⟩⟩
  · have hstart := yearStart_mono (show dy + 1 ≤ ey by omega)
    rw [yearStart_succ] at hstart
    have hend := monthStart_le (leap_cases dy) (dm + 1)
    have h₀ : 0 ≤ monthStart (leap ey) em :=
      monthStart_mono (leap_cases ey) (Nat.zero_le em)
    omega
  · have hstart := monthStart_mono (leap_cases dy) (show dm + 1 ≤ em by omega)
    omega
  · omega

theorem Date.before_trichotomy (d e : Date) : d.Before e ∨ d = e ∨ e.Before d := by
  obtain ⟨dy, dm, dd⟩ := d
  obtain ⟨ey, em, ed⟩ := e
  simp only [Date.Before, Date.mk.injEq]
  omega

/-- The calendar keeps the order of days. -/
theorem date_before {m n : Int} (h : m < n) : (date m).Before (date n) := by
  rcases Date.before_trichotomy (date m) (date n) with h' | h' | h'
  · exact h'
  · have := congrArg Date.number h'
    simp only [number_date] at this
    omega
  · have := number_before (date_valid n) (date_valid m) h'
    simp only [number_date] at this
    omega

theorem date_year_bounds {n y z : Int} (h₁ : yearStart y ≤ n) (h₂ : n < yearStart z) :
    y ≤ (date n).year ∧ (date n).year < z := by
  obtain ⟨h₃, h₄⟩ := yearOf_spec n
  change y ≤ yearOf n ∧ yearOf n < z
  constructor
  · by_contra hlt
    have := yearStart_mono (show yearOf n + 1 ≤ y by omega)
    omega
  · by_contra hge
    have := yearStart_mono (show z ≤ yearOf n by omega)
    omega

example : date 738215 = ⟨2021, 3, 1⟩ := by decide

end Calendar

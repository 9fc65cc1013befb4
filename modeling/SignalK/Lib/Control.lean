import Mathlib.Algebra.Order.Floor.Ring
import Mathlib.Data.Rat.Floor
import Mathlib.Tactic.Linarith
import Mathlib.Tactic.Ring

/-! Clamped values and angles on a circle, over any ordered field. -/
namespace Clamp
variable {α : Type*} [LinearOrder α]

/-- Clamping fails when the bounds are in the wrong order. -/
def clamp (x lo hi : α) : Option α :=
  if lo ≤ hi then some (max lo (min x hi)) else none

theorem clamp_of_le {lo hi : α} (h : lo ≤ hi) (x : α) :
    clamp x lo hi = some (max lo (min x hi)) := if_pos h

theorem clamp_eq_some {x lo hi y : α} :
    clamp x lo hi = some y ↔ lo ≤ hi ∧ max lo (min x hi) = y := by
  rw [clamp]
  split_ifs with h
  · simp [h]
  · simp [h]

theorem clamp_bounds {x lo hi y : α} (h : clamp x lo hi = some y) : lo ≤ y ∧ y ≤ hi := by
  obtain ⟨hle, rfl⟩ := clamp_eq_some.mp h
  exact ⟨le_max_left _ _, max_le hle (min_le_right _ _)⟩

theorem clamp_mono {x y lo hi a b : α} (hxy : x ≤ y) (ha : clamp x lo hi = some a)
    (hb : clamp y lo hi = some b) : a ≤ b := by
  obtain ⟨-, rfl⟩ := clamp_eq_some.mp ha
  obtain ⟨-, rfl⟩ := clamp_eq_some.mp hb
  exact max_le_max le_rfl (min_le_min hxy le_rfl)

section
variable {K : Type*} [Field K] [LinearOrder K] [IsStrictOrderedRing K]

/-- Clamping to symmetric bounds keeps the sign. -/
theorem clamp_mul_pos_iff {x bound y : K} (hb : 0 < bound) (h : clamp x (-bound) bound = some y)
    (z : K) : 0 < y * z ↔ 0 < x * z := by
  obtain ⟨-, rfl⟩ := clamp_eq_some.mp h
  have hn : ¬0 < -bound := by linarith
  have hn' : ¬bound < 0 := by linarith
  have hpos : 0 < max (-bound) (min x bound) ↔ 0 < x := by simp [hb, hn]
  have hneg : max (-bound) (min x bound) < 0 ↔ x < 0 := by simp [hb, hn']
  rw [mul_pos_iff, mul_pos_iff, hpos, hneg]

theorem abs_le_of_clamp {x bound y : K} (h : clamp x (-bound) bound = some y) : |y| ≤ bound :=
  abs_le.mpr (clamp_bounds h)

/-- A clamped step towards a target does not pass it. -/
theorem step_between {x y step bound : K} (h : clamp (y - x) (-bound) bound = some step)
    (hb : 0 ≤ bound) : min x y ≤ x + step ∧ x + step ≤ max x y := by
  obtain ⟨-, rfl⟩ := clamp_eq_some.mp h
  rcases le_total x y with hxy | hxy
  · rw [min_eq_left hxy, max_eq_right hxy]
    have hlow : -bound ≤ min (y - x) bound := le_min (by linarith) (by linarith)
    have h0 : 0 ≤ min (y - x) bound := le_min (by linarith) hb
    have h1 : min (y - x) bound ≤ y - x := min_le_left _ _
    rw [max_eq_right hlow]
    constructor <;> linarith
  · rw [min_eq_right hxy, max_eq_left hxy, min_eq_left (by linarith : y - x ≤ bound)]
    have h0 : max (-bound) (y - x) ≤ 0 := max_le (by linarith) (by linarith)
    have h1 : y - x ≤ max (-bound) (y - x) := le_max_right _ _
    constructor <;> linarith

end

end Clamp

namespace Circle
variable {K : Type*} [Field K]

/-- The angles differ by whole turns. -/
def Same (half a b : K) : Prop := ∃ k : ℤ, b = a + k * (2 * half)

theorem Same.refl (half a : K) : Same half a a := ⟨0, by simp⟩

theorem Same.symm {half a b : K} (h : Same half a b) : Same half b a := by
  obtain ⟨k, rfl⟩ := h
  exact ⟨-k, by push_cast; ring⟩

theorem Same.trans {half a b c : K} (hab : Same half a b) (hbc : Same half b c) :
    Same half a c := by
  obtain ⟨k, rfl⟩ := hab
  obtain ⟨l, rfl⟩ := hbc
  exact ⟨k + l, by push_cast; ring⟩

theorem Same.sub {half a b c d : K} (hab : Same half a b) (hcd : Same half c d) :
    Same half (a - c) (b - d) := by
  obtain ⟨k, rfl⟩ := hab
  obtain ⟨l, rfl⟩ := hcd
  exact ⟨k - l, by push_cast; ring⟩

variable [LinearOrder K]

/-- `while half < x { x -= 2 * half }`, for at most so many rounds. -/
def wrapDown (half : K) : Nat → K → K
  | 0, x => x
  | n + 1, x => if half < x then wrapDown half n (x - 2 * half) else x

/-- `while x < -half { x += 2 * half }`, for at most so many rounds. -/
def wrapUp (half : K) : Nat → K → K
  | 0, x => x
  | n + 1, x => if x < -half then wrapUp half n (x + 2 * half) else x

attribute [local simp] wrapDown wrapUp

theorem wrapDown_turns (half : K) (n : Nat) (x : K) : Same half x (wrapDown half n x) := by
  induction n generalizing x with
  | zero => exact Same.refl half x
  | succ n ih =>
    rw [wrapDown]
    split_ifs
    · exact Same.trans ⟨-1, by push_cast; ring⟩ (ih (x - 2 * half))
    · exact Same.refl half x

theorem wrapUp_turns (half : K) (n : Nat) (x : K) : Same half x (wrapUp half n x) := by
  induction n generalizing x with
  | zero => exact Same.refl half x
  | succ n ih =>
    rw [wrapUp]
    split_ifs
    · exact Same.trans ⟨1, by push_cast; ring⟩ (ih (x + 2 * half))
    · exact Same.refl half x

section
variable [IsStrictOrderedRing K]

/-- The first loop ends once it has run for long enough. -/
theorem wrapDown_le {half : K} {n : Nat} {x : K} (h : x ≤ half + n * (2 * half)) :
    wrapDown half n x ≤ half := by
  induction n generalizing x with
  | zero => simpa [wrapDown] using h
  | succ n ih =>
    rw [wrapDown]
    split_ifs with hx
    · refine ih ?_
      push_cast at h
      linarith
    · exact not_lt.mp hx

theorem le_wrapUp {half : K} {n : Nat} {x : K} (h : -half - n * (2 * half) ≤ x) :
    -half ≤ wrapUp half n x := by
  induction n generalizing x with
  | zero => simpa [wrapUp] using h
  | succ n ih =>
    rw [wrapUp]
    split_ifs with hx
    · refine ih ?_
      push_cast at h
      linarith
    · exact not_lt.mp hx

theorem wrapUp_le {half : K} {n : Nat} {x : K} (h : x ≤ half) : wrapUp half n x ≤ half := by
  induction n generalizing x with
  | zero => exact h
  | succ n ih =>
    rw [wrapUp]
    split_ifs with hx
    · exact ih (by linarith)
    · exact h

end

theorem wrapDown_of_le {half x : K} (h : x ≤ half) (n : Nat) : wrapDown half n x = x := by
  cases n with
  | zero => rfl
  | succ n => rw [wrapDown, if_neg (not_lt.mpr h)]

theorem wrapUp_of_ge {half x : K} (h : -half ≤ x) (n : Nat) : wrapUp half n x = x := by
  cases n with
  | zero => rfl
  | succ n => rw [wrapUp, if_neg (not_lt.mpr h)]

variable [FloorRing K]

/-- Both loops one after the other, each with as many rounds as it takes. -/
def wrap (half a : K) : K :=
  let x := wrapDown half ⌈a / (2 * half)⌉₊ a
  wrapUp half ⌈-x / (2 * half)⌉₊ x

theorem wrap_same (half a : K) : Same half a (wrap half a) :=
  (wrapDown_turns half _ a).trans (wrapUp_turns half _ _)

variable [IsStrictOrderedRing K]

/-- An angle of at most half a turn stays as it is, both ends included. -/
theorem wrap_of_abs_le {half a : K} (h : |a| ≤ half) : wrap half a = a := by
  obtain ⟨hlow, hhigh⟩ := abs_le.mp h
  rw [wrap, wrapDown_of_le hhigh, wrapUp_of_ge hlow]

theorem rounds_enough {half : K} (h : 0 < half) (x : K) :
    x ≤ half + (⌈x / (2 * half)⌉₊ : K) * (2 * half) := by
  have hc : x / (2 * half) ≤ ⌈x / (2 * half)⌉₊ := Nat.le_ceil _
  have hx : x ≤ ⌈x / (2 * half)⌉₊ * (2 * half) := (div_le_iff₀ (by linarith)).mp hc
  linarith

theorem abs_wrap_le {half : K} (h : 0 < half) (a : K) : |wrap half a| ≤ half := by
  have hdown := wrapDown_le (rounds_enough h a)
  refine abs_le.mpr ⟨?_, wrapUp_le hdown⟩
  refine le_wrapUp ?_
  have hup := rounds_enough h (-wrapDown half ⌈a / (2 * half)⌉₊ a)
  linarith

/-- An angle that is less than half a turn is the only one of its direction. -/
theorem wrap_eq {half a b : K} (hb : |b| < half) (hab : Same half a b) : wrap half a = b := by
  have h : 0 < half := lt_of_le_of_lt (abs_nonneg b) hb
  obtain ⟨k, hk⟩ := (wrap_same half a).symm.trans hab
  obtain ⟨hlow, hhigh⟩ := abs_le.mp (abs_wrap_le h a)
  obtain ⟨hbl, hbh⟩ := abs_lt.mp hb
  have hlt : (k : K) < 1 := by
    by_contra hc
    have : 1 * (2 * half) ≤ (k : K) * (2 * half) :=
      mul_le_mul_of_nonneg_right (not_lt.mp hc) (by linarith)
    linarith
  have hgt : (-1 : K) < k := by
    by_contra hc
    have : (k : K) * (2 * half) ≤ -1 * (2 * half) :=
      mul_le_mul_of_nonneg_right (not_lt.mp hc) (by linarith)
    linarith
  have hlt' : k < 1 := by exact_mod_cast hlt
  have hgt' : -1 < k := by exact_mod_cast hgt
  obtain rfl : k = 0 := by omega
  simpa using hk.symm

end Circle

import Mathlib

/-! A filter of first order over a vector space: every sample pulls the value towards itself
by a fixed share of the way. -/
namespace Smoothing
variable {K V W : Type*} [Field K] [AddCommGroup V] [Module K V] [AddCommGroup W] [Module K W]

/-- The first sample is taken as it is. -/
def smooth (alpha : K) : Option V → V → V
  | none, x => x
  | some y, x => y + alpha • (x - y)

def average (alpha : K) (xs : List V) : Option V :=
  xs.foldl (fun y x => some (smooth alpha y x)) none

@[simp] theorem average_nil (alpha : K) : average alpha ([] : List V) = none := rfl

@[simp] theorem average_concat (alpha : K) (xs : List V) (x : V) :
    average alpha (xs ++ [x]) = some (smooth alpha (average alpha xs) x) := by
  rw [average, List.foldl_append, List.foldl_cons, List.foldl_nil, average]

theorem average_ne_none (alpha : K) {xs : List V} (h : xs ≠ []) : average alpha xs ≠ none := by
  induction xs using List.reverseRecOn with
  | nil => exact absurd rfl h
  | append_singleton xs x _ => simp

theorem smooth_map (f : V →ₗ[K] W) (alpha : K) (y : Option V) (x : V) :
    smooth alpha (y.map f) (f x) = f (smooth alpha y x) := by
  cases y with
  | none => rfl
  | some y => simp [smooth]

/-- It does not matter whether the samples are mapped or their average. -/
theorem average_map (f : V →ₗ[K] W) (alpha : K) (xs : List V) :
    average alpha (xs.map f) = (average alpha xs).map f := by
  induction xs using List.reverseRecOn with
  | nil => rfl
  | append_singleton xs x ih =>
    rw [List.map_append, List.map_singleton, average_concat, average_concat, ih, smooth_map,
      Option.map_some]

variable [LinearOrder K] [IsStrictOrderedRing K] {alpha : K}

theorem smooth_mem {s : Set V} (hs : Convex K s) (h0 : 0 ≤ alpha) (h1 : alpha ≤ 1)
    {y : Option V} (hy : ∀ v ∈ y, v ∈ s) {x : V} (hx : x ∈ s) : smooth alpha y x ∈ s := by
  cases y with
  | none => exact hx
  | some y => exact hs.add_smul_sub_mem (hy y rfl) hx ⟨h0, h1⟩

/-- The average stays in every convex set that the samples are in. -/
theorem average_mem {s : Set V} (hs : Convex K s) (h0 : 0 ≤ alpha) (h1 : alpha ≤ 1)
    {xs : List V} (h : ∀ x ∈ xs, x ∈ s) : ∀ v ∈ average alpha xs, v ∈ s := by
  induction xs using List.reverseRecOn with
  | nil =>
    intro v hv
    cases hv
  | append_singleton xs x ih =>
    intro v hv
    rw [average_concat] at hv
    cases hv
    exact smooth_mem hs h0 h1 (ih fun u hu => h u (List.mem_append_left _ hu)) (h x (by simp))

end Smoothing

/-! Arcs of the circle, and the cones of the vectors that point into them. -/
open Real

/-- The directions that are at most so far from a centre. -/
structure Arc where
  centre : ℝ
  half : ℝ
  half_nonneg : 0 ≤ half

namespace Arc
variable {arc : Arc}

def Holds (arc : Arc) (θ : ℝ) : Prop :=
  ∃ d, |d| ≤ arc.half ∧ (θ : Angle) = (arc.centre + d : ℝ)

theorem holds_congr {θ d : ℝ} (h : (θ : Angle) = d) (hθ : arc.Holds θ) : arc.Holds d := by
  obtain ⟨e, he, heq⟩ := hθ
  exact ⟨e, he, h.symm.trans heq⟩

section
-- For the literal in the definition.
local instance two : Nat.AtLeastTwo 2 := ⟨le_rfl⟩

/-- It is less than half a turn wide. -/
def Narrow (arc : Arc) : Prop := 2 * arc.half < π

end

/-- The directions are in the arc and in none that is less wide. -/
structure Smallest (arc : Arc) (θs : List ℝ) : Prop where
  holds : ∀ θ ∈ θs, arc.Holds θ
  least : ∀ other : Arc, (∀ θ ∈ θs, other.Holds θ) → arc.half ≤ other.half

noncomputable def unit (θ : ℝ) : ℂ := ⟨cos θ, sin θ⟩

theorem unit_eq (θ : ℝ) :
    unit θ = ((θ : Angle).cos : ℂ) + ((θ : Angle).sin : ℂ) * Complex.I := by
  rw [unit, Complex.mk_eq_add_mul_I, Angle.cos_coe, Angle.sin_coe]

theorem unit_add (θ d : ℝ) : unit (θ + d) = unit d * unit θ := by
  apply Complex.ext
  · simp only [unit, Complex.mul_re, cos_add]
    ring
  · simp only [unit, Complex.mul_im, sin_add]
    ring

theorem unit_zero : unit 0 = 1 := by
  apply Complex.ext <;> simp [unit]

theorem unit_ne_zero (θ : ℝ) : unit θ ≠ 0 := by
  intro h
  have hone : unit (θ + -θ) = 1 := by rw [add_neg_cancel, unit_zero]
  rw [unit_add, h, mul_zero] at hone
  exact zero_ne_one hone

theorem arg_unit (θ : ℝ) : ((unit θ).arg : Angle) = θ := by
  rw [unit_eq]
  exact Complex.arg_cos_add_sin_mul_I_coe_angle θ

theorem arg_unit_eq {θ : ℝ} (h : θ ∈ Set.Ioc (-π) π) : (unit θ).arg = θ := by
  rw [unit, Complex.mk_eq_add_mul_I, Complex.ofReal_cos, Complex.ofReal_sin]
  exact Complex.arg_cos_add_sin_mul_I h

theorem unit_congr {θ d : ℝ} (h : (θ : Angle) = d) : unit θ = unit d := by
  rw [unit_eq, unit_eq, h]

/-- A vector that is turned has its argument turned. -/
theorem arg_unit_mul (d : ℝ) {z : ℂ} (hz : z ≠ 0) :
    ((unit d * z).arg : Angle) = (z.arg + d : ℝ) := by
  rw [Complex.arg_mul_coe_angle (unit_ne_zero d) hz, arg_unit, Angle.coe_add, add_comm]

/-- A vector as it is seen from the centre of an arc. -/
noncomputable def seen (arc : Arc) (z : ℂ) : ℂ := unit (-arc.centre) * z

theorem unit_mul_seen (arc : Arc) (z : ℂ) : unit arc.centre * arc.seen z = z := by
  rw [seen, ← mul_assoc, ← unit_add, neg_add_cancel, unit_zero, one_mul]

/-- The vectors that point into the arc. -/
def cone (arc : Arc) : Set ℂ :=
  {z | 0 < (arc.seen z).re ∧ |(arc.seen z).im| ≤ tan arc.half * (arc.seen z).re}

theorem seen_combination (y z : ℂ) (a b : ℝ) :
    arc.seen (a • y + b • z) = a • arc.seen y + b • arc.seen z := by
  simp only [seen, mul_add, mul_smul_comm]

theorem convex_cone : Convex ℝ arc.cone := by
  intro y hy z hz a b ha hb hab
  have hre : (arc.seen (a • y + b • z)).re = a * (arc.seen y).re + b * (arc.seen z).re := by
    rw [seen_combination, Complex.add_re, Complex.smul_re, Complex.smul_re, smul_eq_mul, smul_eq_mul]
  have him : (arc.seen (a • y + b • z)).im = a * (arc.seen y).im + b * (arc.seen z).im := by
    rw [seen_combination, Complex.add_im, Complex.smul_im, Complex.smul_im, smul_eq_mul, smul_eq_mul]
  constructor
  · rw [hre]
    exact convex_Ioi (0 : ℝ) hy.1 hz.1 ha hb hab
  · rw [hre, him]
    calc |a * (arc.seen y).im + b * (arc.seen z).im|
        ≤ |a * (arc.seen y).im| + |b * (arc.seen z).im| := abs_add_le _ _
      _ = a * |(arc.seen y).im| + b * |(arc.seen z).im| := by
          rw [abs_mul, abs_mul, abs_of_nonneg ha, abs_of_nonneg hb]
      _ ≤ a * (tan arc.half * (arc.seen y).re) + b * (tan arc.half * (arc.seen z).re) :=
          add_le_add (mul_le_mul_of_nonneg_left hy.2 ha) (mul_le_mul_of_nonneg_left hz.2 hb)
      _ = tan arc.half * (a * (arc.seen y).re + b * (arc.seen z).re) := by ring

theorem ne_zero_of_mem_cone {z : ℂ} (h : z ∈ arc.cone) : z ≠ 0 := by
  rintro rfl
  have hpos := h.1
  rw [seen, mul_zero] at hpos
  exact lt_irrefl _ hpos

theorem unit_mem_cone (hnarrow : arc.Narrow) {θ : ℝ} (h : arc.Holds θ) : unit θ ∈ arc.cone := by
  obtain ⟨d, hd, hθ⟩ := h
  obtain ⟨hlow, hhigh⟩ := abs_le.mp hd
  rw [Narrow] at hnarrow
  have hseen : arc.seen (unit θ) = unit d := by
    rw [seen, unit_congr hθ, ← unit_add]
    congr 1
    ring
  have hcos : 0 < cos d := cos_pos_of_mem_Ioo ⟨by linarith, by linarith⟩
  have htan : |tan d| ≤ tan arc.half := by
    refine abs_le.mpr ⟨?_, ?_⟩
    · rw [← tan_neg]
      exact strictMonoOn_tan.monotoneOn ⟨by linarith, by linarith⟩ ⟨by linarith, by linarith⟩ hlow
    · exact strictMonoOn_tan.monotoneOn ⟨by linarith, by linarith⟩ ⟨by linarith, by linarith⟩ hhigh
  change 0 < (arc.seen (unit θ)).re ∧ _
  rw [hseen]
  refine ⟨hcos, ?_⟩
  calc |sin d| = |tan d * cos d| := by rw [tan_mul_cos hcos.ne']
    _ = |tan d| * cos d := by rw [abs_mul, abs_of_pos hcos]
    _ ≤ tan arc.half * cos d := mul_le_mul_of_nonneg_right htan hcos.le

/-- What points into an arc has its direction there. -/
theorem holds_arg (hnarrow : arc.Narrow) {z : ℂ} (h : z ∈ arc.cone) : arc.Holds z.arg := by
  obtain ⟨hre, him⟩ := h
  rw [Narrow] at hnarrow
  have hright : |(arc.seen z).arg| < π / 2 := Complex.abs_arg_lt_pi_div_two_iff.mpr (.inl hre)
  obtain ⟨hlow, hhigh⟩ := abs_lt.mp hright
  have hhalf := arc.half_nonneg
  have htan : |tan (arc.seen z).arg| ≤ tan arc.half := by
    rw [Complex.tan_arg, abs_div, abs_of_pos hre]
    exact (div_le_iff₀ hre).mpr him
  obtain ⟨htlow, hthigh⟩ := abs_le.mp htan
  rw [← tan_neg] at htlow
  refine ⟨(arc.seen z).arg, abs_le.mpr ⟨?_, ?_⟩, ?_⟩
  · exact (strictMonoOn_tan.le_iff_le ⟨by linarith, by linarith⟩ ⟨hlow, hhigh⟩).mp htlow
  · exact (strictMonoOn_tan.le_iff_le ⟨hlow, hhigh⟩ ⟨by linarith, by linarith⟩).mp hthigh
  · have hz : arc.seen z ≠ 0 := by
      intro hzero
      rw [hzero] at hre
      exact lt_irrefl _ hre
    rw [add_comm, ← arg_unit_mul _ hz, unit_mul_seen]

/-! The smallest arc. -/

/-- Seen from the centre of a narrow arc, the directions in it have a first and a last one. -/
theorem exists_ends {θs : List ℝ} (hne : θs ≠ []) (h : ∀ θ ∈ θs, arc.Holds θ) :
    ∃ lo hi, -arc.half ≤ lo ∧ lo ≤ hi ∧ hi ≤ arc.half ∧
      (∀ θ ∈ θs, ∃ d, lo ≤ d ∧ d ≤ hi ∧ (θ : Angle) = (arc.centre + d : ℝ)) ∧
      (∃ θ ∈ θs, (θ : Angle) = (arc.centre + lo : ℝ)) ∧
      ∃ θ ∈ θs, (θ : Angle) = (arc.centre + hi : ℝ) := by
  induction θs with
  | nil => exact absurd rfl hne
  | cons θ θs ih =>
    obtain ⟨d, hd, hθ⟩ := h θ List.mem_cons_self
    obtain ⟨hlow, hhigh⟩ := abs_le.mp hd
    cases θs with
    | nil =>
      refine ⟨d, d, hlow, le_refl d, hhigh, ?_, ⟨θ, by simp, hθ⟩, ⟨θ, by simp, hθ⟩⟩
      intro x hx
      rw [List.mem_singleton.mp hx]
      exact ⟨d, le_refl d, le_refl d, hθ⟩
    | cons θ' θs =>
      obtain ⟨lo, hi, hlo, hlohi, hhi, hall, ⟨a, ha, halo⟩, ⟨b, hb, hbhi⟩⟩ :=
        ih (by simp) fun x hx => h x (List.mem_cons_of_mem θ hx)
      refine ⟨min lo d, max hi d, le_min hlo hlow, ?_, max_le hhi hhigh, ?_, ?_, ?_⟩
      · exact (min_le_left lo d).trans (hlohi.trans (le_max_left hi d))
      · intro x hx
        cases hx with
        | head => exact ⟨d, min_le_right lo d, le_max_right hi d, hθ⟩
        | tail _ hx =>
          obtain ⟨e, he, he', hxe⟩ := hall x hx
          exact ⟨e, (min_le_left lo d).trans he, he'.trans (le_max_left hi d), hxe⟩
      · cases min_choice lo d with
        | inl hmin =>
          rw [hmin]
          exact ⟨a, List.mem_cons_of_mem θ ha, halo⟩
        | inr hmin =>
          rw [hmin]
          exact ⟨θ, List.mem_cons_self, hθ⟩
      · cases max_choice hi d with
        | inl hmax =>
          rw [hmax]
          exact ⟨b, List.mem_cons_of_mem θ hb, hbhi⟩
        | inr hmax =>
          rw [hmax]
          exact ⟨θ, List.mem_cons_self, hθ⟩

/-- Two directions less than half a turn apart need an arc that is as wide. -/
theorem gap_le {other : Arc} {c lo hi : ℝ} (hgap : hi - lo < π)
    (hlo : other.Holds (c + lo)) (hhi : other.Holds (c + hi)) : hi - lo ≤ 2 * other.half := by
  obtain ⟨d, hd, hdlo⟩ := hlo
  obtain ⟨e, he, hehi⟩ := hhi
  by_contra hwide
  have hd' := abs_le.mp hd
  have he' := abs_le.mp he
  have hsame : ((c + hi - (c + lo) : ℝ) : Angle) =
      (other.centre + e - (other.centre + d) : ℝ) := by
    rw [Angle.coe_sub, Angle.coe_sub, hdlo, hehi]
  obtain ⟨k, hk⟩ := Angle.angle_eq_iff_two_pi_dvd_sub.mp hsame
  have hpi := pi_pos
  have hpos : 0 < 2 * π * (k : ℝ) := by linarith
  have hlt : 2 * π * (k : ℝ) < 2 * π * 1 := by linarith
  have hk0 : (0 : ℝ) < k := (mul_pos_iff_of_pos_left (by linarith)).mp hpos
  have hk1 : (k : ℝ) < 1 := (mul_lt_mul_iff_right₀ (by linarith)).mp hlt
  have hk0' : 0 < k := by exact_mod_cast hk0
  have hk1' : k < 1 := by exact_mod_cast hk1
  omega

theorem exists_smallest (hnarrow : arc.Narrow) {θs : List ℝ} (hne : θs ≠ [])
    (h : ∀ θ ∈ θs, arc.Holds θ) : ∃ small : Arc, small.Smallest θs := by
  obtain ⟨lo, hi, hlo, hlohi, hhi, hall, ⟨a, ha, halo⟩, ⟨b, hb, hbhi⟩⟩ := exists_ends hne h
  rw [Narrow] at hnarrow
  refine ⟨⟨arc.centre + (lo + hi) / 2, (hi - lo) / 2, by linarith⟩, ?_, ?_⟩
  · intro θ hθ
    obtain ⟨d, hd, hd', hθd⟩ := hall θ hθ
    refine ⟨d - (lo + hi) / 2, abs_le.mpr ⟨by linarith, by linarith⟩, ?_⟩
    rw [hθd]
    congr 1
    ring
  · intro other hother
    have hgap : hi - lo < π := by linarith
    have hwidth := gap_le hgap (holds_congr halo (hother a ha)) (holds_congr hbhi (hother b hb))
    linarith

end Arc

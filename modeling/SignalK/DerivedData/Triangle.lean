import Mathlib.Analysis.SpecialFunctions.Trigonometric.Angle
import SignalK.DerivedData.Navigation
import SignalK.Types.Scalar

/-! Set and drift in real numbers, against the triangle of the velocities over ground, through
the water and of the current. -/
namespace SignalK.DerivedData

structure CurrentVector (F : Type) where
  drift : F
  setTrue : F
  setMagnetic : F
  /-- none for a boat that lies still in the water -/
  driftImpact : Option F

namespace CurrentVector

def map {F G : Type} (f : F → G) (c : CurrentVector F) : CurrentVector G :=
  ⟨f c.drift, f c.setTrue, f c.setMagnetic, c.driftImpact.map f⟩

def pathValues (c : CurrentVector F64) : List PathValue :=
  [⟨"environment.current.drift", c.drift.toJson⟩,
    ⟨"environment.current.setTrue", c.setTrue.toJson⟩,
    ⟨"environment.current.setMagnetic", c.setMagnetic.toJson⟩] ++
    (c.driftImpact.map fun x => ⟨"environment.current.driftImpact", x.toJson⟩).toList

section
variable {F : Type} [DirectionScalar F]
open Scalar DirectionScalar

def normalize (angle : F) : F := remEuclid angle (mul (ofRat 2) pi)

/-- `SetDrift::calculate` on numbers. -/
def calculate (headingMag cogTrue stw sog variation : F) : Option (CurrentVector F) :=
  if !([headingMag, cogTrue, stw, sog, variation].all isFinite) then none
  else if lt (abs sog) (ofRat 1e-9) && lt (abs stw) (ofRat 1e-9) then
    some ⟨ofRat 0, ofRat 0, ofRat 0, none⟩
  else
    let delta := sub cogTrue headingMag
    let drift := sqrt (max (sub (add (mul sog sog) (mul stw stw))
      (mul (mul (mul (ofRat 2) stw) sog) (cos delta))) (ofRat 0))
    let setMagnetic :=
      normalize (add (atan2 (mul sog (sin delta)) (sub stw (mul sog (cos delta)))) pi)
    let setTrue := normalize (add setMagnetic variation)
    some ⟨drift, setTrue, setMagnetic,
      if lt (ofRat 0.01) stw then some (div drift stw) else none⟩

end

section
attribute [local instance] ExactMath.scalar
variable [ExactMath]

/-- The calculator of the plugin is this one on doubles. -/
theorem calculate_doubles (iter : Iteration) (values : Values) :
    setDrift.calculate iter values = (do
      let headingMag ← number values "navigation.headingMagnetic"
      let cogTrue ← number values "navigation.courseOverGroundTrue"
      let stw ← number values "navigation.speedThroughWater"
      let sog ← number values "navigation.speedOverGround"
      let variation ← number values "navigation.magneticVariation"
      (calculate headingMag cogTrue stw sog variation).map pathValues) := by
  simp only [setDrift]
  refine congrArg _ (funext fun headingMag => congrArg _ (funext fun cogTrue => congrArg _
    (funext fun stw => congrArg _ (funext fun sog => congrArg _ (funext fun variation => ?_)))))
  have hall : [headingMag, cogTrue, stw, sog, variation].all Scalar.isFinite = true ↔
      headingMag.isFinite ∧ cogTrue.isFinite ∧ stw.isFinite ∧ sog.isFinite ∧
        variation.isFinite := by
    simp only [List.all_cons, List.all_nil, Bool.and_true, Bool.and_eq_true]
    rfl
  have hstill : (Scalar.lt (DirectionScalar.abs sog) (Scalar.ofRat 1e-9) &&
      Scalar.lt (DirectionScalar.abs stw) (Scalar.ofRat 1e-9)) = true ↔
        sog.abs < 1e-9 ∧ stw.abs < 1e-9 := by
    rw [Bool.and_eq_true]
    rfl
  unfold calculate
  by_cases hfinite : headingMag.isFinite ∧ cogTrue.isFinite ∧ stw.isFinite ∧ sog.isFinite ∧
      variation.isFinite
  · rw [guard, if_pos hfinite, hall.mpr hfinite, Bool.not_true, if_neg Bool.false_ne_true]
    by_cases hzero : sog.abs < 1e-9 ∧ stw.abs < 1e-9
    · rw [if_pos hzero, if_pos (hstill.mpr hzero)]
      rfl
    · rw [if_neg hzero, if_neg (mt hstill.mp hzero)]
      by_cases himpact : (0.01 : F64) < stw
      · have hscalar : Scalar.lt (Scalar.ofRat 0.01) stw = true := himpact
        simp only [if_pos himpact, if_pos hscalar]
        rfl
      · have hscalar : ¬Scalar.lt (Scalar.ofRat 0.01) stw = true := himpact
        simp only [if_neg himpact, if_neg hscalar]
        rfl
  · have hnone : [headingMag, cogTrue, stw, sog, variation].all Scalar.isFinite = false :=
      Bool.eq_false_iff.mpr (mt hall.mp hfinite)
    rw [guard, if_neg hfinite, hnone]
    rfl

end

noncomputable section
attribute [local instance] Trig.exactScalar

/-- A velocity, north along the real axis and east along the imaginary one. -/
def velocity (speed direction : ℝ) : ℂ := speed * Complex.exp (direction * Complex.I)

/-- The set is right, and which of headings and variation is how large does not matter. -/
structure Closes (headingMag cogTrue stw sog variation : ℝ) : Prop where
  triangle : ∃ r : CurrentVector ℝ,
    calculate (headingMag : EReal) cogTrue stw sog variation = some (r.map (↑)) ∧
    velocity r.drift r.setTrue =
      velocity sog cogTrue - velocity stw (headingMag + variation) ∧
    (r.setMagnetic : Real.Angle) = r.setTrue - variation
  reference : ∀ d : ℝ, ∃ r r' : CurrentVector ℝ,
    calculate (headingMag : EReal) cogTrue stw sog variation = some (r.map (↑)) ∧
    calculate ((headingMag - d : ℝ) : EReal) cogTrue stw sog ((variation + d : ℝ) : EReal) =
      some (r'.map (↑)) ∧
    r'.drift = r.drift ∧ (r'.setTrue : Real.Angle) = r.setTrue

/-- Speeds that count as none. -/
def Still (stw sog : ℝ) : Prop := |sog| < 1e-9 ∧ |stw| < 1e-9

/-- Velocity through the water less velocity over ground, the latter with the sign of its
angle to the heading lost. -/
def mirrored (headingMag cogTrue stw sog : ℝ) : ℂ :=
  ⟨stw - sog * Real.cos (cogTrue - headingMag), sog * Real.sin (cogTrue - headingMag)⟩

section
-- For the literals in the definition.
local instance two : Nat.AtLeastTwo 2 := ⟨le_rfl⟩

def turn (x : ℝ) : ℝ := x - 2 * Real.pi * ⌊x / (2 * Real.pi)⌋

end

open Classical in
def measured (headingMag cogTrue stw sog variation : ℝ) : CurrentVector ℝ :=
  if Still stw sog then ⟨0, 0, 0, none⟩
  else
    let z := mirrored headingMag cogTrue stw sog
    let setMagnetic := turn (z.arg + Real.pi)
    ⟨‖z‖, turn (setMagnetic + variation), setMagnetic,
      if 0.01 < stw then some (‖z‖ / stw) else none⟩

variable {headingMag cogTrue stw sog variation : ℝ}

theorem coe_turn (x : ℝ) : (turn x : Real.Angle) = x := by
  rw [Real.Angle.angle_eq_iff_two_pi_dvd_sub]
  refine ⟨-⌊x / (2 * Real.pi)⌋, ?_⟩
  rw [turn]
  push_cast
  ring

theorem norm_mirrored : ‖mirrored headingMag cogTrue stw sog‖ =
    √(max (sog * sog + stw * stw - 2 * stw * sog * Real.cos (cogTrue - headingMag)) 0) := by
  have hsquare : (stw - sog * Real.cos (cogTrue - headingMag)) ^ 2 +
      (sog * Real.sin (cogTrue - headingMag)) ^ 2 =
      sog * sog + stw * stw - 2 * stw * sog * Real.cos (cogTrue - headingMag) := by
    have hcircle := Real.sin_sq_add_cos_sq (cogTrue - headingMag)
    linear_combination sog ^ 2 * hcircle
  rw [mirrored, Complex.norm_eq_sqrt_sq_add_sq, hsquare, max_eq_left]
  rw [← hsquare]
  positivity

theorem calculate_real : calculate (headingMag : EReal) cogTrue stw sog variation =
    some ((measured headingMag cogTrue stw sog variation).map (↑)) := by
  have hall : [(headingMag : EReal), cogTrue, stw, sog, variation].all Scalar.isFinite = true := by
    simp only [List.all_cons, List.all_nil, Trig.isFinite_coe, Bool.and_true]
  unfold calculate
  rw [hall]
  simp only [normalize, Bool.not_true, Bool.false_eq_true, if_false, Trig.ofRat_coe,
    Trig.add_coe, Trig.sub_coe, Trig.mul_coe, Trig.sin_coe, Trig.cos_coe,
    Trig.sqrt_coe, Trig.lt_coe, Trig.abs_coe, Trig.max_coe, Trig.atan2_coe,
    Trig.pi_coe, Trig.remEuclid_coe, Bool.and_eq_true, decide_eq_true_eq]
  have hnone : ((1e-9 : ℚ) : ℝ) = 1e-9 := by norm_num
  have hlittle : ((0.01 : ℚ) : ℝ) = 0.01 := by norm_num
  simp only [measured, Still, norm_mirrored, turn, hnone, hlittle, Rat.cast_ofNat, Rat.cast_zero]
  split_ifs with hstill himpact
  · rfl
  · rw [Trig.div_coe]
    rfl
  · rfl

/-- Nothing else is computed. -/
theorem eq_measured {r : CurrentVector ℝ}
    (h : calculate (headingMag : EReal) cogTrue stw sog variation = some (r.map (↑))) :
    r = measured headingMag cogTrue stw sog variation := by
  rw [calculate_real] at h
  have hmap := Option.some.inj h
  obtain ⟨drift, setTrue, setMagnetic, impact⟩ := r
  generalize measured headingMag cogTrue stw sog variation = m at hmap
  obtain ⟨drift', setTrue', setMagnetic', impact'⟩ := m
  simp only [map, CurrentVector.mk.injEq, EReal.coe_eq_coe_iff] at hmap ⊢
  obtain ⟨rfl, rfl, rfl, himpact⟩ := hmap
  exact ⟨rfl, rfl, rfl, (Option.map_injective EReal.coe_injective himpact).symm⟩

theorem closes_iff_measured : Closes headingMag cogTrue stw sog variation ↔
    let r := measured headingMag cogTrue stw sog variation
    velocity r.drift r.setTrue = velocity sog cogTrue - velocity stw (headingMag + variation) ∧
    (r.setMagnetic : Real.Angle) = r.setTrue - variation ∧
    ∀ d, (measured (headingMag - d) cogTrue stw sog (variation + d)).drift = r.drift ∧
      ((measured (headingMag - d) cogTrue stw sog (variation + d)).setTrue : Real.Angle) =
        r.setTrue := by
  constructor
  · rintro ⟨⟨r, hr, hcurrent, hmagnetic⟩, hreference⟩
    obtain rfl := eq_measured hr
    refine ⟨hcurrent, hmagnetic, fun d => ?_⟩
    obtain ⟨r, r', hr, hr', hsame⟩ := hreference d
    obtain rfl := eq_measured hr
    obtain rfl := eq_measured hr'
    exact hsame
  · rintro ⟨hcurrent, hmagnetic, hreference⟩
    exact ⟨⟨_, calculate_real, hcurrent, hmagnetic⟩,
      fun d => ⟨_, _, calculate_real, calculate_real, hreference d⟩⟩

/-! A velocity depends on the angle of its direction alone, and gives it away. -/

theorem velocity_eq (speed direction : ℝ) : velocity speed direction =
    ⟨speed * Real.cos direction, speed * Real.sin direction⟩ := by
  apply Complex.ext <;> simp [velocity, Complex.exp_ofReal_mul_I_re, Complex.exp_ofReal_mul_I_im]

theorem velocity_congr (speed : ℝ) {a b : ℝ} (h : (a : Real.Angle) = b) :
    velocity speed a = velocity speed b := by
  have hcos := congrArg Real.Angle.cos h
  have hsin := congrArg Real.Angle.sin h
  simp only [Real.Angle.cos_coe, Real.Angle.sin_coe] at hcos hsin
  rw [velocity_eq, velocity_eq, hcos, hsin]

theorem norm_velocity {speed : ℝ} (h : 0 ≤ speed) (direction : ℝ) :
    ‖velocity speed direction‖ = speed := by
  rw [velocity, norm_mul, Complex.norm_exp_ofReal_mul_I, mul_one, Complex.norm_real,
    Real.norm_of_nonneg h]

/-- Equal velocities have one speed and, unless that is zero, one direction. -/
theorem velocity_inj {s t : ℝ} (hs : 0 ≤ s) (ht : 0 ≤ t) (a b : ℝ) :
    velocity s a = velocity t b ↔ s = t ∧ (s = 0 ∨ (a : Real.Angle) = b) := by
  constructor
  · intro h
    have hspeed : s = t := by
      rw [← norm_velocity hs a, ← norm_velocity ht b, h]
    subst hspeed
    refine ⟨rfl, or_iff_not_imp_left.mpr fun hne => ?_⟩
    rw [velocity_eq, velocity_eq, Complex.mk.injEq] at h
    exact Real.Angle.cos_sin_inj (mul_left_cancel₀ hne h.1) (mul_left_cancel₀ hne h.2)
  · rintro ⟨rfl, rfl | h⟩
    · simp [velocity]
    · exact velocity_congr s h

theorem velocity_add (speed a b : ℝ) :
    velocity speed (a + b) = velocity speed a * Complex.exp (b * Complex.I) := by
  simp only [velocity, Complex.ofReal_add, add_mul, Complex.exp_add, mul_assoc]

/-- The boat lies still, or the sum of course and heading is hit by chance: without speed
through the water the set is the course over ground mirrored at the heading. -/
def Unmixed (headingMag cogTrue stw sog variation : ℝ) : Prop :=
  Still stw sog ∧ sog = stw ∧ (sog = 0 ∨ (cogTrue : Real.Angle) = headingMag) ∧
    (variation : Real.Angle) = 0 ∨
  ¬Still stw sog ∧ stw = 0 ∧ (cogTrue + cogTrue : Real.Angle) = headingMag + variation

section
variable (hmoving : ¬Still stw sog)
include hmoving

/-- What is computed: the velocity over ground to the wrong side of the heading, less the one
through the water along it, all of it turned by the variation. -/
theorem measured_velocity :
    let r := measured headingMag cogTrue stw sog variation
    velocity r.drift r.setTrue =
      velocity sog (variation - (cogTrue - headingMag)) - velocity stw variation := by
  set z := mirrored headingMag cogTrue stw sog with hz
  have hangle : (turn (turn (z.arg + Real.pi) + variation) : Real.Angle) =
      ((z.arg + (Real.pi + variation) : ℝ) : Real.Angle) := by
    rw [coe_turn, Real.Angle.coe_add, coe_turn, ← Real.Angle.coe_add, add_assoc]
  have hpolar : velocity ‖z‖ z.arg = z := Complex.norm_mul_exp_arg_mul_I z
  have hhalf : Complex.exp ((Real.pi + variation : ℝ) * Complex.I) =
      -Complex.exp (variation * Complex.I) := by
    rw [Complex.ofReal_add, add_mul, Complex.exp_add, Complex.exp_pi_mul_I, neg_one_mul]
  have hmirror : z = stw - velocity sog (-(cogTrue - headingMag)) := by
    rw [hz, velocity_eq, Real.cos_neg, Real.sin_neg]
    apply Complex.ext <;> simp [mirrored]
  have hwater : velocity stw variation = stw * Complex.exp (variation * Complex.I) := rfl
  have hground : velocity sog (variation - (cogTrue - headingMag)) =
      velocity sog (-(cogTrue - headingMag)) * Complex.exp (variation * Complex.I) := by
    rw [← velocity_add, sub_eq_neg_add]
  simp only [measured, if_neg hmoving]
  rw [velocity_congr _ hangle, velocity_add, hpolar, hhalf, hground, hwater, hmirror]
  ring

theorem measured_magnetic :
    ((measured headingMag cogTrue stw sog variation).setMagnetic : Real.Angle) =
      (measured headingMag cogTrue stw sog variation).setTrue - variation := by
  simp only [measured, if_neg hmoving, coe_turn, Real.Angle.coe_add]
  abel

theorem measured_drift_nonneg : 0 ≤ (measured headingMag cogTrue stw sog variation).drift := by
  simp only [measured, if_neg hmoving]
  exact norm_nonneg _

/-- Without speed through the water it does not matter what the heading is counted from. -/
theorem reference_iff (hs : 0 ≤ sog) :
    (∀ d, (measured (headingMag - d) cogTrue stw sog (variation + d)).drift =
        (measured headingMag cogTrue stw sog variation).drift ∧
      ((measured (headingMag - d) cogTrue stw sog (variation + d)).setTrue : Real.Angle) =
        (measured headingMag cogTrue stw sog variation).setTrue) ↔ stw = 0 := by
  have hvelocity : ∀ d, velocity (measured (headingMag - d) cogTrue stw sog (variation + d)).drift
      (measured (headingMag - d) cogTrue stw sog (variation + d)).setTrue =
      velocity sog (variation - (cogTrue - headingMag)) - velocity stw (variation + d) := by
    intro d
    rw [measured_velocity hmoving]
    congr 2
    ring
  constructor
  · intro h
    obtain ⟨hdrift, hset⟩ := h Real.pi
    have hpi := hvelocity Real.pi
    rw [hdrift, velocity_congr _ hset, measured_velocity hmoving, velocity_add,
      Complex.exp_pi_mul_I] at hpi
    have hzero : velocity stw variation = 0 := by
      have hsame := sub_right_injective hpi
      rw [mul_neg_one, eq_neg_iff_add_eq_zero, ← two_mul] at hsame
      exact (mul_eq_zero.mp hsame).resolve_left two_ne_zero
    rw [velocity, mul_eq_zero] at hzero
    exact_mod_cast hzero.resolve_right (Complex.exp_ne_zero _)
  · rintro rfl d
    have hpos : sog ≠ 0 := by
      rintro rfl
      exact hmoving (by norm_num [Still])
    have hnone : ∀ a, velocity 0 a = 0 := fun a => by simp [velocity]
    have hsame := hvelocity d
    have hfirst : velocity (measured headingMag cogTrue 0 sog variation).drift
        (measured headingMag cogTrue 0 sog variation).setTrue =
        velocity sog (variation - (cogTrue - headingMag)) - velocity 0 variation :=
      measured_velocity hmoving
    simp only [hnone, sub_zero] at hsame hfirst
    have hboth := (velocity_inj (measured_drift_nonneg hmoving) (measured_drift_nonneg hmoving)
      _ _).mp (hsame.trans hfirst.symm)
    refine ⟨hboth.1, hboth.2.resolve_left fun hzero => hpos ?_⟩
    exact ((velocity_inj (measured_drift_nonneg hmoving) hs _ _).mp hsame).1.symm.trans hzero

end

/-- The triangle closes only by chance. -/
theorem closes_iff (headingMag cogTrue variation : ℝ) {stw sog : ℝ} (hw : 0 ≤ stw) (hs : 0 ≤ sog) :
    Closes headingMag cogTrue stw sog variation ↔
      Unmixed headingMag cogTrue stw sog variation := by
  rw [closes_iff_measured]
  by_cases hstill : Still stw sog
  · have hzero : ∀ heading variation, measured heading cogTrue stw sog variation =
        ⟨0, 0, 0, none⟩ := fun _ _ => if_pos hstill
    have hcurrent : velocity 0 0 = velocity sog cogTrue - velocity stw (headingMag + variation) ↔
        sog = stw ∧ (sog = 0 ∨ (cogTrue : Real.Angle) = headingMag + variation) := by
      have hnone : velocity 0 0 = 0 := by simp [velocity]
      rw [← Real.Angle.coe_add, ← velocity_inj hs hw, hnone, eq_comm, sub_eq_zero]
    simp only [hzero, hcurrent, Unmixed, hstill, not_true, true_and, false_and, or_false, and_self,
      implies_true, and_true, Real.Angle.coe_zero, zero_sub, eq_comm (a := (0 : Real.Angle)),
      neg_eq_zero]
    constructor
    · rintro ⟨⟨hspeed, hcourse⟩, hvariation⟩
      rw [hvariation, add_zero] at hcourse
      exact ⟨hspeed, hcourse, hvariation⟩
    · rintro ⟨hspeed, hcourse, hvariation⟩
      rw [hvariation, add_zero]
      exact ⟨⟨hspeed, hcourse⟩, rfl⟩
  · simp only [Unmixed, hstill, not_false_eq_true, true_and, false_and, false_or,
      reference_iff hstill hs, measured_magnetic hstill, measured_velocity hstill]
    refine and_comm.trans (and_congr_right ?_)
    rintro rfl
    have hpos : sog ≠ 0 := by
      rintro rfl
      exact hstill (by norm_num [Still])
    have hnone : ∀ a, velocity 0 a = 0 := fun a => by simp [velocity]
    rw [hnone, hnone, sub_zero, sub_zero, velocity_inj hs hs]
    simp only [true_and, hpos, false_or, Real.Angle.coe_sub]
    rw [sub_eq_iff_eq_add, ← add_sub_assoc, eq_sub_iff_add_eq, eq_comm,
      add_comm (variation : Real.Angle)]

/-- A boat without speed through the water that is set north-east, its bow to the east. -/
theorem closes_drifting : Closes (Real.pi / 2) (Real.pi / 4) 0 2 0 :=
  (closes_iff _ _ _ le_rfl (by norm_num)).mpr <| Or.inr
    ⟨fun hstill => by norm_num [Still] at hstill, rfl, by
      rw [← Real.Angle.coe_add, Real.Angle.coe_zero, add_zero]
      ring_nf⟩

/-- The boat heads north and makes good east: the current is put to the west. -/
theorem beam_mirrored : ¬∀ headingMag cogTrue stw sog variation : ℝ, 0 ≤ stw → 0 ≤ sog →
    Closes headingMag cogTrue stw sog variation := by
  intro h
  have hbeam := (closes_iff_measured.mp (h 0 (Real.pi / 2) 1 1 0 zero_le_one zero_le_one)).1
  have hmoving : ¬Still 1 1 := fun hstill => by norm_num [Still] at hstill
  simp only [measured_velocity hmoving, velocity_eq] at hbeam
  have heast := congrArg Complex.im hbeam
  norm_num at heast

end

end CurrentVector
end SignalK.DerivedData

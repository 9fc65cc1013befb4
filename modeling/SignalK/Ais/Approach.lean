import Mathlib.Analysis.Calculus.Deriv.Add
import Mathlib.Analysis.Calculus.Deriv.Mul
import Mathlib.Analysis.Calculus.Deriv.Pow
import SignalK.Ais.Cpa
import SignalK.Types.Scalar

/-! The closest approach in real numbers: what `compute_cpa` returns is the least distance of
two steady courses, and does not depend on who is asked; but it knows no turn of longitude. -/
namespace SignalK

namespace Approach

section
variable {F : Type} [Scalar F]
open Scalar

def sogCogToXy (sog cog : F) : F × F :=
  (mul sog (sin cog), mul sog (cos cog))

/-- `compute_cpa`: the distance and the time of the closest approach. -/
def computeCpa (ownLat ownLon ownSogMs ownCogRad tgtLat tgtLon tgtSogMs tgtCogRad : F) :
    Option (F × F) :=
  if !([ownLat, ownLon, ownSogMs, ownCogRad, tgtLat, tgtLon, tgtSogMs, tgtCogRad].all
      isFinite) then none
  else
    let midLat := toRadians (div (add ownLat tgtLat) (ofRat 2))
    let cosMid := cos midLat
    let px := mul (mul (toRadians (sub tgtLon ownLon)) cosMid) (ofRat 6371000)
    let py := mul (toRadians (sub tgtLat ownLat)) (ofRat 6371000)
    let ownV := sogCogToXy ownSogMs ownCogRad
    let tgtV := sogCogToXy tgtSogMs tgtCogRad
    let vx := sub tgtV.1 ownV.1
    let vy := sub tgtV.2 ownV.2
    let vSq := add (mul vx vx) (mul vy vy)
    let tcpaS :=
      if lt vSq (ofRat (1 / 1000000)) then infinity
      else div (neg (add (mul px vx) (mul py vy))) vSq
    let cpaM :=
      if isInfinite tcpaS then sqrt (add (mul px px) (mul py py))
      else
        -- a past and a future approach are computed the same way
        let cx := add px (mul vx tcpaS)
        let cy := add py (mul vy tcpaS)
        sqrt (add (mul cx cx) (mul cy cy))
    some (cpaM, tcpaS)

end

/-- The plugin's computation is this one on doubles. -/
theorem computeCpa_doubles [FloatMath] (own target : Motion) :
    (Cpa.computeCpa own target).map (fun r => (r.cpaM, r.tcpaS)) =
      @computeCpa F64 FloatMath.scalar own.lat own.lon own.sogMs own.cogRad
        target.lat target.lon target.sogMs target.cogRad := by
  let scalar : Scalar F64 := FloatMath.scalar
  have hfinite : (Cpa.Motion.isFinite own && Cpa.Motion.isFinite target) =
      [own.lat, own.lon, own.sogMs, own.cogRad, target.lat, target.lon, target.sogMs,
        target.cogRad].all Scalar.isFinite := by
    simp only [Cpa.Motion.isFinite, List.all_cons, List.all_nil, Bool.and_true, Bool.and_assoc]
    rfl
  rw [Cpa.computeCpa, computeCpa, hfinite]
  split
  · rfl
  · rfl

/-! Two vessels on steady courses, by where one is from the other and how that changes. -/

noncomputable section

def dot (a b : ℝ × ℝ) : ℝ := a.1 * b.1 + a.2 * b.2

/-- Where something at `p` that moves by `v` in a second is after `t` seconds. -/
def after (p v : ℝ × ℝ) (t : ℝ) : ℝ × ℝ := (p.1 + v.1 * t, p.2 + v.2 * t)

def distance (p v : ℝ × ℝ) (t : ℝ) : ℝ := √(dot (after p v t) (after p v t))

/-- The distance is growing now. -/
def Separating (p v : ℝ × ℝ) : Prop := 0 < deriv (fun t => distance p v t ^ 2) 0

/-- A distance and a time are those of the closest approach; with hardly any relative speed
the distance is the present one. -/
structure IsClosest (p v : ℝ × ℝ) (r : EReal × EReal) : Prop where
  least : 1 / 1000000 ≤ dot v v → ∃ t : ℝ, r = ((distance p v t : EReal), (t : EReal)) ∧
    (∀ s, distance p v t ≤ distance p v s) ∧ (t < 0 ↔ Separating p v)
  present : dot v v < 1 / 1000000 → r.1 = (distance p v 0 : EReal)

def closestAt (p v : ℝ × ℝ) : ℝ := -dot p v / dot v v

def closest (p v : ℝ × ℝ) : EReal × EReal :=
  if dot v v < 1 / 1000000 then ((distance p v 0 : EReal), ⊤)
  else ((distance p v (closestAt p v) : EReal), (closestAt p v : EReal))

/-- The square of the distance is a parabola in the time. -/
theorem distance_sq (p v : ℝ × ℝ) (t : ℝ) :
    distance p v t ^ 2 = dot p p + 2 * dot p v * t + dot v v * t ^ 2 := by
  have hnonneg : 0 ≤ dot (after p v t) (after p v t) :=
    add_nonneg (mul_self_nonneg _) (mul_self_nonneg _)
  rw [distance, Real.sq_sqrt hnonneg]
  simp only [dot, after]
  ring

theorem distance_nonneg (p v : ℝ × ℝ) (t : ℝ) : 0 ≤ distance p v t := Real.sqrt_nonneg _

theorem closestAt_least (p : ℝ × ℝ) {v : ℝ × ℝ} (hfast : 0 < dot v v) (s : ℝ) :
    distance p v (closestAt p v) ≤ distance p v s := by
  rw [← sq_le_sq₀ (distance_nonneg p v _) (distance_nonneg p v s), distance_sq, distance_sq]
  set t := closestAt p v with ht
  have hb : dot p v = -(t * dot v v) := by
    rw [ht, closestAt, div_mul_cancel₀ _ hfast.ne', neg_neg]
  have hsquare : 0 ≤ dot v v * (s - t) ^ 2 := mul_nonneg hfast.le (sq_nonneg _)
  rw [hb]
  linarith

theorem separating_iff (p v : ℝ × ℝ) : Separating p v ↔ 0 < dot p v := by
  have hpoly : (fun t => distance p v t ^ 2) = fun t =>
      dot p p + 2 * dot p v * t + dot v v * t ^ 2 :=
    funext (distance_sq p v)
  have hlinear := HasDerivAt.add (hasDerivAt_const (0 : ℝ) (dot p p))
    (HasDerivAt.const_mul (2 * dot p v) (hasDerivAt_id' (0 : ℝ)))
  have hsquare := HasDerivAt.const_mul (dot v v) (HasDerivAt.pow (hasDerivAt_id' (0 : ℝ)) 2)
  have hderiv : HasDerivAt (fun t => distance p v t ^ 2) (2 * dot p v) 0 := by
    rw [hpoly]
    simpa using! HasDerivAt.add hlinear hsquare
  rw [Separating, hderiv.deriv]
  exact mul_pos_iff_of_pos_left two_pos

theorem closestAt_neg_iff (p : ℝ × ℝ) {v : ℝ × ℝ} (hfast : 0 < dot v v) :
    closestAt p v < 0 ↔ Separating p v := by
  rw [separating_iff, closestAt, div_lt_iff₀ hfast, zero_mul]
  exact neg_lt_zero

theorem isClosest_closest (p v : ℝ × ℝ) : IsClosest p v (closest p v) := by
  unfold closest
  split_ifs with hslow
  · exact ⟨fun hfast => absurd hslow (not_lt.mpr hfast), fun _ => rfl⟩
  · have hfast : 0 < dot v v := lt_of_lt_of_le (by norm_num) (not_lt.mp hslow)
    exact ⟨fun _ => ⟨_, rfl, closestAt_least p hfast, closestAt_neg_iff p hfast⟩,
      fun h => absurd h hslow⟩

theorem distance_neg (p v : ℝ × ℝ) (t : ℝ) : distance (-p) (-v) t = distance p v t := by
  simp only [distance, after, dot, Prod.fst_neg, Prod.snd_neg]
  congr 1
  ring

/-- From the other side it is the same. -/
theorem closest_neg (p v : ℝ × ℝ) : closest (-p) (-v) = closest p v := by
  have hv : dot (-v) (-v) = dot v v := by simp [dot]
  have hat : closestAt (-p) (-v) = closestAt p v := by simp [closestAt, dot]
  simp only [closest, hv, hat, distance_neg]

/-- A step to the east that changes neither time nor distance. -/
theorem closest_shifted {p v : ℝ × ℝ} {e : ℝ} (h : closest (p.1 + e, p.2) v = closest p v) :
    2 * p.1 * e + e ^ 2 = 0 := by
  have hsquares : ∀ t, distance (p.1 + e, p.2) v t = distance p v t →
      2 * p.1 * e + e ^ 2 + 2 * (e * v.1) * t = 0 := by
    intro t ht
    have hsq := congrArg (· ^ 2) ht
    simp only [distance_sq, dot] at hsq
    linarith
  unfold closest at h
  split_ifs at h with hslow
  · have hzero := hsquares 0 (EReal.coe_injective (Prod.ext_iff.mp h).1)
    simpa using hzero
  · obtain ⟨hdistance, htime⟩ := Prod.ext_iff.mp h
    have hfast : 0 < dot v v := lt_of_lt_of_le (by norm_num) (not_lt.mp hslow)
    have hat : closestAt (p.1 + e, p.2) v = closestAt p v := EReal.coe_injective htime
    have heast : e * v.1 = 0 := by
      have hdot := (div_left_inj' hfast.ne').mp hat
      simp only [dot] at hdot
      linarith
    rw [hat] at hdistance
    have hat' := hsquares _ (EReal.coe_injective hdistance)
    simpa [heast] using hat'

/-- The same step to the east and to the west does not matter only if it is none. -/
theorem closest_shifted_iff (p v : ℝ × ℝ) (k : ℝ) :
    (∀ e, e = k ∨ e = -k → closest (p.1 + e, p.2) v = closest p v) ↔ k = 0 := by
  constructor
  · intro h
    have heast := closest_shifted (h k (.inl rfl))
    have hwest := closest_shifted (h (-k) (.inr rfl))
    have hsq : k ^ 2 = 0 := by linarith
    exact pow_eq_zero_iff two_ne_zero |>.mp hsq
  · rintro rfl e he
    obtain rfl : e = 0 := by simpa using he
    simp

/-! The vessels themselves. -/

/-- A vessel at a place in degrees that keeps its speed and its course. -/
structure Steady where
  lat : ℝ
  lon : ℝ
  sog : ℝ
  cog : ℝ

/-- The vessel with its longitude counted another way. -/
def Steady.turned (vessel : Steady) (degrees : ℝ) : Steady :=
  { vessel with lon := vessel.lon + degrees }

variable (trig : Trig) (own target : Steady)

def compute : Option (EReal × EReal) :=
  @computeCpa EReal trig.scalar own.lat own.lon own.sog own.cog
    target.lat target.lon target.sog target.cog

section
-- For the literals in the definitions.
local instance two : Nat.AtLeastTwo 2 := ⟨le_rfl⟩
local instance halfTurn : Nat.AtLeastTwo 180 := ⟨by decide⟩

/-- The cosine of the middle latitude. -/
def cosMid : ℝ := trig.cos ((own.lat + target.lat) / 2 * (Real.pi / 180))

/-- Where the target is from the own vessel, in meters to the east and to the north. -/
def offset : ℝ × ℝ :=
  ((target.lon - own.lon) * (Real.pi / 180) * cosMid trig own target * 6371000,
    (target.lat - own.lat) * (Real.pi / 180) * 6371000)

end

/-- How that changes in a second. -/
def velocity : ℝ × ℝ :=
  (target.sog * trig.sin target.cog - own.sog * trig.sin own.cog,
    target.sog * trig.cos target.cog - own.sog * trig.cos own.cog)

/-- What is computed is the closest approach, whichever of the vessels is the own one and
however their longitudes are counted. -/
structure TrueApproach : Prop where
  closest : ∃ r, compute trig own target = some r ∧
    IsClosest (offset trig own target) (velocity trig own target) r
  exchanged : compute trig target own = compute trig own target
  turned : ∀ degrees, degrees = 360 ∨ degrees = -360 →
    compute trig (own.turned degrees) target = compute trig own target ∧
    compute trig own (target.turned degrees) = compute trig own target

variable {trig own target}

theorem compute_eq : compute trig own target =
    some (Approach.closest (offset trig own target) (velocity trig own target)) := by
  have hall : [(own.lat : EReal), own.lon, own.sog, own.cog, target.lat, target.lon, target.sog,
      target.cog].all trig.scalar.isFinite = true := by
    simp only [List.all_cons, List.all_nil, Trig.isFinite_coe, Bool.and_true]
  unfold compute computeCpa
  rw [hall]
  simp only [sogCogToXy, Bool.not_true, Bool.false_eq_true, if_false, Trig.ofRat_coe,
    Trig.add_coe, Trig.sub_coe, Trig.mul_coe, Trig.div_coe, Trig.neg_coe,
    Trig.sin_coe, Trig.cos_coe, Trig.toRadians_coe, Trig.lt_coe, decide_eq_true_eq]
  simp only [Approach.closest, distance, closestAt, dot, after, velocity, offset, cosMid,
    Rat.cast_div, Rat.cast_one, Rat.cast_ofNat, mul_zero, add_zero]
  split_ifs with hslow hinf hinf
  · simp only [Trig.sqrt_coe]
    rfl
  · exact absurd trig.isInfinite_infinity hinf
  · rw [Trig.isInfinite_coe] at hinf
    cases hinf
  · simp only [Trig.mul_coe, Trig.add_coe, Trig.sqrt_coe]

theorem compute_exchanged : compute trig target own = compute trig own target := by
  have hmid : cosMid trig target own = cosMid trig own target := by
    rw [cosMid, add_comm, cosMid]
  have hoffset : offset trig target own = -offset trig own target := by
    ext
    · simp only [offset, hmid, Prod.fst_neg]
      ring
    · simp only [offset, Prod.snd_neg]
      ring
  have hvelocity : velocity trig target own = -velocity trig own target := by
    ext <;> simp [velocity]
  rw [compute_eq, compute_eq, hoffset, hvelocity, closest_neg]

section
attribute [local instance] halfTurn

/-- How far to the east so many degrees of longitude are. -/
def eastward (trig : Trig) (own target : Steady) (degrees : ℝ) : ℝ :=
  degrees * (Real.pi / 180) * cosMid trig own target * 6371000

end

theorem compute_turned (degrees : ℝ) : compute trig own (target.turned degrees) =
    some (Approach.closest ((offset trig own target).1 + eastward trig own target degrees,
      (offset trig own target).2) (velocity trig own target)) := by
  have hoffset : offset trig own (target.turned degrees) =
      ((offset trig own target).1 + eastward trig own target degrees,
        (offset trig own target).2) := by
    simp only [offset, eastward, cosMid, Steady.turned, Prod.mk.injEq, and_true]
    ring
  have hvelocity : velocity trig own (target.turned degrees) = velocity trig own target := rfl
  rw [compute_eq, hoffset, hvelocity]

/-- To turn the one is to turn the other the other way. -/
theorem compute_turned_own (degrees : ℝ) : compute trig (own.turned degrees) target =
    compute trig own (target.turned (-degrees)) := by
  have hoffset : offset trig (own.turned degrees) target =
      offset trig own (target.turned (-degrees)) := by
    simp only [offset, cosMid, Steady.turned, Prod.mk.injEq, and_true]
    ring
  have hvelocity : velocity trig (own.turned degrees) target =
      velocity trig own (target.turned (-degrees)) := rfl
  rw [compute_eq, compute_eq, hoffset, hvelocity]

theorem eastward_neg (degrees : ℝ) :
    eastward trig own target (-degrees) = -eastward trig own target degrees := by
  simp only [eastward]
  ring

theorem eastward_eq_zero_iff :
    eastward trig own target 360 = 0 ↔ cosMid trig own target = 0 := by
  have hpi : Real.pi ≠ 0 := Real.pi_ne_zero
  simp [eastward, hpi]

/-- A full turn does not matter exactly where the meridians meet. -/
theorem turned_iff : (∀ degrees, degrees = 360 ∨ degrees = -360 →
      compute trig (own.turned degrees) target = compute trig own target ∧
      compute trig own (target.turned degrees) = compute trig own target) ↔
    cosMid trig own target = 0 := by
  rw [← eastward_eq_zero_iff,
    ← closest_shifted_iff (offset trig own target) (velocity trig own target)]
  have hsame : ∀ degrees, compute trig own (target.turned degrees) = compute trig own target ↔
      Approach.closest ((offset trig own target).1 + eastward trig own target degrees,
        (offset trig own target).2) (velocity trig own target) =
      Approach.closest (offset trig own target) (velocity trig own target) := by
    intro degrees
    rw [compute_turned, compute_eq, Option.some_inj]
  constructor
  · rintro h e (rfl | rfl)
    · exact (hsame 360).mp (h 360 (.inl rfl)).2
    · rw [← eastward_neg]
      exact (hsame (-360)).mp (h (-360) (.inr rfl)).2
  · intro h
    have hturn : ∀ degrees, degrees = 360 ∨ degrees = -360 →
        compute trig own (target.turned degrees) = compute trig own target := by
      rintro degrees (rfl | rfl)
      · exact (hsame 360).mpr (h _ (.inl rfl))
      · exact (hsame (-360)).mpr (h _ (.inr (eastward_neg 360)))
    rintro degrees hdegrees
    refine ⟨?_, hturn degrees hdegrees⟩
    rw [compute_turned_own]
    refine hturn (-degrees) ?_
    obtain rfl | rfl := hdegrees
    · exact .inr rfl
    · exact .inl (neg_neg 360)

theorem trueApproach_iff (trig : Trig) (own target : Steady) :
    TrueApproach trig own target ↔ cosMid trig own target = 0 := by
  constructor
  · intro h
    exact turned_iff.mp h.turned
  · intro h
    exact ⟨⟨_, compute_eq, isClosest_closest _ _⟩, compute_exchanged, turned_iff.mpr h⟩

/-- Two ships on the equator, a fifth of a degree apart, on either side of the antimeridian. -/
theorem antimeridian_apart : ¬TrueApproach .exact ⟨0, 179.9, 0, 0⟩ ⟨0, -179.9, 0, 0⟩ := by
  intro h
  have hcos := turned_iff.mp h.turned
  simp [cosMid, Trig.exact] at hcos

end

end Approach
end SignalK

import SignalK.Autopilot.Pd
import SignalK.Lib.Arc

/-! The filters of the autopilot in exact arithmetic: over the reals, with the sine, the
cosine and the argument as they are. -/
namespace SignalK
namespace Filter
open Smoothing

structure LowPassFilter (K : Type*) where
  value : Option K
  alpha : K

namespace LowPassFilter
variable {K : Type*} [Field K]

def new [LinearOrder K] (alpha : K) : Option (LowPassFilter K) :=
  if 0 < alpha ∧ alpha ≤ 1 then some ⟨none, alpha⟩ else none

def update (f : LowPassFilter K) (input : K) : LowPassFilter K × K :=
  let out :=
    match f.value with
    | some prev => prev + f.alpha * (input - prev)
    | none => input
  ({ f with value := some out }, out)

def reset (f : LowPassFilter K) : LowPassFilter K := { f with value := none }

def get (f : LowPassFilter K) : Option K := f.value

theorem update_eq (f : LowPassFilter K) (input : K) :
    f.update input =
      ({ f with value := some (smooth f.alpha f.value input) }, smooth f.alpha f.value input) := by
  rw [update]
  cases f.value <;> rfl

end LowPassFilter

/-- An angle and the components of its direction. -/
structure Directions (K : Type*) where
  sin : K → K
  cos : K → K
  atan2 : K → K → K

structure CircularFilter (K : Type*) where
  sinFilter : LowPassFilter K
  cosFilter : LowPassFilter K

namespace CircularFilter
variable {K : Type*} [Field K]

def new [LinearOrder K] (alpha : K) : Option (CircularFilter K) :=
  (LowPassFilter.new alpha).map fun f => ⟨f, f⟩

def update (dir : Directions K) (f : CircularFilter K) (angleRad : K) : CircularFilter K × K :=
  let s := f.sinFilter.update (dir.sin angleRad)
  let c := f.cosFilter.update (dir.cos angleRad)
  (⟨s.1, c.1⟩, dir.atan2 s.2 c.2)

def reset (f : CircularFilter K) : CircularFilter K := ⟨f.sinFilter.reset, f.cosFilter.reset⟩

def get (dir : Directions K) (f : CircularFilter K) : Option K :=
  match f.sinFilter.get, f.cosFilter.get with
  | some s, some c => some (dir.atan2 s c)
  | _, _ => none

end CircularFilter

/-! The filters of the control loop are these, over the rationals. -/

def ofLoop (f : SignalK.CircularFilter) : CircularFilter ℚ :=
  ⟨⟨f.sinFilter.value, f.sinFilter.alpha⟩, ⟨f.cosFilter.value, f.cosFilter.alpha⟩⟩

theorem ofLoop_new (alpha : ℚ) :
    (SignalK.CircularFilter.new alpha).map ofLoop = CircularFilter.new alpha := by
  rw [SignalK.CircularFilter.new, SignalK.LowPassFilter.new, CircularFilter.new,
    LowPassFilter.new]
  split_ifs <;> rfl

theorem ofLoop_update [AngleMath] (f : SignalK.CircularFilter) (angleRad : ℚ) :
    (ofLoop f).update ⟨AngleMath.sin, AngleMath.cos, AngleMath.atan2⟩ angleRad =
      (ofLoop (f.update angleRad).1, (f.update angleRad).2) := by
  obtain ⟨⟨s, alphaS⟩, ⟨c, alphaC⟩⟩ := f
  cases s <;> cases c <;> rfl

theorem ofLoop_reset (f : SignalK.CircularFilter) : (ofLoop f).reset = ofLoop f.reset := rfl

/-! A filter that is called again and again. -/

inductive Call (K : Type*) where
  | update (angleRad : K)
  | reset

section
variable {K : Type*} [Field K]

def CircularFilter.apply (dir : Directions K) (f : CircularFilter K) : Call K → CircularFilter K
  | .update angleRad => (f.update dir angleRad).1
  | .reset => f.reset

def CircularFilter.run (dir : Directions K) (f : CircularFilter K) (calls : List (Call K)) :
    CircularFilter K :=
  calls.foldl (CircularFilter.apply dir) f

/-- The angles since the last reset. -/
def since (calls : List (Call K)) : List K :=
  calls.foldl
    (fun angles call =>
      match call with
      | .update angleRad => angles ++ [angleRad]
      | .reset => [])
    []

def Call.rotate (d : K) : Call K → Call K
  | .update angleRad => .update (angleRad + d)
  | .reset => .reset

theorem since_rotate (d : K) (calls : List (Call K)) :
    since (calls.map (Call.rotate d)) = (since calls).map (· + d) := by
  induction calls using List.reverseRecOn with
  | nil => rfl
  | append_singleton calls call ih =>
    rw [since, since] at ih ⊢
    rw [List.map_append, List.foldl_append, List.foldl_append, ih]
    cases call with
    | update angleRad => simp [Call.rotate]
    | reset => rfl

end

noncomputable section

/-- Exact arithmetic. -/
def Directions.exact : Directions ℝ := ⟨Real.sin, Real.cos, fun y x => Complex.arg ⟨x, y⟩⟩

/-- The filtered vector. -/
def CircularFilter.vector (f : CircularFilter ℝ) : Option ℂ :=
  f.sinFilter.get.bind fun s => f.cosFilter.get.map fun c => ⟨c, s⟩

/-- The two filters hold the components of the average of the unit vectors. -/
structure CircularFilter.Averages (f : CircularFilter ℝ) (alpha : ℝ) (angles : List ℝ) :
    Prop where
  sinAlpha : f.sinFilter.alpha = alpha
  cosAlpha : f.cosFilter.alpha = alpha
  sinValue : f.sinFilter.value = (average alpha (angles.map Arc.unit)).map Complex.im
  cosValue : f.cosFilter.value = (average alpha (angles.map Arc.unit)).map Complex.re

namespace CircularFilter
variable {f : CircularFilter ℝ} {alpha : ℝ} {angles : List ℝ}

theorem Averages.update (h : f.Averages alpha angles) (angleRad : ℝ) :
    (f.update Directions.exact angleRad).1.Averages alpha (angles ++ [angleRad]) where
  sinAlpha := by
    rw [CircularFilter.update, LowPassFilter.update_eq]
    exact h.sinAlpha
  cosAlpha := by
    rw [CircularFilter.update, LowPassFilter.update_eq f.cosFilter]
    exact h.cosAlpha
  sinValue := by
    have hmap := smooth_map Complex.imLm alpha (average alpha (angles.map Arc.unit))
      (Arc.unit angleRad)
    rw [CircularFilter.update, LowPassFilter.update_eq, h.sinAlpha, h.sinValue, List.map_append,
      List.map_singleton, average_concat]
    exact congrArg some hmap
  cosValue := by
    have hmap := smooth_map Complex.reLm alpha (average alpha (angles.map Arc.unit))
      (Arc.unit angleRad)
    rw [CircularFilter.update, LowPassFilter.update_eq f.cosFilter, h.cosAlpha, h.cosValue,
      List.map_append, List.map_singleton, average_concat]
    exact congrArg some hmap

theorem Averages.reset (h : f.Averages alpha angles) : f.reset.Averages alpha [] :=
  ⟨h.sinAlpha, h.cosAlpha, rfl, rfl⟩

theorem averages_of_new (hnew : CircularFilter.new alpha = some f) :
    0 < alpha ∧ alpha ≤ 1 ∧ f.Averages alpha [] := by
  rw [CircularFilter.new, LowPassFilter.new] at hnew
  split_ifs at hnew with halpha
  · rw [Option.map_some, Option.some_inj] at hnew
    subst hnew
    exact ⟨halpha.1, halpha.2, rfl, rfl, rfl, rfl⟩
  · cases hnew

/-- Through every run. -/
theorem Averages.run (h : f.Averages alpha []) (calls : List (Call ℝ)) :
    (f.run Directions.exact calls).Averages alpha (since calls) := by
  induction calls using List.reverseRecOn with
  | nil => exact h
  | append_singleton calls call ih =>
    rw [CircularFilter.run, since] at ih ⊢
    rw [List.foldl_append, List.foldl_append]
    cases call with
    | update angleRad => exact ih.update angleRad
    | reset => exact ih.reset

theorem Averages.vector_eq (h : f.Averages alpha angles) :
    f.vector = average alpha (angles.map Arc.unit) := by
  rw [vector, LowPassFilter.get, LowPassFilter.get, h.sinValue, h.cosValue]
  cases average alpha (angles.map Arc.unit) <;> rfl

/-- What an update gives is the direction of the vector that it leaves. -/
theorem update_snd (f : CircularFilter ℝ) (angleRad : ℝ) :
    ∃ z, (f.update Directions.exact angleRad).1.vector = some z ∧
      (f.update Directions.exact angleRad).2 = z.arg := by
  rw [CircularFilter.update, LowPassFilter.update_eq, LowPassFilter.update_eq f.cosFilter]
  exact ⟨_, rfl, rfl⟩

theorem get_update (f : CircularFilter ℝ) (angleRad : ℝ) :
    (f.update Directions.exact angleRad).1.get Directions.exact =
      some (f.update Directions.exact angleRad).2 := by
  rw [CircularFilter.update, LowPassFilter.update_eq, LowPassFilter.update_eq f.cosFilter]
  rfl

end CircularFilter

/-- An update with the last angle keeps to the arc of the angles since the last reset. -/
structure Within (f : CircularFilter ℝ) (calls : List (Call ℝ)) (angleRad : ℝ) : Prop where
  vector : ∃ z, z ≠ 0 ∧
    ((f.run Directions.exact calls).update Directions.exact angleRad).1.vector = some z ∧
    ((f.run Directions.exact calls).update Directions.exact angleRad).2 = z.arg
  kept : ((f.run Directions.exact calls).update Directions.exact angleRad).1.get
      Directions.exact =
    some ((f.run Directions.exact calls).update Directions.exact angleRad).2
  narrow : ∀ arc : Arc, arc.Narrow → (∀ θ ∈ since calls ++ [angleRad], arc.Holds θ) →
    arc.Holds ((f.run Directions.exact calls).update Directions.exact angleRad).2
  smallest : (∃ arc : Arc, arc.Smallest (since calls ++ [angleRad])) ∧
    ∀ arc : Arc, arc.Smallest (since calls ++ [angleRad]) →
      arc.Holds ((f.run Directions.exact calls).update Directions.exact angleRad).2
  rotated : ∀ d : ℝ,
    (((f.run Directions.exact (calls.map (Call.rotate d))).update Directions.exact
      (angleRad + d)).2 : Real.Angle) =
    (((f.run Directions.exact calls).update Directions.exact angleRad).2 + d : ℝ)

section
variable {f : CircularFilter ℝ} {alpha : ℝ}

/-- The update of a run goes by the average of the unit vectors. -/
theorem update_run (hnew : CircularFilter.new alpha = some f) (calls : List (Call ℝ))
    (angleRad : ℝ) :
    ∃ z, average alpha ((since calls ++ [angleRad]).map Arc.unit) = some z ∧
      ((f.run Directions.exact calls).update Directions.exact angleRad).1.vector = some z ∧
      ((f.run Directions.exact calls).update Directions.exact angleRad).2 = z.arg := by
  obtain ⟨-, -, hstart⟩ := CircularFilter.averages_of_new hnew
  obtain ⟨z, hz, harg⟩ :=
    CircularFilter.update_snd (f.run Directions.exact calls) angleRad
  have hvector := ((hstart.run calls).update angleRad).vector_eq
  exact ⟨z, hvector.symm.trans hz, hz, harg⟩

theorem mem_cone (hnew : CircularFilter.new alpha = some f) {arc : Arc} (hnarrow : arc.Narrow)
    {angles : List ℝ} (h : ∀ θ ∈ angles, arc.Holds θ) {z : ℂ}
    (hz : average alpha (angles.map Arc.unit) = some z) : z ∈ arc.cone := by
  obtain ⟨h0, h1, -⟩ := CircularFilter.averages_of_new hnew
  refine average_mem Arc.convex_cone h0.le h1 ?_ z hz
  intro x hx
  obtain ⟨θ, hθ, rfl⟩ := List.mem_map.mp hx
  exact Arc.unit_mem_cone hnarrow (h θ hθ)

/-- The average of vectors that are turned is the average turned. -/
theorem average_rotate (d : ℝ) (angles : List ℝ) :
    average alpha ((angles.map (· + d)).map Arc.unit) =
      (average alpha (angles.map Arc.unit)).map (Arc.unit d * ·) := by
  have hmap := average_map (LinearMap.mulLeft ℝ (Arc.unit d)) alpha (angles.map Arc.unit)
  rw [List.map_map] at hmap ⊢
  have hturned : (Arc.unit ∘ (· + d)) = ⇑(LinearMap.mulLeft ℝ (Arc.unit d)) ∘ Arc.unit := by
    funext θ
    exact Arc.unit_add θ d
  rw [hturned, hmap]
  rfl

theorem within (hnew : CircularFilter.new alpha = some f) (calls : List (Call ℝ))
    (angleRad : ℝ) {arc : Arc} (hnarrow : arc.Narrow)
    (h : ∀ θ ∈ since calls ++ [angleRad], arc.Holds θ) : Within f calls angleRad := by
  obtain ⟨z, haverage, hz, harg⟩ := update_run hnew calls angleRad
  have hne := Arc.ne_zero_of_mem_cone (mem_cone hnew hnarrow h haverage)
  have hinside : ∀ other : Arc, other.Narrow →
      (∀ θ ∈ since calls ++ [angleRad], other.Holds θ) → other.Holds z.arg :=
    fun other hother hholds => Arc.holds_arg hother (mem_cone hnew hother hholds haverage)
  refine ⟨⟨z, hne, hz, harg⟩, CircularFilter.get_update _ angleRad, ?_, ⟨?_, ?_⟩, ?_⟩
  · rw [harg]
    exact hinside
  · exact Arc.exists_smallest hnarrow (by simp) h
  · intro small hsmall
    have hleast := hsmall.least arc h
    rw [harg]
    refine hinside small ?_ hsmall.holds
    rw [Arc.Narrow] at hnarrow ⊢
    linarith
  · intro d
    obtain ⟨y, hturned, -, hyarg⟩ := update_run hnew (calls.map (Call.rotate d)) (angleRad + d)
    have hangles : since (calls.map (Call.rotate d)) ++ [angleRad + d] =
        (since calls ++ [angleRad]).map (· + d) := by
      rw [since_rotate, List.map_append, List.map_singleton]
    rw [hangles, average_rotate, haverage, Option.map_some, Option.some_inj] at hturned
    rw [hyarg, harg, ← hturned, Arc.arg_unit_mul d hne]

theorem constant (hnew : CircularFilter.new alpha = some f) (calls : List (Call ℝ))
    (angleRad : ℝ) (h : ∀ θ ∈ since calls, θ = angleRad) :
    ((f.run Directions.exact calls).update Directions.exact angleRad).2 =
      (Arc.unit angleRad).arg := by
  obtain ⟨h0, h1, -⟩ := CircularFilter.averages_of_new hnew
  obtain ⟨z, haverage, -, harg⟩ := update_run hnew calls angleRad
  have hz := average_mem (convex_singleton (Arc.unit angleRad)) h0.le h1 (fun x hx => ?_) z
    haverage
  · rw [harg, Set.mem_singleton_iff.mp hz]
  · obtain ⟨θ, hθ, rfl⟩ := List.mem_map.mp hx
    cases List.mem_append.mp hθ with
    | inl hθ => rw [h θ hθ, Set.mem_singleton_iff]
    | inr hθ => rw [List.mem_singleton.mp hθ, Set.mem_singleton_iff]

/-- Angles within half a turn are filtered within their arc, and one angle alone is left as it
is. -/
theorem circularFilter_within (hnew : CircularFilter.new alpha = some f)
    (calls : List (Call ℝ)) (angleRad : ℝ) :
    ((∃ arc : Arc, arc.Narrow ∧ ∀ θ ∈ since calls ++ [angleRad], arc.Holds θ) →
      Within f calls angleRad) ∧
    ((∀ θ ∈ since calls, θ = angleRad) →
      (((f.run Directions.exact calls).update Directions.exact angleRad).2 : Real.Angle) =
        angleRad ∧
      (angleRad ∈ Set.Ioc (-Real.pi) Real.pi →
        ((f.run Directions.exact calls).update Directions.exact angleRad).2 = angleRad)) := by
  refine ⟨?_, ?_⟩
  · intro h
    obtain ⟨arc, hnarrow, hholds⟩ := h
    exact within hnew calls angleRad hnarrow hholds
  · intro h
    rw [constant hnew calls angleRad h]
    exact ⟨Arc.arg_unit angleRad, Arc.arg_unit_eq⟩

theorem circularFilter_within_half :
    ((∃ arc : Arc, arc.Narrow ∧ ∀ θ ∈ since [.update (-3)] ++ [3], arc.Holds θ) →
      Within ⟨⟨none, 1 / 2⟩, ⟨none, 1 / 2⟩⟩ [.update (-3)] 3) ∧
    ((∀ θ ∈ since [.update (-3)], θ = (3 : ℝ)) →
      (((CircularFilter.run Directions.exact ⟨⟨none, 1 / 2⟩, ⟨none, 1 / 2⟩⟩
        [.update (-3)]).update Directions.exact 3).2 : Real.Angle) = (3 : ℝ) ∧
      ((3 : ℝ) ∈ Set.Ioc (-Real.pi) Real.pi →
        ((CircularFilter.run Directions.exact ⟨⟨none, 1 / 2⟩, ⟨none, 1 / 2⟩⟩
          [.update (-3)]).update Directions.exact 3).2 = 3)) := by
  have hnew : CircularFilter.new (1 / 2 : ℝ) = some ⟨⟨none, 1 / 2⟩, ⟨none, 1 / 2⟩⟩ := by
    rw [CircularFilter.new, LowPassFilter.new, if_pos (by norm_num), Option.map_some]
  exact circularFilter_within hnew [.update (-3)] 3

end

end

end Filter
end SignalK

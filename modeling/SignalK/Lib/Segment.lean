import Mathlib.Algebra.Order.Field.Basic
import Mathlib.Tactic.Linarith
import Mathlib.Tactic.FieldSimp
import Mathlib.Tactic.Ring

/-! Points of the plane against a segment and against the line through it: what is
close to the line is close to the segment unless it lies beyond an end. -/
namespace Plane
variable {K : Type*} [Field K]

def sqDist (p q : K × K) : K :=
  (p.1 - q.1) * (p.1 - q.1) + (p.2 - q.2) * (p.2 - q.2)

/-- How far along `a`–`b` a point is, in units of the squared length. -/
def along (p a b : K × K) : K :=
  (p.1 - a.1) * (b.1 - a.1) + (p.2 - a.2) * (b.2 - a.2)

def cross (p a b : K × K) : K :=
  (p.1 - a.1) * (b.2 - a.2) - (p.2 - a.2) * (b.1 - a.1)

/-- A point of the line, `a` at zero and `b` at one. -/
def onLine (a b : K × K) (t : K) : K × K :=
  (a.1 + t * (b.1 - a.1), a.2 + t * (b.2 - a.2))

theorem onLine_zero (a b : K × K) : onLine a b 0 = a := by
  simp [onLine]

theorem onLine_one (a b : K × K) : onLine a b 1 = b := by
  simp [onLine]

/-- The distance to a point of the line, counted from `a`. -/
theorem sqDist_onLine (p a b : K × K) (t : K) :
    sqDist p (onLine a b t) = sqDist p a - 2 * t * along p a b + t * t * sqDist b a := by
  simp only [sqDist, onLine, along]
  ring

/-- The same counted from `b`. -/
theorem sqDist_onLine' (p a b : K × K) (t : K) :
    sqDist p (onLine a b t) =
      sqDist p b + 2 * (1 - t) * (along p a b - sqDist b a) + (1 - t) * (1 - t) * sqDist b a := by
  simp only [sqDist, onLine, along]
  ring

/-- The foot of the perpendicular is as far away as the line. -/
theorem sqDist_foot {p a b : K × K} (h : sqDist b a ≠ 0) :
    sqDist p (onLine a b (along p a b / sqDist b a)) =
      cross p a b * cross p a b / sqDist b a := by
  have hpythagoras : sqDist p a * sqDist b a =
      cross p a b * cross p a b + along p a b * along p a b := by
    simp only [sqDist, cross, along]
    ring
  have hcross : cross p a b * cross p a b =
      sqDist p a * sqDist b a - along p a b * along p a b := by
    rw [hpythagoras]
    ring
  rw [sqDist_onLine, hcross]
  field_simp
  ring

variable [LinearOrder K] [IsStrictOrderedRing K]

theorem sqDist_nonneg (p q : K × K) : 0 ≤ sqDist p q :=
  add_nonneg (mul_self_nonneg _) (mul_self_nonneg _)

/-- Within the square root of `r` of the segment. -/
def NearSegment (r : K) (p a b : K × K) : Prop :=
  ∃ t, 0 ≤ t ∧ t ≤ 1 ∧ sqDist p (onLine a b t) ≤ r

/-- Beyond an end of the segment, and not close to either end. -/
def Beyond (r : K) (p a b : K × K) : Prop :=
  (along p a b < 0 ∨ sqDist b a < along p a b) ∧ r < sqDist p a ∧ r < sqDist p b

theorem NearSegment.of_start {r : K} {p a b : K × K} (h : sqDist p a ≤ r) : NearSegment r p a b :=
  ⟨0, le_refl 0, zero_le_one, by rwa [onLine_zero]⟩

theorem NearSegment.of_end {r : K} {p a b : K × K} (h : sqDist p b ≤ r) : NearSegment r p a b :=
  ⟨1, zero_le_one, le_refl 1, by rwa [onLine_one]⟩

theorem NearSegment.not_beyond {r : K} {p a b : K × K} (h : NearSegment r p a b) :
    ¬ Beyond r p a b := by
  rintro ⟨hout, ha, hb⟩
  obtain ⟨t, ht₀, ht₁, hnear⟩ := h
  have hlen := sqDist_nonneg b a
  cases hout with
  | inl hbehind =>
    rw [sqDist_onLine] at hnear
    have hsecond : 0 ≤ t * t * sqDist b a := mul_nonneg (mul_self_nonneg t) hlen
    have hfirst : 2 * t * along p a b ≤ 0 :=
      mul_nonpos_of_nonneg_of_nonpos (by linarith) hbehind.le
    linarith
  | inr hpast =>
    rw [sqDist_onLine'] at hnear
    have hsecond : 0 ≤ (1 - t) * (1 - t) * sqDist b a := mul_nonneg (mul_self_nonneg _) hlen
    have hfirst : 0 ≤ 2 * (1 - t) * (along p a b - sqDist b a) :=
      mul_nonneg (by linarith) (by linarith)
    linarith

/-- Close to the line, a point is close to the segment unless it is beyond its ends. -/
theorem nearSegment_iff {r : K} {p a b : K × K} (hlen : 0 < sqDist b a)
    (hline : cross p a b * cross p a b ≤ r * sqDist b a) :
    NearSegment r p a b ↔ ¬ Beyond r p a b := by
  refine ⟨NearSegment.not_beyond, fun h => ?_⟩
  by_cases ha : sqDist p a ≤ r
  · exact NearSegment.of_start ha
  by_cases hb : sqDist p b ≤ r
  · exact NearSegment.of_end hb
  have hbetween : 0 ≤ along p a b ∧ along p a b ≤ sqDist b a := by
    by_contra hout
    refine h ⟨?_, not_le.mp ha, not_le.mp hb⟩
    by_cases hneg : along p a b < 0
    · exact .inl hneg
    · exact .inr (not_le.mp fun hle => hout ⟨not_lt.mp hneg, hle⟩)
  refine ⟨along p a b / sqDist b a, div_nonneg hbetween.1 hlen.le,
    (div_le_one hlen).mpr hbetween.2, ?_⟩
  rw [sqDist_foot hlen.ne']
  exact (div_le_iff₀ hlen).mpr hline

end Plane

import Mathlib.Analysis.SpecialFunctions.Complex.Arg
import Mathlib.Data.EReal.Inv
import SignalK.Types.Exact

/-! Formulas that are written once and read twice: over doubles, and over the real numbers
with an infinity. -/
namespace SignalK

/-- What a formula needs of the numbers that it is about. -/
class Scalar (F : Type) where
  ofRat : ℚ → F
  infinity : F
  isFinite : F → Bool
  isInfinite : F → Bool
  lt : F → F → Bool
  add : F → F → F
  sub : F → F → F
  mul : F → F → F
  div : F → F → F
  neg : F → F
  sin : F → F
  cos : F → F
  sqrt : F → F
  toRadians : F → F

/-- The same with the functions that formulas about directions need. -/
class DirectionScalar (F : Type) extends Scalar F where
  pi : F
  abs : F → F
  max : F → F → F
  atan2 : F → F → F
  remEuclid : F → F → F

/-- Doubles whose arithmetic is left open. -/
@[reducible] def FloatMath.scalar [FloatMath] : Scalar F64 where
  ofRat := F64.finite
  infinity := .posInf
  isFinite := F64.isFinite
  isInfinite := F64.isInfinite
  lt := F64.lt
  add := FloatMath.add
  sub := FloatMath.sub
  mul := FloatMath.mul
  div := FloatMath.div
  neg := FloatMath.neg
  sin := FloatMath.sin
  cos := FloatMath.cos
  sqrt := FloatMath.sqrt
  toRadians := FloatMath.toRadians

/-- Doubles without rounding. -/
@[reducible] def ExactMath.scalar [ExactMath] : DirectionScalar F64 where
  ofRat := F64.finite
  infinity := .posInf
  isFinite := F64.isFinite
  isInfinite := F64.isInfinite
  lt := F64.lt
  add a b := a + b
  sub a b := a - b
  mul a b := a * b
  div a b := a / b
  neg a := -a
  sin := ExactMath.sin
  cos := ExactMath.cos
  sqrt := ExactMath.sqrt
  toRadians := Geo.toRadians
  pi := .finite ExactMath.pi
  abs := F64.abs
  max := F64.max
  atan2 := ExactMath.atan2
  remEuclid := F64.remEuclid

/-- The sines and cosines that a formula goes by. -/
structure Trig where
  sin : ℝ → ℝ
  cos : ℝ → ℝ

noncomputable section
open Classical

/-- Real numbers, for any sines and cosines. -/
@[reducible] def Trig.scalar (trig : Trig) : Scalar EReal where
  ofRat q := ((q : ℝ) : EReal)
  infinity := ⊤
  isFinite x := decide (x ≠ ⊤ ∧ x ≠ ⊥)
  isInfinite x := decide (x = ⊤ ∨ x = ⊥)
  lt a b := decide (a < b)
  add a b := a + b
  sub a b := a - b
  mul a b := a * b
  div a b := a / b
  neg a := -a
  sin x := (trig.sin x.toReal : EReal)
  cos x := (trig.cos x.toReal : EReal)
  sqrt x := (√x.toReal : EReal)
  toRadians x := ((x.toReal * (Real.pi / 180) : ℝ) : EReal)

def Trig.exact : Trig := ⟨Real.sin, Real.cos⟩

/-- Real numbers and the functions of analysis. -/
@[reducible] def Trig.exactScalar : DirectionScalar EReal where
  toScalar := Trig.exact.scalar
  pi := (Real.pi : EReal)
  abs x := ((|x.toReal| : ℝ) : EReal)
  max a b := if a < b then b else a
  atan2 y x := ((Complex.arg ⟨x.toReal, y.toReal⟩ : ℝ) : EReal)
  remEuclid a m := ((a.toReal - m.toReal * ⌊a.toReal / m.toReal⌋ : ℝ) : EReal)

namespace Trig
variable (trig : Trig) (x y : ℝ)

theorem isFinite_coe : trig.scalar.isFinite (x : EReal) = true :=
  decide_eq_true ⟨EReal.coe_ne_top x, EReal.coe_ne_bot x⟩

theorem isInfinite_coe : trig.scalar.isInfinite (x : EReal) = false :=
  decide_eq_false (not_or.mpr ⟨EReal.coe_ne_top x, EReal.coe_ne_bot x⟩)

theorem isInfinite_infinity : trig.scalar.isInfinite trig.scalar.infinity = true :=
  decide_eq_true (.inl rfl)

theorem ofRat_coe (q : ℚ) : trig.scalar.ofRat q = ((q : ℝ) : EReal) := rfl

theorem lt_coe : trig.scalar.lt (x : EReal) (y : EReal) = decide (x < y) :=
  decide_eq_decide.mpr EReal.coe_lt_coe_iff

theorem add_coe : trig.scalar.add (x : EReal) (y : EReal) = ((x + y : ℝ) : EReal) := rfl

theorem sub_coe : trig.scalar.sub (x : EReal) (y : EReal) = ((x - y : ℝ) : EReal) := rfl

theorem mul_coe : trig.scalar.mul (x : EReal) (y : EReal) = ((x * y : ℝ) : EReal) :=
  (EReal.coe_mul x y).symm

theorem div_coe : trig.scalar.div (x : EReal) (y : EReal) = ((x / y : ℝ) : EReal) :=
  (EReal.coe_div x y).symm

theorem neg_coe : trig.scalar.neg (x : EReal) = ((-x : ℝ) : EReal) := rfl

theorem sin_coe : trig.scalar.sin (x : EReal) = ((trig.sin x : ℝ) : EReal) := rfl

theorem cos_coe : trig.scalar.cos (x : EReal) = ((trig.cos x : ℝ) : EReal) := rfl

theorem sqrt_coe : trig.scalar.sqrt (x : EReal) = ((√x : ℝ) : EReal) := rfl

theorem toRadians_coe :
    trig.scalar.toRadians (x : EReal) = ((x * (Real.pi / 180) : ℝ) : EReal) := rfl

theorem max_coe : exactScalar.max (x : EReal) (y : EReal) = ((max x y : ℝ) : EReal) := by
  change (if (x : EReal) < (y : EReal) then (y : EReal) else x) = _
  simp only [EReal.coe_lt_coe_iff]
  split_ifs with h
  · rw [max_eq_right h.le]
  · rw [max_eq_left (not_lt.mp h)]

theorem abs_coe : exactScalar.abs (x : EReal) = ((|x| : ℝ) : EReal) := rfl

theorem atan2_coe : exactScalar.atan2 (y : EReal) (x : EReal) =
    ((Complex.arg ⟨x, y⟩ : ℝ) : EReal) := rfl

theorem remEuclid_coe : exactScalar.remEuclid (x : EReal) (y : EReal) =
    ((x - y * ⌊x / y⌋ : ℝ) : EReal) := rfl

theorem pi_coe : exactScalar.pi = (Real.pi : EReal) := rfl

end Trig

end

end SignalK

import Mathlib.Data.Rat.Floor
import SignalK.Types.F64

/-! Doubles without rounding and without overflow: rational numbers, infinities and NaN.
A zero has no sign, so what is divided by one goes by its own sign alone. -/
namespace SignalK

namespace F64

instance (n : Nat) : OfNat F64 n := ⟨finite n⟩

instance : OfScientific F64 := ⟨fun m s e => finite (OfScientific.ofScientific m s e)⟩

instance : LT F64 := ⟨fun a b => a.lt b = true⟩

instance : LE F64 := ⟨fun a b => a.le b = true⟩

instance (a b : F64) : Decidable (a < b) := inferInstanceAs (Decidable (_ = true))

instance (a b : F64) : Decidable (a ≤ b) := inferInstanceAs (Decidable (_ = true))

instance : Neg F64 where
  neg
    | finite a => finite (-a)
    | posInf => negInf
    | negInf => posInf
    | nan => nan

instance : Add F64 where
  add
    | finite a, finite b => finite (a + b)
    | finite _, b => b
    | a, finite _ => a
    | posInf, posInf => posInf
    | negInf, negInf => negInf
    | _, _ => nan

instance : Sub F64 := ⟨fun a b => a + -b⟩

/-- An infinity times the sign of a number. -/
def infinity (q : ℚ) : F64 :=
  if 0 < q then posInf else if q < 0 then negInf else nan

instance : Mul F64 where
  mul
    | finite a, finite b => finite (a * b)
    | finite a, posInf => infinity a
    | posInf, finite a => infinity a
    | finite a, negInf => infinity (-a)
    | negInf, finite a => infinity (-a)
    | posInf, posInf => posInf
    | negInf, negInf => posInf
    | posInf, negInf => negInf
    | negInf, posInf => negInf
    | _, _ => nan

instance : Div F64 where
  div
    | finite a, finite b => if b = 0 then infinity a else finite (a / b)
    | finite _, posInf => finite 0
    | finite _, negInf => finite 0
    | posInf, finite b => if b < 0 then negInf else posInf
    | negInf, finite b => if b < 0 then posInf else negInf
    | _, _ => nan

def abs : F64 → F64
  | finite a => finite |a|
  | negInf => posInf
  | x => x

/-- `f64::max`, of which a NaN is never the result when the other is a number. -/
def max : F64 → F64 → F64
  | nan, b => b
  | a, nan => a
  | a, b => if a < b then b else a

/-- `x.rem_euclid(m)` for a finite positive `m`. -/
def remEuclid : F64 → F64 → F64
  | finite a, finite m => finite (a - m * ⌊a / m⌋)
  | _, _ => nan

theorem finite_sub (a b : ℚ) : finite a - finite b = finite (a - b) := by
  have h : finite a - finite b = finite (a + -b) := rfl
  rw [h, sub_eq_add_neg]

end F64

/-- The functions of the mathematics library. -/
class ExactMath where
  pi : ℚ
  pi_pos : 0 < pi
  sin : F64 → F64
  cos : F64 → F64
  asin : F64 → F64
  atan2 : F64 → F64 → F64
  sqrt : F64 → F64
  exp : F64 → F64
  ln : F64 → F64
  powf : F64 → F64 → F64

theorem nearest_pi_pos : (0 : ℚ) < 884279719003555 / 281474976710656 := by norm_num

/-- With the double nearest to π and functions that are right at zero or at one, for runs
in which they are not asked elsewhere. -/
@[reducible] def ExactMath.plain : ExactMath where
  pi := 884279719003555 / 281474976710656
  pi_pos := nearest_pi_pos
  sin x := x
  cos _ := 1
  asin x := x
  atan2 y _ := y
  sqrt x := x
  exp _ := 1
  ln _ := 0
  powf x _ := x

namespace Geo
variable [ExactMath]
open ExactMath

def earthRadius : F64 := 6371000

def toRadians (degrees : F64) : F64 := degrees * (.finite pi / 180)

/-- The distance in meters between two positions in degrees. -/
def haversineMeters (lat1 lon1 lat2 lon2 : F64) : F64 :=
  let dLat := toRadians (lat2 - lat1)
  let dLon := toRadians (lon2 - lon1)
  let a := sin (dLat / 2) * sin (dLat / 2) +
    cos (toRadians lat1) * cos (toRadians lat2) * (sin (dLon / 2) * sin (dLon / 2))
  let c := 2 * asin (sqrt a)
  earthRadius * c

/-- The forward azimuth in radians from the first position to the second. -/
def initialBearing (lat1 lon1 lat2 lon2 : F64) : F64 :=
  let lat1 := toRadians lat1
  let lat2 := toRadians lat2
  let dLon := toRadians (lon2 - lon1)
  let y := sin dLon * cos lat2
  let x := cos lat1 * sin lat2 - sin lat1 * cos lat2 * cos dLon
  (atan2 y x).remEuclid (2 * .finite pi)

/-- How far in meters a position is to the right of the great circle between two others. -/
def crossTrackError (current start finish : F64 × F64) : F64 :=
  let dStartCurrent := haversineMeters start.1 start.2 current.1 current.2 / earthRadius
  let bearingStartCurrent := initialBearing start.1 start.2 current.1 current.2
  let bearingStartEnd := initialBearing start.1 start.2 finish.1 finish.2
  let xte := asin (sin dStartCurrent * sin (bearingStartCurrent - bearingStartEnd))
  xte * earthRadius

end Geo

end SignalK

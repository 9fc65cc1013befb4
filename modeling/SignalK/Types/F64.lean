import SignalK.Lib.Digits
import SignalK.Types.Json

/-! Doubles: their comparison and their conversions. Arithmetic on them is left open. -/
namespace SignalK

inductive F64 where
  | finite (q : ℚ)
  | posInf
  | negInf
  | nan
  deriving DecidableEq

namespace F64

/-- The `<` of doubles; nothing compares with a NaN. -/
def lt : F64 → F64 → Bool
  | finite a, finite b => decide (a < b)
  | finite _, posInf => true
  | negInf, finite _ => true
  | negInf, posInf => true
  | _, _ => false

def isFinite : F64 → Bool
  | finite _ => true
  | _ => false

def isInfinite : F64 → Bool
  | posInf => true
  | negInf => true
  | _ => false

/-- `json!(x)`: JSON has no other numbers than finite ones. -/
def toJson : F64 → Json
  | finite q => .ofF64 q
  | _ => .null

/-- The `<=` of doubles. -/
def le : F64 → F64 → Bool
  | finite a, finite b => decide (a ≤ b)
  | negInf, negInf => true
  | posInf, posInf => true
  | a, b => a.lt b

/-- `x as i64`: towards zero, at the nearest bound when out of range, zero for a NaN. -/
def toI64 : F64 → Int
  | finite q => max (-2 ^ 63) (min (2 ^ 63 - 1) (q.num.tdiv q.den))
  | posInf => 2 ^ 63 - 1
  | negInf => -2 ^ 63
  | nan => 0

/-- `n as f64` -/
def ofI64 (n : Int) : F64 :=
  finite (if n < 0 then -(roundToDouble n.natAbs : ℚ) else (roundToDouble n.natAbs : ℚ))

end F64

/-- The operations of doubles and of the mathematics library. -/
class FloatMath where
  add : F64 → F64 → F64
  sub : F64 → F64 → F64
  mul : F64 → F64 → F64
  div : F64 → F64 → F64
  neg : F64 → F64
  sin : F64 → F64
  cos : F64 → F64
  sqrt : F64 → F64
  toRadians : F64 → F64

/-- For runs in which nothing is computed. -/
@[reducible] def FloatMath.unused : FloatMath where
  add _ _ := .nan
  sub _ _ := .nan
  mul _ _ := .nan
  div _ _ := .nan
  neg _ := .nan
  sin _ := .nan
  cos _ := .nan
  sqrt _ := .nan
  toRadians _ := .nan

/-- Arithmetic without rounding, for runs whose results are doubles. -/
@[reducible] def FloatMath.exact : FloatMath where
  add
    | .finite a, .finite b => .finite (a + b)
    | _, _ => .nan
  sub
    | .finite a, .finite b => .finite (a - b)
    | _, _ => .nan
  mul
    | .finite a, .finite b => .finite (a * b)
    | _, _ => .nan
  div
    | .finite a, .finite b => .finite (a / b)
    | _, _ => .nan
  neg
    | .finite a => .finite (-a)
    | _ => .nan
  sin _ := .nan
  cos _ := .nan
  sqrt _ := .nan
  toRadians _ := .nan

/-- `str::parse::<f64>` -/
class FloatParse where
  parse : String → Option F64

/-- For texts of digits alone and texts that are no numbers. -/
@[reducible] def FloatParse.digits : FloatParse where
  parse s :=
    let ds := s.toList.mapM Digits.value
    ds.bind fun ds => if ds = [] then none else some (.finite (Digits.ofList ds))

end SignalK

import SignalK.Types.F64

/-! The closest point of approach of two vessels. -/
namespace SignalK

structure CpaResult where
  cpaM : F64
  /-- negative when the closest approach is past, infinite for equal velocities -/
  tcpaS : F64
  deriving DecidableEq

/-- Where a vessel is, in degrees, and how it moves, in m/s and radians. -/
structure Motion where
  lat : F64
  lon : F64
  sogMs : F64
  cogRad : F64
  deriving DecidableEq

namespace Cpa
open FloatMath
variable [FloatMath]

def earthRadiusM : F64 := .finite 6371000

/-- East and north components of a velocity. -/
def sogCogToXy (sog cog : F64) : F64 × F64 :=
  (mul sog (sin cog), mul sog (cos cog))

def Motion.isFinite (m : Motion) : Bool :=
  m.lat.isFinite && m.lon.isFinite && m.sogMs.isFinite && m.cogRad.isFinite

def computeCpa (own target : Motion) : Option CpaResult :=
  if !(Motion.isFinite own && Motion.isFinite target) then none
  else
    let midLat := toRadians (div (add own.lat target.lat) (.finite 2))
    let cosMid := cos midLat
    let px := mul (mul (toRadians (sub target.lon own.lon)) cosMid) earthRadiusM
    let py := mul (toRadians (sub target.lat own.lat)) earthRadiusM
    let ownV := sogCogToXy own.sogMs own.cogRad
    let targetV := sogCogToXy target.sogMs target.cogRad
    let vx := sub targetV.1 ownV.1
    let vy := sub targetV.2 ownV.2
    let vSq := add (mul vx vx) (mul vy vy)
    let tcpaS :=
      if vSq.lt (.finite (1 / 1000000)) then .posInf
      else div (neg (add (mul px vx) (mul py vy))) vSq
    let cpaM :=
      if tcpaS.isInfinite then sqrt (add (mul px px) (mul py py))
      else
        -- a past and a future approach are computed the same way
        let cx := add px (mul vx tcpaS)
        let cy := add py (mul vy tcpaS)
        sqrt (add (mul cx cx) (mul cy cy))
    some { cpaM := cpaM, tcpaS := tcpaS }

end Cpa

inductive CpaAlarm where
  | alarm
  | warn
  deriving DecidableEq

def CpaAlarm.asStr : CpaAlarm → String
  | alarm => "alarm"
  | warn => "warn"

/-- The level that a result calls for, whatever was raised before. -/
def classifyCpaAlarm (cpaM tcpaS tcpaMaxS : F64) (cpaWarnM cpaAlarmM : Option F64) :
    Option CpaAlarm :=
  if (F64.finite 0).lt tcpaS && tcpaS.lt tcpaMaxS then
    if cpaAlarmM.any fun d => cpaM.lt d then some .alarm
    else if cpaWarnM.any fun d => cpaM.lt d then some .warn
    else none
  else none

end SignalK

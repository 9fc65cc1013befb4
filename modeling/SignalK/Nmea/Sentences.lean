import SignalK.Lib.Text
import SignalK.Types.Delta

/-! NMEA 0183: the sentences of engines, relative wind and transducers as deltas of the own
vessel. Arithmetic is exact. -/
namespace SignalK

namespace Consts

/-- `std::f64::consts::PI` -/
def pi : ℚ := 884279719003555 / 281474976710656

/-- `std::f64::consts::TAU` -/
def tau : ℚ := 2 * pi

end Consts

/-- The value for a path, when there is one. -/
def PathValue.ofNumber (path : String) (value : Option ℚ) : List PathValue :=
  (value.map fun x => ⟨path, Json.ofF64 x⟩).toList

namespace Nmea0183

def knotsToMs : ℚ := 0.514444

def degToRad : ℚ := Consts.pi / 180

/-! RPM. -/

inductive RpmSource where
  | engine
  | shaft
  deriving DecidableEq

structure RpmData where
  source : Option RpmSource
  sourceNumber : Option Nat
  rpm : Option ℚ
  pitch : Option ℚ
  valid : Bool

def RpmData.instanceName (rpm : RpmData) : String :=
  let sourceNum := rpm.sourceNumber.getD 0
  match rpm.source with
  | some .engine => "engine" ++ toString sourceNum
  | some .shaft | none => "shaft" ++ toString sourceNum

def fromRpm (rpm : RpmData) : List PathValue :=
  if ¬rpm.valid then []
  else
    let pre := "propulsion." ++ rpm.instanceName
    PathValue.ofNumber (pre ++ ".revolutions") (rpm.rpm.map (· / 60)) ++
      PathValue.ofNumber (pre ++ ".pitch") (rpm.pitch.map (· / 100))

/-! MWV and VWR. -/

inductive MwvReference where
  | relative
  | theoretical
  deriving DecidableEq

inductive MwvWindSpeedUnits where
  | knots
  | metersPerSecond
  | kilometersPerHour
  | milesPerHour

structure MwvData where
  windDirection : Option ℚ
  reference : Option MwvReference
  windSpeed : Option ℚ
  windSpeedUnits : Option MwvWindSpeedUnits
  dataValid : Bool

def MwvData.speedMs (mwv : MwvData) : Option ℚ :=
  mwv.windSpeed.bind fun s =>
    match mwv.windSpeedUnits with
    | some .knots => some (s * knotsToMs)
    | some .metersPerSecond => some s
    | some .kilometersPerHour => some (s / 3.6)
    | some .milesPerHour => some (s * 0.44704)
    | none => none

def fromMwv (mwv : MwvData) : List PathValue :=
  if ¬mwv.dataValid then []
  else
    let angleRad := mwv.windDirection.map (· * degToRad)
    match mwv.reference with
    | some .relative =>
      PathValue.ofNumber "environment.wind.angleApparent" angleRad ++
        PathValue.ofNumber "environment.wind.speedApparent" mwv.speedMs
    | some .theoretical =>
      PathValue.ofNumber "environment.wind.angleTrueWater" angleRad ++
        PathValue.ofNumber "environment.wind.speedTrue" mwv.speedMs
    | none => []

/-- The angle is from 0 to 180 degrees, negative for port. -/
structure VwrData where
  windAngle : Option ℚ
  speedKnots : Option ℚ
  speedMps : Option ℚ

def fromVwr (vwr : VwrData) : List PathValue :=
  let speed := vwr.speedMps.or (vwr.speedKnots.map (· * knotsToMs))
  PathValue.ofNumber "environment.wind.angleApparent" (vwr.windAngle.map (· * degToRad)) ++
    PathValue.ofNumber "environment.wind.speedApparent" speed

/-! XDR. -/

structure XdrMeasurement where
  transducerType : Option Char
  value : Option ℚ
  name : String

structure XdrData where
  measurements : List XdrMeasurement

/-- What a type of transducer with a name stands for. -/
structure XdrMapping where
  transducerType : Char
  namePattern : String
  path : String
  convert : ℚ → ℚ

def identity (v : ℚ) : ℚ := v

def celsiusToKelvin (v : ℚ) : ℚ := v + 273.15

def barToPascal (v : ℚ) : ℚ := v * 100000

def toRad (v : ℚ) : ℚ := v * degToRad

def percentToRatio (v : ℚ) : ℚ := v / 100

/-- A pattern that ends with a star is a prefix. -/
def nameMatches (pattern name : String) : Bool :=
  match Text.stripSuffix pattern "*" with
  | some pre => Text.startsWith name pre
  | none => decide (name = pattern)

/-- The first match wins. -/
def mappings : List XdrMapping := [
  ⟨'P', "BARO*", "environment.outside.pressure", barToPascal⟩,
  ⟨'P', "BAR*", "environment.outside.pressure", barToPascal⟩,
  ⟨'P', "Barometer", "environment.outside.pressure", barToPascal⟩,
  ⟨'C', "WTHI", "environment.water.temperature", celsiusToKelvin⟩,
  ⟨'C', "WATER*", "environment.water.temperature", celsiusToKelvin⟩,
  ⟨'C', "ENV_WATER_T", "environment.water.temperature", celsiusToKelvin⟩,
  ⟨'C', "ENV_OUTAIR*", "environment.outside.temperature", celsiusToKelvin⟩,
  ⟨'C', "AIR*", "environment.outside.temperature", celsiusToKelvin⟩,
  ⟨'C', "TempAir", "environment.outside.temperature", celsiusToKelvin⟩,
  ⟨'A', "PTCH", "ATTITUDE_PITCH", toRad⟩,
  ⟨'A', "PITCH", "ATTITUDE_PITCH", toRad⟩,
  ⟨'A', "Pitch", "ATTITUDE_PITCH", toRad⟩,
  ⟨'A', "ROLL", "ATTITUDE_ROLL", toRad⟩,
  ⟨'A', "Roll", "ATTITUDE_ROLL", toRad⟩,
  ⟨'H', "ENV_OUTSIDE_H*", "environment.outside.humidity", percentToRatio⟩,
  ⟨'H', "HUM*", "environment.outside.humidity", percentToRatio⟩,
  ⟨'H', "Humidity", "environment.outside.humidity", percentToRatio⟩,
  ⟨'U', "BATT*", "electrical.batteries.main.voltage", identity⟩]

/-- The path of a measurement in the table and its converted value. -/
def XdrMeasurement.mapped (m : XdrMeasurement) : Option (String × ℚ) := do
  let ttype ← m.transducerType
  let value ← m.value
  let mapping ← mappings.find? fun r => r.transducerType = ttype && nameMatches r.namePattern m.name
  return (mapping.path, mapping.convert value)

/-- The variables of the loop over the measurements. -/
structure XdrLoop where
  out : List PathValue
  pitchRad : Option ℚ
  rollRad : Option ℚ

def XdrLoop.step (l : XdrLoop) (m : XdrMeasurement) : XdrLoop :=
  match m.mapped with
  | none => l
  | some (path, converted) =>
    if path = "ATTITUDE_PITCH" then { l with pitchRad := some converted }
    else if path = "ATTITUDE_ROLL" then { l with rollRad := some converted }
    else { l with out := l.out ++ [⟨path, .ofF64 converted⟩] }

/-- One object for pitch and roll together. -/
def XdrLoop.attitude (l : XdrLoop) : List PathValue :=
  if l.pitchRad.isSome || l.rollRad.isSome then
    [⟨"navigation.attitude", .ofFields
      ((l.pitchRad.map fun p => ("pitch", Json.ofF64 p)).toList ++
        (l.rollRad.map fun r => ("roll", Json.ofF64 r)).toList)⟩]
  else []

def fromXdr (xdr : XdrData) : List PathValue :=
  let l := xdr.measurements.foldl XdrLoop.step ⟨[], none, none⟩
  l.out ++ l.attitude

/-! From a parsed sentence to a delta. -/

inductive ParseResult where
  | mwv (data : MwvData)
  | rpm (data : RpmData)
  | vwr (data : VwrData)
  | xdr (data : XdrData)

def ParseResult.pathValues : ParseResult → List PathValue
  | .mwv data => fromMwv data
  | .rpm data => fromRpm data
  | .vwr data => fromVwr data
  | .xdr data => fromXdr data

/-- The talker is the two bytes after the dollar sign. -/
def talker (raw : String) : String :=
  (((Text.stripPrefix raw "$").bind fun s => Text.takeBytes 2 s.toList).map
    String.ofList).getD "UN"

/-- The delta of a sentence that was parsed. -/
def sentenceToDelta (raw sourceLabel : String) (now : DateTime) (parsed : ParseResult) :
    Option Delta :=
  let pathValues := parsed.pathValues
  if pathValues = [] then none
  else
    some (Delta.selfVessel [{
      source := Source.nmea0183 sourceLabel (talker raw)
      timestamp := now
      values := pathValues }])

end Nmea0183
end SignalK

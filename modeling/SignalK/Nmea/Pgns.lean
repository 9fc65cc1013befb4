import SignalK.Nmea.Sentences

/-! NMEA 2000: the parameter groups of engines, wind and attitude as deltas of the own
vessel. Their angles are in radians. -/
namespace SignalK.Nmea2000

structure N2kSource where
  label : String
  src : UInt8
  pgn : UInt32

def makeSource (s : N2kSource) : Source := Source.nmea2000 s.label s.src s.pgn

def selfDelta (values : List PathValue) (source : N2kSource) (now : DateTime) : Option Delta :=
  if values = [] then none
  else some (Delta.selfVessel [⟨makeSource source, now, values⟩])

/-! PGN 127488. -/

structure EngineParametersRapidUpdate where
  instanceRaw : Option Nat
  speed : Option ℚ

def engineInstance (instanceRaw : Option Nat) : String :=
  match instanceRaw with
  | some n => toString n
  | none => "0"

def fromEngineRapid (m : EngineParametersRapidUpdate) : List PathValue :=
  let pre := "propulsion." ++ engineInstance m.instanceRaw
  PathValue.ofNumber (pre ++ ".revolutions") (m.speed.map (· * Consts.tau / 60))

/-! PGN 130306. -/

inductive WindReference where
  | trueGroundReferencedToNorth
  | magneticGroundReferencedToMagneticNorth
  | apparent
  | trueBoatReferenced
  | trueWaterReferenced

structure WindData where
  windSpeed : Option ℚ
  windAngle : Option ℚ
  reference : Option WindReference

/-- Where the speed and the angle go. -/
def windPaths : Option WindReference → Option (String × String)
  | some .apparent => some ("environment.wind.speedApparent", "environment.wind.angleApparent")
  | some .trueBoatReferenced | some .trueWaterReferenced =>
    some ("environment.wind.speedTrue", "environment.wind.angleTrueWater")
  | some .trueGroundReferencedToNorth =>
    some ("environment.wind.speedTrue", "environment.wind.angleTrueGround")
  | _ => none

def fromWindData (m : WindData) : List PathValue :=
  match windPaths m.reference with
  | none => []
  | some (speedPath, anglePath) =>
    PathValue.ofNumber speedPath m.windSpeed ++ PathValue.ofNumber anglePath m.windAngle

/-! PGN 127257. -/

structure Attitude where
  yaw : Option ℚ
  pitch : Option ℚ
  roll : Option ℚ

def fromAttitude (m : Attitude) : List PathValue :=
  PathValue.ofNumber "navigation.attitude.yaw" m.yaw ++
    (PathValue.ofNumber "navigation.attitude.pitch" m.pitch ++
      PathValue.ofNumber "navigation.attitude.roll" m.roll)

/-! From a decoded message to a delta. -/

inductive DecodedMessage where
  | attitude (m : Attitude)
  | windData (m : WindData)
  | engineParametersRapidUpdate (m : EngineParametersRapidUpdate)

def DecodedMessage.pathValues : DecodedMessage → List PathValue
  | .attitude m => fromAttitude m
  | .windData m => fromWindData m
  | .engineParametersRapidUpdate m => fromEngineRapid m

def decodedToDelta (msg : DecodedMessage) (source : N2kSource) (now : DateTime) : Option Delta :=
  selfDelta msg.pathValues source now

end SignalK.Nmea2000

import Mathlib.Data.Rat.Defs

/-! Metadata of a value and the defaults of the SignalK specification. -/
namespace SignalK

inductive ZoneState where
  | nominal | alert | warn | alarm | emergency
  deriving DecidableEq

structure Zone where
  lower : Option ℚ
  upper : Option ℚ
  state : ZoneState
  message : Option String
  deriving DecidableEq

structure DisplayUnits where
  category : String
  targetUnit : String
  formula : String
  inverseFormula : String
  symbol : String
  displayFormat : Option String
  deriving DecidableEq

structure Metadata where
  description : Option String := none
  units : Option String := none
  displayName : Option String := none
  longName : Option String := none
  timeout : Option ℚ := none
  minValue : Option ℚ := none
  maxValue : Option ℚ := none
  zones : List Zone := []
  displayUnits : Option DisplayUnits := none
  deriving DecidableEq

/-- Path, units, description and display name of the well-known paths. -/
def defaultMetadataTable : List (String × String × String × String) :=
  [
    ("navigation.speedOverGround", "m/s", "Speed over ground", "SOG"),
    ("navigation.speedThroughWater", "m/s", "Speed through water", "STW"),
    ("navigation.courseOverGroundTrue", "rad", "Course over ground (true)", "COG(T)"),
    ("navigation.courseOverGroundMagnetic", "rad", "Course over ground (magnetic)", "COG(M)"),
    ("navigation.headingTrue", "rad", "Heading true", "HDG(T)"),
    ("navigation.headingMagnetic", "rad", "Heading magnetic", "HDG(M)"),
    ("navigation.magneticVariation", "rad", "Magnetic variation", "VAR"),
    ("navigation.leewayAngle", "rad", "Leeway angle", "Leeway"),
    ("navigation.attitude", "", "Vessel attitude (roll/pitch/yaw)", "Attitude"),
    ("environment.depth.belowTransducer", "m", "Depth below transducer", "DBT"),
    ("environment.depth.belowKeel", "m", "Depth below keel", "DBK"),
    ("environment.depth.belowSurface", "m", "Depth below surface", "DBS"),
    ("environment.depth.surfaceToTransducer", "m", "Surface to transducer", "S→T"),
    ("environment.depth.transducerToKeel", "m", "Transducer to keel", "T→K"),
    ("environment.wind.speedApparent", "m/s", "Apparent wind speed", "AWS"),
    ("environment.wind.angleApparent", "rad", "Apparent wind angle", "AWA"),
    ("environment.wind.speedTrue", "m/s", "True wind speed (ground ref)", "TWS"),
    ("environment.wind.angleTrueGround", "rad", "True wind angle (ground ref)", "TWA"),
    ("environment.wind.angleTrueWater", "rad", "True wind angle (water ref)", "TWA(W)"),
    ("environment.wind.directionTrue", "rad", "True wind direction", "TWD"),
    ("environment.wind.directionMagnetic", "rad", "Wind direction (magnetic)", "MWD"),
    ("environment.wind.speedOverGround", "m/s", "True wind speed (ground ref)", "GWS"),
    ("environment.wind.directionGround", "rad", "True wind direction (ground ref)", "GWD"),
    ("environment.outside.temperature", "K", "Outside air temperature", "Air"),
    ("environment.outside.pressure", "Pa", "Atmospheric pressure", "Baro"),
    ("environment.outside.humidity", "ratio", "Relative humidity", "Hum"),
    ("environment.outside.dewPointTemperature", "K", "Dew point temperature", "Dew"),
    ("environment.outside.airDensity", "kg/m³", "Air density", "ρ"),
    ("environment.outside.heatIndexTemperature", "K", "Heat index temperature", "HI"),
    ("environment.outside.apparentWindChillTemperature", "K", "Wind chill temperature", "WC"),
    ("environment.water.temperature", "K", "Water temperature", "Water"),
    ("environment.current.setTrue", "rad", "Current set (true)", "Set(T)"),
    ("environment.current.setMagnetic", "rad", "Current set (magnetic)", "Set(M)"),
    ("environment.current.drift", "m/s", "Current drift", "Drift"),
    ("environment.current.driftImpact", "ratio", "Current drift impact", "Impact"),
    ("navigation.course.estimatedTimeOfArrival", "s", "ETA in seconds", "ETA"),
    ("navigation.course.steerError", "rad", "Steering error", "XTE"),
    ("performance.velocityMadeGood", "m/s", "Velocity made good", "VMG"),
    ("performance.velocityMadeGoodToWaypoint", "m/s", "VMG to waypoint (STW)", "VMG(W)")
  ]

def defaultMetadata (path : String) : Option Metadata :=
  (defaultMetadataTable.lookup path).map fun (units, description, displayName) =>
    { units := some units, description := some description, displayName := some displayName }

end SignalK

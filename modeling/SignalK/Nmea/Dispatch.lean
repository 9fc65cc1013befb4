import SignalK.Nmea.AisDecode
import SignalK.Nmea.Gateway
import SignalK.Types.Notification

/-! What becomes of each kind of NMEA 0183 sentence: the conversions without a status, the calls
of DSC, and the table of them all. -/
namespace SignalK
namespace Nmea0183

def kelvinOffset : ℚ := 273.15

/-- A number with zeros before it, `{:0width}`. -/
def padded (width n : Nat) : List Char :=
  let digits := Nat.toDigits 10 n
  List.replicate (width - digits.length) '0' ++ digits

/-- The position of a latitude and a longitude. -/
def positionAt (path : String) (lat lon : Option ℚ) : List PathValue :=
  PathValue.ofJson path (positionOf lat lon none)

def angle (path : String) (degrees : Option ℚ) : List PathValue :=
  PathValue.ofNumber path (degrees.map (· * degToRad))

def speed (path : String) (knots : Option ℚ) : List PathValue :=
  PathValue.ofNumber path (knots.map (· * knotsToMs))

def distance (path : String) (miles : Option ℚ) : List PathValue :=
  PathValue.ofNumber path (miles.map (· * nmToM))

def temperature (path : String) (celsius : Option ℚ) : List PathValue :=
  PathValue.ofNumber path (celsius.map (· + kelvinOffset))

/-! Course. -/

structure BwcData where
  latitude : Option ℚ
  longitude : Option ℚ
  trueBearing : Option ℚ
  magneticBearing : Option ℚ
  distance : Option ℚ

def fromBwc (bwc : BwcData) : List PathValue :=
  positionAt "navigation.courseGreatCircle.nextPoint.position" bwc.latitude bwc.longitude ++
    angle "navigation.courseGreatCircle.nextPoint.bearingTrue" bwc.trueBearing ++
    angle "navigation.courseGreatCircle.nextPoint.bearingMagnetic" bwc.magneticBearing ++
    distance "navigation.courseGreatCircle.nextPoint.distance" bwc.distance

structure BodData where
  bearingTrue : Option ℚ
  bearingMagnetic : Option ℚ

def fromBod (bod : BodData) : List PathValue :=
  angle "navigation.courseGreatCircle.bearingTrackTrue" bod.bearingTrue ++
    angle "navigation.courseGreatCircle.bearingTrackMagnetic" bod.bearingMagnetic

/-! Depth. -/

structure DptData where
  waterDepth : Option ℚ
  offset : Option ℚ

/-- The offset is upwards to the surface, or downwards to the keel when it is negative. -/
def fromDpt (dpt : DptData) : List PathValue :=
  match dpt.waterDepth with
  | none => []
  | some depth =>
    ⟨"environment.depth.belowTransducer", .ofF64 depth⟩ ::
      match dpt.offset with
      | none => []
      | some offset =>
        if 0 ≤ offset then [⟨"environment.depth.belowSurface", .ofF64 (depth + offset)⟩]
        else [⟨"environment.depth.belowKeel", .ofF64 (depth + offset)⟩]

/-- A depth in three units, the first of them that there is. -/
structure DepthData where
  meters : Option ℚ
  feet : Option ℚ
  fathoms : Option ℚ

def DepthData.depth (d : DepthData) : Option ℚ :=
  (d.meters.or (d.feet.map (· * feetToM))).or (d.fathoms.map (· * fathomsToM))

def fromDbs (dbs : DepthData) : List PathValue :=
  PathValue.ofNumber "environment.depth.belowSurface" dbs.depth

def fromDbk (dbk : DepthData) : List PathValue :=
  PathValue.ofNumber "environment.depth.belowKeel" dbk.depth

/-! Environment. -/

def fromMtw (celsius : Option ℚ) : List PathValue :=
  temperature "environment.water.temperature" celsius

structure MdaData where
  pressureBar : Option ℚ
  airTempDeg : Option ℚ
  waterTempDeg : Option ℚ
  relHumidity : Option ℚ
  dewPoint : Option ℚ
  windDirectionTrue : Option ℚ
  windSpeedMs : Option ℚ
  windSpeedKnots : Option ℚ

def fromMda (mda : MdaData) : List PathValue :=
  PathValue.ofNumber "environment.outside.pressure" (mda.pressureBar.map (· * 100000)) ++
    temperature "environment.outside.temperature" mda.airTempDeg ++
    temperature "environment.water.temperature" mda.waterTempDeg ++
    PathValue.ofNumber "environment.outside.humidity" (mda.relHumidity.map (· / 100)) ++
    temperature "environment.outside.dewPointTemperature" mda.dewPoint ++
    angle "environment.wind.directionTrue" mda.windDirectionTrue ++
    PathValue.ofNumber "environment.wind.speedTrue"
      (mda.windSpeedMs.or (mda.windSpeedKnots.map (· * knotsToMs)))

structure VdrData where
  directionTrue : Option ℚ
  speed : Option ℚ

def fromVdr (vdr : VdrData) : List PathValue :=
  angle "environment.current.setTrue" vdr.directionTrue ++
    speed "environment.current.drift" vdr.speed

structure VlwData where
  tripWaterDistance : Option ℚ
  totalWaterDistance : Option ℚ

def fromVlw (vlw : VlwData) : List PathValue :=
  distance "navigation.trip.log" vlw.tripWaterDistance ++
    distance "navigation.log" vlw.totalWaterDistance

/-! Satellites and time. -/

structure ZdaData where
  utcTime : Option NaiveTime
  day : Option Nat
  month : Option Nat
  year : Option Nat

/-- A leap second is counted with the second before it. -/
def zdaText (time : NaiveTime) (year month day : Nat) : String :=
  let second := min (time.nanos / 1000000000) 59
  let ms := (time.nanos - second * 1000000000) / 1000000
  String.ofList (padded 4 year ++ '-' :: padded 2 month ++ '-' :: padded 2 day ++
    'T' :: padded 2 (time.minutes / 60) ++ ':' :: padded 2 (time.minutes % 60) ++
    ':' :: padded 2 second ++ '.' :: padded 3 ms ++ ['Z'])

def fromZda (zda : ZdaData) : List PathValue :=
  match zda.utcTime, zda.day, zda.month, zda.year with
  | some time, some day, some month, some year =>
    let date : Calendar.Date := ⟨year, month, day⟩
    ⟨"navigation.datetime", .string (zdaText time year month day)⟩ ::
      if date.Valid then
        [⟨"environment.time.millis", millisJson (utcOf date time)⟩,
          ⟨"environment.time.timezoneOffset", .number (.posInt 0)⟩,
          ⟨"environment.time.timezoneRegion", .string "UTC"⟩]
      else []
  | _, _, _, _ => []

structure GsaData where
  hdop : Option ℚ
  pdop : Option ℚ
  fixSatsPrn : List UInt32

def fromGsa (gsa : GsaData) : List PathValue :=
  PathValue.ofNumber "navigation.gnss.horizontalDilution" gsa.hdop ++
    PathValue.ofNumber "navigation.gnss.positionDilution" gsa.pdop ++
    if 0 < gsa.fixSatsPrn.length then
      [⟨"navigation.gnss.satellites", .number (.posInt (.ofNat gsa.fixSatsPrn.length))⟩]
    else []

/-! Heading, speed and wind. -/

def fromHdm (heading : Option ℚ) : List PathValue :=
  angle "navigation.headingMagnetic" heading

structure HdgData where
  heading : Option ℚ
  deviation : Option ℚ
  variation : Option ℚ

def fromHdg (hdg : HdgData) : List PathValue :=
  angle "navigation.headingMagnetic" hdg.heading ++
    angle "navigation.magneticDeviation" hdg.deviation ++
    angle "navigation.magneticVariation" hdg.variation

structure VhwData where
  relativeSpeedKnots : Option ℚ
  headingTrue : Option ℚ
  headingMagnetic : Option ℚ

def fromVhw (vhw : VhwData) : List PathValue :=
  speed "navigation.speedThroughWater" vhw.relativeSpeedKnots ++
    angle "navigation.headingTrue" vhw.headingTrue ++
    angle "navigation.headingMagnetic" vhw.headingMagnetic

structure MwdData where
  windDirectionTrue : Option ℚ
  windDirectionMagnetic : Option ℚ
  windSpeedMps : Option ℚ
  windSpeedKnots : Option ℚ

def fromMwd (mwd : MwdData) : List PathValue :=
  angle "environment.wind.directionTrue" mwd.windDirectionTrue ++
    angle "environment.wind.directionMagnetic" mwd.windDirectionMagnetic ++
    PathValue.ofNumber "environment.wind.speedTrue"
      (mwd.windSpeedMps.or (mwd.windSpeedKnots.map (· * knotsToMs)))

structure VwtData where
  windAngle : Option ℚ
  speedKnots : Option ℚ
  speedMps : Option ℚ

def fromVwt (vwt : VwtData) : List PathValue :=
  angle "environment.wind.angleTrueWater" vwt.windAngle ++
    PathValue.ofNumber "environment.wind.speedTrue"
      (vwt.speedMps.or (vwt.speedKnots.map (· * knotsToMs)))

/-! DSC. -/

/-- A call, with its position if that could be decoded. -/
structure DscData where
  senderMmsi : Option UInt32
  position : Option (ℚ × ℚ)
  category : Option UInt8
  firstTelecommand : Option UInt8

def distressNotificationPath (natureOfDistress : Option UInt8) : String :=
  match natureOfDistress.map (·.toNat) with
  | some 0 => "notifications.fire"
  | some 1 => "notifications.flooding"
  | some 2 => "notifications.collision"
  | some 3 => "notifications.grounding"
  | some 4 => "notifications.listing"
  | some 5 => "notifications.sinking"
  | some 6 => "notifications.adrift"
  | some 8 => "notifications.abandon"
  | some 9 => "notifications.piracy"
  | some 10 => "notifications.mob"
  | _ => "notifications.distress"

def distressNatureLabel (natureOfDistress : Option UInt8) : String :=
  match natureOfDistress.map (·.toNat) with
  | some 0 => "Fire/Explosion"
  | some 1 => "Flooding"
  | some 2 => "Collision"
  | some 3 => "Grounding"
  | some 4 => "Listing/Capsizing"
  | some 5 => "Sinking"
  | some 6 => "Adrift"
  | some 8 => "Abandon ship"
  | some 9 => "Piracy"
  | some 10 => "Man overboard"
  | some 12 => "EPIRB emission"
  | _ => "Undesignated distress"

/-- To the nearest natural number, and between two of them to the even one. -/
def roundHalfEven (x : ℚ) : Nat :=
  let below := x.floor.toNat
  if x - below < 1 / 2 ∨ (x - below = 1 / 2 ∧ below % 2 = 0) then below else below + 1

/-- `{:.4}` -/
def fourDecimals (x : ℚ) : String :=
  let n := roundHalfEven (|x| * 10000)
  String.ofList ((if x < 0 then ['-'] else []) ++ Nat.toDigits 10 (n / 10000) ++
    '.' :: padded 4 (n % 10000))

/-- The distress of a vessel, told on the vessel itself. -/
def DscData.distress (dsc : DscData) (mmsi : UInt32) : PathValue :=
  let positionStr := (dsc.position.map fun p =>
    " at " ++ fourDecimals p.1 ++ "," ++ fourDecimals p.2).getD ""
  ⟨distressNotificationPath dsc.firstTelecommand,
    Notification.toValue {
      id := none
      state := .emergency
      method := [.visual, .sound]
      message := "DSC Distress: " ++ distressNatureLabel dsc.firstTelecommand ++ " from MMSI " ++
        mmsiText mmsi ++ positionStr
      status := none }⟩

def DscData.values (dsc : DscData) (mmsi : UInt32) : List PathValue :=
  (dsc.position.map AisContact.positionValue).toList ++
    if dsc.category = some 12 then [dsc.distress mmsi] else []

/-- A call tells of the vessel that it comes from. -/
def DscData.toDeltas (dsc : DscData) (sourceLabel : String) (now : DateTime) :
    Option (List Delta) :=
  dsc.senderMmsi.bind fun mmsi =>
    if dsc.values mmsi = [] then none
    else
      some [Delta.withContext ("vessels.urn:mrn:imo:mmsi:" ++ mmsiText mmsi)
        [⟨Source.nmea0183 sourceLabel "DS", now, dsc.values mmsi⟩]]

/-! All sentences. -/

inductive ParsedSentence where
  | rmc (data : RmcData)
  | gga (data : GgaData)
  | vtg (data : VtgData)
  | hdt (data : HdtData)
  | mwv (data : MwvData)
  | dpt (data : DptData)
  | hdg (data : HdgData)
  | hdm (heading : Option ℚ)
  | vhw (data : VhwData)
  | mtw (temperature : Option ℚ)
  | rot (data : RotData)
  | mda (data : MdaData)
  | mwd (data : MwdData)
  | rsa (data : RsaData)
  | rpm (data : RpmData)
  | gll (data : GllData)
  | dbt (data : DbtData)
  | dbs (data : DepthData)
  | dbk (data : DepthData)
  | vdr (data : VdrData)
  | vlw (data : VlwData)
  | vwr (data : VwrData)
  | vwt (data : VwtData)
  | rmb (data : RmbData)
  | bwc (data : BwcData)
  | bod (data : BodData)
  | xte (data : XteData)
  | gsa (data : GsaData)
  | gns (data : GnsData)
  | zda (data : ZdaData)
  | xdr (data : XdrData)
  | dsc (data : DscData)
  /-- any other kind, which the dispatch table does not have -/
  | other

/-- A call is not converted here. -/
def ParsedSentence.pathValues : ParsedSentence → List PathValue
  | rmc data => fromRmc data
  | gga data => fromGga data
  | vtg data => fromVtg data
  | hdt data => fromHdt data
  | mwv data => fromMwv data
  | dpt data => fromDpt data
  | hdg data => fromHdg data
  | hdm heading => fromHdm heading
  | vhw data => fromVhw data
  | mtw celsius => fromMtw celsius
  | rot data => fromRot data
  | mda data => fromMda data
  | mwd data => fromMwd data
  | rsa data => fromRsa data
  | rpm data => fromRpm data
  | gll data => fromGll data
  | dbt data => fromDbt data
  | dbs data => fromDbs data
  | dbk data => fromDbk data
  | vdr data => fromVdr data
  | vlw data => fromVlw data
  | vwr data => fromVwr data
  | vwt data => fromVwt data
  | rmb data => fromRmb data
  | bwc data => fromBwc data
  | bod data => fromBod data
  | xte data => fromXte data
  | gsa data => fromGsa data
  | gns data => fromGns data
  | zda data => fromZda data
  | xdr data => fromXdr data
  | dsc _ | other => []

/-- The delta of the own vessel. -/
def ParsedSentence.toDelta (s : ParsedSentence) (raw sourceLabel : String) (now : DateTime) :
    Option Delta :=
  if s.pathValues = [] then none
  else
    some (Delta.selfVessel [{
      source := Source.nmea0183 sourceLabel (talker raw)
      timestamp := now
      values := s.pathValues }])

/-- The sentences whose engines, wind and transducers were looked at on their own. -/
def ParseResult.sentence : ParseResult → ParsedSentence
  | .mwv data => .mwv data
  | .rpm data => .rpm data
  | .vwr data => .vwr data
  | .xdr data => .xdr data

theorem toDelta_sentence (parsed : ParseResult) (raw sourceLabel : String) (now : DateTime) :
    parsed.sentence.toDelta raw sourceLabel now = sentenceToDelta raw sourceLabel now parsed := by
  cases parsed <;> rfl

/-- Those with a status. -/
def StatusSentence.sentence : StatusSentence → ParsedSentence
  | .rmc data => .rmc data
  | .gga data => .gga data
  | .gns data => .gns data
  | .gll data => .gll data
  | .mwv data => .mwv data
  | .rmb data => .rmb data
  | .xte data => .xte data
  | .rot data => .rot data
  | .rsa data => .rsa data
  | .rpm data => .rpm data

theorem pathValues_sentence (s : StatusSentence) : s.sentence.pathValues = s.emitted := by
  cases s <;> rfl

/-- A call and a sentence for the own vessel are not the same. -/
theorem ParsedSentence.toDelta_dsc (data : DscData) (raw sourceLabel : String) (now : DateTime) :
    (ParsedSentence.dsc data).toDelta raw sourceLabel now = none :=
  if_pos rfl

end Nmea0183
end SignalK

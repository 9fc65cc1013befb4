import SignalK.DerivedData.Environment
import SignalK.Nmea.Sentences

/-! The NMEA 0183 sentences that say of their data whether it is valid, and what becomes of
that. -/
namespace SignalK

def PathValue.ofJson (path : String) (value : Option Json) : List PathValue :=
  (value.map fun x => ⟨path, x⟩).toList

namespace Nmea0183

def nmToM : ℚ := 1852

/-- The object of a position, for both coordinates or none. -/
def positionOf (lat lon altitude : Option ℚ) : Option Json := do
  let lat ← lat
  let lon ← lon
  return .ofFields ([("latitude", .ofF64 lat), ("longitude", .ofF64 lon)] ++
    (altitude.map fun alt => ("altitude", Json.ofF64 alt)).toList)

/-! RMC. -/

inductive RmcStatusOfFix where
  | autonomous
  | differential
  | invalid
  deriving DecidableEq

/-- A time of day by its minute and the nanoseconds in that, which a leap second makes longer. -/
structure NaiveTime where
  minutes : Nat
  nanos : Nat

structure RmcData where
  fixTime : Option NaiveTime
  fixDate : Option Calendar.Date
  statusOfFix : RmcStatusOfFix
  lat : Option ℚ
  lon : Option ℚ
  speedOverGround : Option ℚ
  trueCourse : Option ℚ
  magneticVariation : Option ℚ

def utcOf (date : Calendar.Date) (time : NaiveTime) : Int :=
  (date.number * 1440 + time.minutes) * Rfc3339.minute + time.nanos

/-- `%Y-%m-%dT%H:%M:%S%.3fZ` -/
def isoText (utc : Int) : String :=
  String.ofList (Rfc3339.dateText (Calendar.date (Rfc3339.Instant.day utc)) ++ 'T' ::
    Rfc3339.clockText utc ++ '.' :: Digits.digits 3 (Rfc3339.Instant.nano utc / 1000000) ++ ['Z'])

/-- An `i64`. -/
def millisJson (utc : Int) : Json :=
  let ms := DerivedData.timestampMillis utc
  .number (if 0 ≤ ms then .posInt (.ofNat ms.toNat) else .negInt (.ofInt ms))

def fromRmc (rmc : RmcData) : List PathValue :=
  let fixValid := rmc.statusOfFix = .autonomous ∨ rmc.statusOfFix = .differential
  PathValue.ofJson "navigation.position" (positionOf rmc.lat rmc.lon none) ++
    PathValue.ofNumber "navigation.speedOverGround" (rmc.speedOverGround.map (· * knotsToMs)) ++
    PathValue.ofNumber "navigation.courseOverGroundTrue" (rmc.trueCourse.map (· * degToRad)) ++
    PathValue.ofNumber "navigation.magneticVariation"
      (rmc.magneticVariation.map (· * degToRad)) ++
    match rmc.fixDate, rmc.fixTime with
    | some date, some time =>
      if fixValid then
        let utc := utcOf date time
        [⟨"navigation.datetime", .string (isoText utc)⟩,
          ⟨"environment.time.millis", millisJson utc⟩,
          ⟨"environment.time.timezoneOffset", .number (.posInt 0)⟩,
          ⟨"environment.time.timezoneRegion", .string "UTC"⟩]
      else []
    | _, _ => []

/-! GGA. -/

inductive FixType where
  | invalid
  | gps
  | dGps
  | pps
  | rtk
  | floatRtk
  | estimated
  | manual
  | sbas
  | simulation
  deriving DecidableEq

def FixType.method : FixType → String
  | invalid => "no GPS"
  | gps => "GNSS"
  | dGps => "DGNSS"
  | pps => "PPS"
  | rtk => "RTK fixed"
  | floatRtk => "RTK float"
  | estimated => "estimated"
  | manual => "manual"
  | sbas => "DGNSS"
  | simulation => "simulation"

structure GgaData where
  fixType : Option FixType
  latitude : Option ℚ
  longitude : Option ℚ
  altitude : Option ℚ
  hdop : Option ℚ
  fixSatellites : Option UInt32

def fromGga (gga : GgaData) : List PathValue :=
  PathValue.ofJson "navigation.position" (positionOf gga.latitude gga.longitude gga.altitude) ++
    PathValue.ofNumber "navigation.gnss.horizontalDilution" gga.hdop ++
    PathValue.ofJson "navigation.gnss.satellites"
      (gga.fixSatellites.map fun sats => .number (.posInt sats.toUInt64)) ++
    PathValue.ofJson "navigation.gnss.methodQuality"
      (gga.fixType.map fun fix => .string fix.method)

/-! GNS. -/

inductive NavigationStatus where
  | safe
  | caution
  | unsafeForNavigation
  | notValidForNavigation
  deriving DecidableEq

def NavigationStatus.method : NavigationStatus → String
  | safe | caution => "GNSS"
  | unsafeForNavigation => "estimated"
  | notValidForNavigation => "no GPS"

structure GnsData where
  lat : Option ℚ
  lon : Option ℚ
  alt : Option ℚ
  hdop : Option ℚ
  nsattelites : UInt16
  navStatus : Option NavigationStatus

def fromGns (gns : GnsData) : List PathValue :=
  PathValue.ofJson "navigation.position" (positionOf gns.lat gns.lon gns.alt) ++
    PathValue.ofNumber "navigation.gnss.horizontalDilution" gns.hdop ++
    [⟨"navigation.gnss.satellites", .number (.posInt gns.nsattelites.toUInt64)⟩] ++
    PathValue.ofJson "navigation.gnss.methodQuality"
      (gns.navStatus.map fun status => .string status.method)

/-! GLL. -/

structure GllData where
  latitude : Option ℚ
  longitude : Option ℚ
  valid : Bool

def fromGll (gll : GllData) : List PathValue :=
  if ¬gll.valid then []
  else PathValue.ofJson "navigation.position" (positionOf gll.latitude gll.longitude none)

/-! RMB and XTE. -/

structure RmbData where
  status : Bool
  crossTrackError : Option ℚ
  destLatitude : Option ℚ
  destLongitude : Option ℚ
  rangeToDest : Option ℚ
  bearingToDest : Option ℚ

def fromRmb (rmb : RmbData) : List PathValue :=
  if ¬rmb.status then []
  else
    PathValue.ofJson "navigation.courseGreatCircle.nextPoint.position"
        (positionOf rmb.destLatitude rmb.destLongitude none) ++
      PathValue.ofNumber "navigation.courseGreatCircle.nextPoint.distance"
        (rmb.rangeToDest.map (· * nmToM)) ++
      PathValue.ofNumber "navigation.courseGreatCircle.nextPoint.bearingTrue"
        (rmb.bearingToDest.map (· * degToRad)) ++
      PathValue.ofNumber "navigation.courseGreatCircle.crossTrackError"
        (rmb.crossTrackError.map (· * nmToM))

structure XteData where
  statusGeneral : Bool
  crossTrackError : Option ℚ

def fromXte (xte : XteData) : List PathValue :=
  if ¬xte.statusGeneral then []
  else
    PathValue.ofNumber "navigation.courseGreatCircle.crossTrackError"
      (xte.crossTrackError.map (· * nmToM))

/-! ROT. -/

structure RotData where
  rate : Option ℚ
  valid : Option Bool

/-- The rate is in degrees a minute. -/
def fromRot (rot : RotData) : List PathValue :=
  if rot.valid ≠ some false then
    PathValue.ofNumber "navigation.rateOfTurn" (rot.rate.map fun r => r * degToRad / 60)
  else []

/-! RSA. -/

structure RsaData where
  starboard : Option ℚ
  starboardValid : Bool
  port : Option ℚ
  portValid : Bool

def fromRsa (rsa : RsaData) : List PathValue :=
  (if rsa.starboardValid then
    PathValue.ofNumber "steering.rudderAngle" (rsa.starboard.map (· * degToRad)) else []) ++
  (if rsa.portValid then
    PathValue.ofNumber "steering.rudderAnglePort" (rsa.port.map (· * degToRad)) else [])

/-! What the sentences carry, and what their status says of it. -/

inductive StatusSentence where
  | rmc (data : RmcData)
  | gga (data : GgaData)
  | gns (data : GnsData)
  | gll (data : GllData)
  | mwv (data : MwvData)
  | rmb (data : RmbData)
  | xte (data : XteData)
  | rot (data : RotData)
  | rsa (data : RsaData)
  | rpm (data : RpmData)

/-- A value that a sentence may carry, if it is there, under its path. -/
structure Field where
  path : String
  value : Option Json
  /-- whether it is a place, a movement, the wind, a rudder or an engine -/
  navigational : Bool
  /-- whether the sentence marks it as invalid -/
  void : Bool

namespace StatusSentence

def emitted : StatusSentence → List PathValue
  | rmc data => fromRmc data
  | gga data => fromGga data
  | gns data => fromGns data
  | gll data => fromGll data
  | mwv data => fromMwv data
  | rmb data => fromRmb data
  | xte data => fromXte data
  | rot data => fromRot data
  | rsa data => fromRsa data
  | rpm data => fromRpm data

/-- The status of the whole sentence; a rudder sensor has one for either side. -/
def void : StatusSentence → Bool
  | rmc data => data.statusOfFix = .invalid
  | gga data => data.fixType = some .invalid
  | gns data => data.navStatus = some .notValidForNavigation
  | gll data => !data.valid
  | mwv data => !data.dataValid
  | rmb data => !data.status
  | xte data => !data.statusGeneral
  | rot data => data.valid = some false
  | rsa _ => false
  | rpm data => !data.valid

/-- The path of the wind's angle and of its speed. -/
def windPaths : Option MwvReference → List String
  | some .relative => ["environment.wind.angleApparent", "environment.wind.speedApparent"]
  | some .theoretical => ["environment.wind.angleTrueWater", "environment.wind.speedTrue"]
  | none => []

/-- The time of a fix. -/
def time (data : RmcData) : Option Int := do
  let date ← data.fixDate
  let time ← data.fixTime
  return utcOf date time

def radians (degrees : Option ℚ) : Option Json := degrees.map fun x => .ofF64 (x * degToRad)

def meters (miles : Option ℚ) : Option Json := miles.map fun x => .ofF64 (x * nmToM)

def fields (s : StatusSentence) : List Field :=
  match s with
  | rmc data => [
      ⟨"navigation.position", positionOf data.lat data.lon none, true, s.void⟩,
      ⟨"navigation.speedOverGround",
        data.speedOverGround.map fun x => .ofF64 (x * knotsToMs), true, s.void⟩,
      ⟨"navigation.courseOverGroundTrue", radians data.trueCourse, true, s.void⟩,
      ⟨"navigation.magneticVariation", radians data.magneticVariation, true, s.void⟩,
      ⟨"navigation.datetime", (time data).map fun t => .string (isoText t), false, s.void⟩,
      ⟨"environment.time.millis", (time data).map millisJson, false, s.void⟩,
      ⟨"environment.time.timezoneOffset",
        (time data).map fun _ => .number (.posInt 0), false, s.void⟩,
      ⟨"environment.time.timezoneRegion", (time data).map fun _ => .string "UTC", false, s.void⟩]
  | gga data => [
      ⟨"navigation.position",
        positionOf data.latitude data.longitude data.altitude, true, s.void⟩,
      ⟨"navigation.gnss.horizontalDilution", data.hdop.map .ofF64, false, s.void⟩,
      ⟨"navigation.gnss.satellites",
        data.fixSatellites.map fun sats => .number (.posInt sats.toUInt64), false, s.void⟩,
      ⟨"navigation.gnss.methodQuality",
        data.fixType.map fun fix => .string fix.method, false, s.void⟩]
  | gns data => [
      ⟨"navigation.position", positionOf data.lat data.lon data.alt, true, s.void⟩,
      ⟨"navigation.gnss.horizontalDilution", data.hdop.map .ofF64, false, s.void⟩,
      ⟨"navigation.gnss.satellites",
        some (.number (.posInt data.nsattelites.toUInt64)), false, s.void⟩,
      ⟨"navigation.gnss.methodQuality",
        data.navStatus.map fun status => .string status.method, false, s.void⟩]
  | gll data => [
      ⟨"navigation.position", positionOf data.latitude data.longitude none, true, s.void⟩]
  | mwv data => (windPaths data.reference).zipWith (fun path value => ⟨path, value, true, s.void⟩)
      [radians data.windDirection, data.speedMs.map .ofF64]
  | rmb data => [
      ⟨"navigation.courseGreatCircle.nextPoint.position",
        positionOf data.destLatitude data.destLongitude none, true, s.void⟩,
      ⟨"navigation.courseGreatCircle.nextPoint.distance", meters data.rangeToDest, true, s.void⟩,
      ⟨"navigation.courseGreatCircle.nextPoint.bearingTrue",
        radians data.bearingToDest, true, s.void⟩,
      ⟨"navigation.courseGreatCircle.crossTrackError", meters data.crossTrackError, true, s.void⟩]
  | xte data => [
      ⟨"navigation.courseGreatCircle.crossTrackError", meters data.crossTrackError, true, s.void⟩]
  | rot data => [
      ⟨"navigation.rateOfTurn",
        data.rate.map fun x => .ofF64 (x * degToRad / 60), true, s.void⟩]
  | rsa data => [
      ⟨"steering.rudderAngle", radians data.starboard, true, !data.starboardValid⟩,
      ⟨"steering.rudderAnglePort", radians data.port, true, !data.portValid⟩]
  | rpm data => [
      ⟨"propulsion." ++ data.instanceName ++ ".revolutions",
        data.rpm.map fun x => .ofF64 (x / 60), true, s.void⟩,
      ⟨"propulsion." ++ data.instanceName ++ ".pitch",
        data.pitch.map fun x => .ofF64 (x / 100), true, s.void⟩]

/-- Void fields of navigation give nothing, valid ones that are there are put out, once each,
and there is nothing else. -/
structure Honest (s : StatusSentence) : Prop where
  void : ∀ f ∈ s.fields, f.void → f.navigational → ∀ pv ∈ s.emitted, pv.path ≠ f.path
  present : ∀ f ∈ s.fields, ¬f.void → ∀ v, f.value = some v → ⟨f.path, v⟩ ∈ s.emitted
  only : ∀ pv ∈ s.emitted, ∃ f ∈ s.fields, f.path = pv.path ∧ f.value = some pv.value
  once : (s.emitted.map (·.path)).Nodup

/-- A receiver without a fix that still sends what it had. -/
def Stale : StatusSentence → Prop
  | rmc data => data.statusOfFix = .invalid ∧
      (data.lat.isSome ∧ data.lon.isSome ∨ data.speedOverGround.isSome ∨
        data.trueCourse.isSome ∨ data.magneticVariation.isSome)
  | gga data => data.fixType = some .invalid ∧ data.latitude.isSome ∧ data.longitude.isSome
  | gns data => data.navStatus = some .notValidForNavigation ∧ data.lat.isSome ∧ data.lon.isSome
  | _ => False

/-- Whether the mapping asks for the status before it puts out a field. -/
def asks (s : StatusSentence) (f : Field) : Bool :=
  match s with
  | rmc _ => !f.navigational
  | gga _ | gns _ => false
  | _ => true

end StatusSentence

/-- A field as the mapping of its sentence puts it out. -/
def Field.shown (s : StatusSentence) (f : Field) : Option PathValue :=
  if f.void && s.asks f then none else f.value.map (⟨f.path, ·⟩)

namespace StatusSentence

theorem ofNumber_eq (path : String) (value : Option ℚ) :
    PathValue.ofNumber path value = ((value.map Json.ofF64).map (⟨path, ·⟩)).toList := by
  rw [Option.map_map]
  rfl

/-- All the mappings are the table, but for what they ask. -/
theorem emitted_eq (s : StatusSentence) : s.emitted = s.fields.filterMap (Field.shown s) := by
  rw [List.filterMap_eq_flatMap_toList]
  cases s with
  | rmc data =>
    obtain ⟨fixTime, fixDate, status, lat, lon, sog, course, variation⟩ := data
    cases status <;> cases fixTime <;> cases fixDate <;>
      simp [emitted, fields, Field.shown, asks, void, fromRmc, PathValue.ofJson, ofNumber_eq,
        radians, time, Function.comp_def]
  | gga data =>
    simp [emitted, fields, Field.shown, asks, fromGga, PathValue.ofJson, ofNumber_eq,
      Function.comp_def]
  | gns data =>
    simp [emitted, fields, Field.shown, asks, fromGns, PathValue.ofJson, ofNumber_eq,
      Function.comp_def]
  | gll data =>
    cases hv : data.valid <;>
      simp [emitted, fields, Field.shown, asks, void, fromGll, PathValue.ofJson, hv]
  | mwv data =>
    obtain ⟨direction, reference, speed, units, valid⟩ := data
    cases valid <;> rcases reference with _ | (_ | _) <;>
      simp [emitted, fields, Field.shown, asks, void, fromMwv, ofNumber_eq, windPaths, radians,
        Function.comp_def]
  | rmb data =>
    cases hv : data.status <;>
      simp [emitted, fields, Field.shown, asks, void, fromRmb, PathValue.ofJson, ofNumber_eq,
        radians, meters, hv, Function.comp_def]
  | xte data =>
    cases hv : data.statusGeneral <;>
      simp [emitted, fields, Field.shown, asks, void, fromXte, ofNumber_eq, meters, hv,
        Function.comp_def]
  | rot data =>
    rcases hv : data.valid with _ | (_ | _) <;>
      simp [emitted, fields, Field.shown, asks, void, fromRot, ofNumber_eq, hv, Function.comp_def]
  | rsa data =>
    cases hs : data.starboardValid <;> cases hp : data.portValid <;>
      simp [emitted, fields, Field.shown, asks, fromRsa, ofNumber_eq, radians, hs, hp,
        Function.comp_def]
  | rpm data =>
    cases hv : data.valid <;>
      simp [emitted, fields, Field.shown, asks, void, fromRpm, ofNumber_eq, hv, Function.comp_def]

theorem mem_emitted {s : StatusSentence} {pv : PathValue} : pv ∈ s.emitted ↔
    ∃ f ∈ s.fields, ¬(f.void ∧ s.asks f) ∧ f.path = pv.path ∧ f.value = some pv.value := by
  rw [emitted_eq, List.mem_filterMap]
  refine exists_congr fun f => and_congr_right fun _ => ?_
  obtain ⟨path, value⟩ := pv
  unfold Field.shown
  cases hv : f.void && s.asks f <;> cases f.value <;> simp_all

theorem path_nodup (s : StatusSentence) : (s.fields.map (·.path)).Nodup := by
  cases s with
  | mwv data =>
    rcases hr : data.reference with _ | (_ | _) <;> simp [fields, windPaths, hr]
  | rpm data => simp [fields]
  | _ => simp [fields]

theorem isSome_positionOf (lat lon altitude : Option ℚ) :
    (positionOf lat lon altitude).isSome = (lat.isSome && lon.isSome) := by
  cases lat <;> cases lon <;> rfl

/-- The fields whose status is not asked for. -/
theorem stale_iff (s : StatusSentence) : s.Stale ↔
    ∃ f ∈ s.fields, f.void ∧ f.navigational ∧ f.value.isSome ∧ s.asks f = false := by
  cases s with
  | rmc data => simp [Stale, fields, asks, void, radians, isSome_positionOf, and_or_left]
  | gga data => simp [Stale, fields, asks, void, isSome_positionOf]
  | gns data => simp [Stale, fields, asks, void, isSome_positionOf]
  | _ => simp [Stale, asks]

theorem map_path_shown (s : StatusSentence) (fs : List Field) :
    ((fs.filterMap (Field.shown s)).map (·.path)).Sublist (fs.map (·.path)) := by
  induction fs with
  | nil => exact List.Sublist.refl _
  | cons f fs ih =>
    rw [List.filterMap_cons, List.map_cons]
    cases hf : f.shown s with
    | none => exact ih.cons _
    | some pv =>
      have hpath : pv.path = f.path := by
        unfold Field.shown at hf
        split at hf
        · cases hf
        · obtain ⟨v, -, rfl⟩ := Option.map_eq_some_iff.mp hf
          rfl
      rw [List.map_cons, hpath]
      exact ih.cons_cons _

theorem Honest.not_stale {s : StatusSentence} (h : s.Honest) : ¬s.Stale := by
  rw [stale_iff]
  rintro ⟨f, hf, hvoid, hnav, hvalue, hasks⟩
  obtain ⟨v, hv⟩ := Option.isSome_iff_exists.mp hvalue
  exact h.void f hf hvoid hnav ⟨f.path, v⟩
    (mem_emitted.mpr ⟨f, hf, by simp [hasks], rfl, hv⟩) rfl

theorem honest_iff (s : StatusSentence) : s.Honest ↔ ¬s.Stale := by
  refine ⟨Honest.not_stale, fun h => ?_⟩
  rw [stale_iff] at h
  constructor
  · intro f hf hvoid hnav pv hpv hpath
    obtain ⟨f', hf', hshown, hpath', hvalue⟩ := mem_emitted.mp hpv
    obtain rfl := List.inj_on_of_nodup_map s.path_nodup hf' hf (hpath'.trans hpath)
    refine h ⟨f', hf', hvoid, hnav, by rw [hvalue]; rfl, ?_⟩
    exact Bool.eq_false_iff.mpr fun hasks => hshown ⟨hvoid, hasks⟩
  · intro f hf hvalid v hv
    exact mem_emitted.mpr ⟨f, hf, fun hvoid => hvalid hvoid.1, rfl, hv⟩
  · intro pv hpv
    obtain ⟨f, hf, -, hfield⟩ := mem_emitted.mp hpv
    exact ⟨f, hf, hfield⟩
  · rw [emitted_eq]
    exact s.path_nodup.sublist (map_path_shown s s.fields)

/-- A receiver that has lost its fix and repeats its last position. -/
theorem void_position_emitted : ¬∀ s : StatusSentence, s.Honest := by
  intro h
  exact (h (.rmc ⟨none, none, .invalid, some 53.5, some 9.9, none, none, none⟩)).not_stale
    ⟨rfl, .inl ⟨rfl, rfl⟩⟩

end StatusSentence

end Nmea0183
end SignalK

import SignalK.Lib.Significand
import SignalK.Nmea.Pgns
import SignalK.Nmea.Validity

/-! The output plugins, and what the input plugins make of what they send. Doubles are exact,
single precision is its 24 significant bits. -/
namespace SignalK

/-- `as f32` -/
def toF32 (x : ℚ) : ℚ := Significand.round 24 x

def toDegrees (x : ℚ) : ℚ := x * (180 / Consts.pi)

/-! What is expected of a gateway. -/

namespace Gateway

/-- Kinds of fields. -/
inductive Kind where
  | latitude
  | longitude
  | speed
  | depth
  | direction
  | variation

/-- The range of a field on the wire, by what a full turn is there. -/
def Kind.InRange (turn : ℚ) : Kind → ℚ → Prop
  | latitude, x => |x| ≤ 90
  | longitude, x => |x| ≤ 180
  | speed, x | depth, x => 0 ≤ x
  | direction, x => 0 ≤ x ∧ x < turn
  | variation, x => |x| ≤ turn / 2

/-- What SignalK allows: angles have a sign or not. -/
def Kind.Allowed : Kind → ℚ → Prop
  | latitude, x => |x| ≤ 90
  | longitude, x => |x| ≤ 180
  | speed, x | depth, x => 0 ≤ x
  | direction, x | variation, x => |x| < Consts.tau

def Near (y x : ℚ) : Prop := |y - x| ≤ 2 / 1000000 * |x|

/-- The same value, angles up to turns. -/
def Kind.Same : Kind → ℚ → ℚ → Prop
  | direction, y, x | variation, y, x => ∃ k : ℤ, Near y (x + k * Consts.tau)
  | _, y, x => Near y x

/-- A value with the place it has in SignalK. -/
structure Slot where
  path : String
  /-- the field of the object at the path -/
  part : Option String
  kind : Kind
  value : Option ℚ

def found (out : List PathValue) (path : String) (part : Option String) : List Json :=
  (out.filter fun pv => pv.path = path).filterMap fun pv => part.elim (some pv.value) pv.value.get

/-- The values read back for a slot are the same as the one sent, or none if there is none. -/
def ReadBack (out : List PathValue) (slot : Slot) : Prop :=
  match slot.value with
  | none => found out slot.path slot.part = []
  | some x => found out slot.path slot.part ≠ [] ∧
      ∀ j ∈ found out slot.path slot.part, ∃ y, j = .ofF64 y ∧ slot.kind.Same y x

/-- Of the values in the slots these fields were sent and these values read back. -/
structure Faithful (turn : ℚ) (slots : List Slot) (sent : List (Kind × Option ℚ))
    (out : List PathValue) : Prop where
  range : ∀ f ∈ sent, ∀ x, f.2 = some x → f.1.InRange turn x
  back : ∀ slot ∈ slots, ReadBack out slot

def Allowed (slots : List Slot) : Prop :=
  ∀ slot ∈ slots, ∀ x, slot.value = some x → slot.kind.Allowed x

end Gateway

open Gateway

/-! NMEA 0183. -/

namespace Nmea0183

structure HdtData where
  heading : Option ℚ

structure DbtData where
  depthFeet : Option ℚ
  depthMeters : Option ℚ
  depthFathoms : Option ℚ

structure VtgData where
  trueCourse : Option ℚ
  speedOverGround : Option ℚ

def feetToM : ℚ := 0.3048

def fathomsToM : ℚ := 1.8288

def fromHdt (hdt : HdtData) : List PathValue :=
  PathValue.ofNumber "navigation.headingTrue" (hdt.heading.map (· * degToRad))

/-- Meters, or else feet, or else fathoms. -/
def fromDbt (dbt : DbtData) : List PathValue :=
  PathValue.ofNumber "environment.depth.belowTransducer"
    ((dbt.depthMeters.or (dbt.depthFeet.map (· * feetToM))).or
      (dbt.depthFathoms.map (· * fathomsToM)))

def fromVtg (vtg : VtgData) : List PathValue :=
  PathValue.ofNumber "navigation.courseOverGroundTrue" (vtg.trueCourse.map (· * degToRad)) ++
    PathValue.ofNumber "navigation.speedOverGround" (vtg.speedOverGround.map (· * knotsToMs))

structure Snapshot where
  latitude : Option ℚ
  longitude : Option ℚ
  sogMps : Option ℚ
  cogTrueRad : Option ℚ
  headingTrueRad : Option ℚ
  magneticVariationRad : Option ℚ
  windAngleApparentRad : Option ℚ
  windSpeedApparentMps : Option ℚ
  depthBelowTransducerM : Option ℚ

def mpsToKnots : ℚ := 1.943844

def feetPerMeter : ℚ := 3.28084

def fathomsPerMeter : ℚ := 0.546807

namespace Snapshot

def slots (snap : Snapshot) : List Slot := [
  ⟨"navigation.position", some "latitude", .latitude, snap.latitude⟩,
  ⟨"navigation.position", some "longitude", .longitude, snap.longitude⟩,
  ⟨"navigation.speedOverGround", none, .speed, snap.sogMps⟩,
  ⟨"navigation.courseOverGroundTrue", none, .direction, snap.cogTrueRad⟩,
  ⟨"navigation.headingTrue", none, .direction, snap.headingTrueRad⟩,
  ⟨"navigation.magneticVariation", none, .variation, snap.magneticVariationRad⟩,
  ⟨"environment.wind.angleApparent", none, .direction, snap.windAngleApparentRad⟩,
  ⟨"environment.wind.speedApparent", none, .speed, snap.windSpeedApparentMps⟩,
  ⟨"environment.depth.belowTransducer", none, .depth, snap.depthBelowTransducerM⟩]

variable (now : Calendar.Date × NaiveTime) (snap : Snapshot)

def toRmc : RmcData where
  fixTime := some now.2
  fixDate := some now.1
  statusOfFix := if snap.latitude.isSome then .autonomous else .invalid
  lat := snap.latitude
  lon := snap.longitude
  speedOverGround := snap.sogMps.map fun v => toF32 (v * mpsToKnots)
  trueCourse := snap.cogTrueRad.map fun v => toF32 (toDegrees v)
  magneticVariation := snap.magneticVariationRad.map fun v => toF32 (toDegrees v)

def toHdt : HdtData where
  heading := snap.headingTrueRad.map fun v => toF32 (toDegrees v)

def toMwv : MwvData where
  windDirection := snap.windAngleApparentRad.map fun v => toF32 (toDegrees v)
  reference := some .relative
  windSpeed := snap.windSpeedApparentMps.map fun v => toF32 (v * mpsToKnots)
  windSpeedUnits := some .knots
  dataValid := snap.windAngleApparentRad.isSome

def toDbt : DbtData where
  depthFeet := snap.depthBelowTransducerM.map (· * feetPerMeter)
  depthMeters := snap.depthBelowTransducerM
  depthFathoms := snap.depthBelowTransducerM.map (· * fathomsPerMeter)

def toVtg : VtgData where
  trueCourse := snap.cogTrueRad.map fun v => toF32 (toDegrees v)
  speedOverGround := snap.sogMps.map fun v => toF32 (v * mpsToKnots)

end Snapshot

/-- A sentence for the encoder. -/
inductive Sentence where
  | rmc (data : RmcData)
  | hdt (data : HdtData)
  | mwv (data : MwvData)
  | dbt (data : DbtData)
  | vtg (data : VtgData)

def Sentence.pathValues : Sentence → List PathValue
  | rmc data => fromRmc data
  | hdt data => fromHdt data
  | mwv data => fromMwv data
  | dbt data => fromDbt data
  | vtg data => fromVtg data

/-- The fields that have a range. -/
def Sentence.fields : Sentence → List (Kind × Option ℚ)
  | rmc data => [(.latitude, data.lat), (.longitude, data.lon), (.speed, data.speedOverGround),
      (.direction, data.trueCourse), (.variation, data.magneticVariation)]
  | hdt data => [(.direction, data.heading)]
  | mwv data => [(.direction, data.windDirection), (.speed, data.windSpeed)]
  | dbt data => [(.depth, data.depthFeet), (.depth, data.depthMeters),
      (.depth, data.depthFathoms)]
  | vtg data => [(.direction, data.trueCourse), (.speed, data.speedOverGround)]

def generateAllSentences (now : Calendar.Date × NaiveTime) (snap : Snapshot) : List Sentence :=
  [.rmc (snap.toRmc now)] ++
    (if snap.headingTrueRad.isSome then [.hdt snap.toHdt] else []) ++
    (if snap.windAngleApparentRad.isSome || snap.windSpeedApparentMps.isSome then
      [.mwv snap.toMwv] else []) ++
    (if snap.depthBelowTransducerM.isSome then [.dbt snap.toDbt] else []) ++
    (if snap.cogTrueRad.isSome || snap.sogMps.isSome then [.vtg snap.toVtg] else [])

/-- The snapshot survives being sent and read. -/
def Survives (now : Calendar.Date × NaiveTime) (snap : Snapshot) : Prop :=
  Faithful 360 snap.slots ((generateAllSentences now snap).flatMap Sentence.fields)
    ((generateAllSentences now snap).flatMap Sentence.pathValues)

/-- A direction in degrees that is none to port, and not so near to the full turn that single
precision makes it one. -/
def Forward (x : ℚ) : Prop := 0 ≤ x ∧ toDegrees x < 360 - 1 / 2 ^ 16

/-- No direction is negative, no variation more than half a turn, nothing comes without what it
depends on. -/
structure Snapshot.Clean (snap : Snapshot) : Prop where
  course : ∀ x, snap.cogTrueRad = some x → Forward x
  heading : ∀ x, snap.headingTrueRad = some x → Forward x
  windAngle : ∀ x, snap.windAngleApparentRad = some x → Forward x
  variation : ∀ x, snap.magneticVariationRad = some x → |toDegrees x| ≤ 180 + 1 / 2 ^ 17
  wind : snap.windSpeedApparentMps.isSome → snap.windAngleApparentRad.isSome
  position : snap.latitude.isSome = snap.longitude.isSome

end Nmea0183

/-! NMEA 2000. -/

namespace Nmea2000

inductive DirectionReference where
  | trueNorth
  | magnetic
  deriving DecidableEq

def DirectionReference.ofRaw : Nat → Option DirectionReference
  | 0 => some trueNorth
  | 1 => some magnetic
  | _ => none

def WindReference.ofRaw : Nat → Option WindReference
  | 0 => some trueGroundReferencedToNorth
  | 1 => some magneticGroundReferencedToMagneticNorth
  | 2 => some apparent
  | 3 => some trueBoatReferenced
  | 4 => some trueWaterReferenced
  | _ => none

/-! PGN 127250. -/

structure VesselHeading where
  heading : Option ℚ
  reference : Option DirectionReference
  variation : Option ℚ

def fromVesselHeading (m : VesselHeading) : List PathValue :=
  PathValue.ofNumber
      (if m.reference = some .magnetic then "navigation.headingMagnetic"
        else "navigation.headingTrue") m.heading ++
    PathValue.ofNumber "navigation.magneticVariation" m.variation

/-! PGN 129026. -/

structure CogSogRapidUpdate where
  cogReference : Option DirectionReference
  cog : Option ℚ
  sog : Option ℚ

def fromCogSogRapid (m : CogSogRapidUpdate) : List PathValue :=
  PathValue.ofNumber
      (if m.cogReference = some .magnetic then "navigation.courseOverGroundMagnetic"
        else "navigation.courseOverGroundTrue") m.cog ++
    PathValue.ofNumber "navigation.speedOverGround" m.sog

structure Snapshot where
  headingTrueRad : Option ℚ
  magneticVariationRad : Option ℚ
  cogTrueRad : Option ℚ
  sogMps : Option ℚ
  windSpeedApparentMps : Option ℚ
  windAngleApparentRad : Option ℚ

def Snapshot.slots (snap : Snapshot) : List Slot := [
  ⟨"navigation.headingTrue", none, .direction, snap.headingTrueRad⟩,
  ⟨"navigation.magneticVariation", none, .variation, snap.magneticVariationRad⟩,
  ⟨"navigation.courseOverGroundTrue", none, .direction, snap.cogTrueRad⟩,
  ⟨"navigation.speedOverGround", none, .speed, snap.sogMps⟩,
  ⟨"environment.wind.speedApparent", none, .speed, snap.windSpeedApparentMps⟩,
  ⟨"environment.wind.angleApparent", none, .direction, snap.windAngleApparentRad⟩]

/-- A message for the encoder. -/
inductive Message where
  | vesselHeading (m : VesselHeading)
  | cogSogRapidUpdate (m : CogSogRapidUpdate)
  | windData (m : WindData)

def Message.pathValues : Message → List PathValue
  | vesselHeading m => fromVesselHeading m
  | cogSogRapidUpdate m => fromCogSogRapid m
  | windData m => fromWindData m

/-- The fields that have a range. -/
def Message.fields : Message → List (Kind × Option ℚ)
  | vesselHeading m => [(.direction, m.heading), (.variation, m.variation)]
  | cogSogRapidUpdate m => [(.direction, m.cog), (.speed, m.sog)]
  | windData m => [(.speed, m.windSpeed), (.direction, m.windAngle)]

structure EncodedPgn where
  pgn : UInt32
  priority : UInt8
  sid : UInt8
  data : Message

/-- The groups to send, and the next sequence identifier. -/
def buildPgns (snap : Snapshot) (sid : UInt8) : List EncodedPgn × UInt8 :=
  let heading := snap.headingTrueRad.map fun heading =>
    Message.vesselHeading ⟨some heading, DirectionReference.ofRaw 0, snap.magneticVariationRad⟩
  let course := if snap.cogTrueRad.isSome || snap.sogMps.isSome then
    some (Message.cogSogRapidUpdate
      ⟨DirectionReference.ofRaw 0, snap.cogTrueRad, snap.sogMps⟩) else none
  let wind := if snap.windSpeedApparentMps.isSome || snap.windAngleApparentRad.isSome then
    some (Message.windData
      ⟨snap.windSpeedApparentMps, snap.windAngleApparentRad, WindReference.ofRaw 2⟩)
    else none
  let next (sid : UInt8) (m : Option Message) : UInt8 := if m.isSome then sid + 1 else sid
  ((heading.map fun m => ⟨127250, 2, sid, m⟩).toList ++
    (course.map fun m => ⟨129026, 2, next sid heading, m⟩).toList ++
    (wind.map fun m => ⟨130306, 2, next (next sid heading) course, m⟩).toList,
    next (next (next sid heading) course) wind)

def messages (snap : Snapshot) (sid : UInt8) : List Message :=
  (buildPgns snap sid).1.map (·.data)

def Survives (sid : UInt8) (snap : Snapshot) : Prop :=
  Faithful Consts.tau snap.slots ((messages snap sid).flatMap Message.fields)
    ((messages snap sid).flatMap Message.pathValues)

/-- No direction is negative, no variation more than half a turn or without a heading. -/
structure Snapshot.Clean (snap : Snapshot) : Prop where
  heading : ∀ x, snap.headingTrueRad = some x → 0 ≤ x
  course : ∀ x, snap.cogTrueRad = some x → 0 ≤ x
  windAngle : ∀ x, snap.windAngleApparentRad = some x → 0 ≤ x
  variation : ∀ x, snap.magneticVariationRad = some x → |x| ≤ Consts.pi
  carried : snap.magneticVariationRad.isSome → snap.headingTrueRad.isSome

end Nmea2000

/-! Single precision and the constants of the conversions. -/

namespace Gateway

theorem Near.refl (x : ℚ) : Near x x := by
  rw [Near, sub_self, abs_zero]
  positivity

theorem abs_toF32_sub_le (x : ℚ) : |toF32 x - x| ≤ |x| * (1 / 2 ^ 24) := by
  have h := Significand.abs_round_sub_le 24 x
  rwa [zpow_neg, zpow_natCast, ← one_div] at h

/-- The constants of the two plugins are not quite inverse to each other. -/
theorem near_speed (x : ℚ) :
    Near (toF32 (x * Nmea0183.mpsToKnots) * Nmea0183.knotsToMs) x := by
  have hround := abs_toF32_sub_le (x * Nmea0183.mpsToKnots)
  set f := toF32 (x * Nmea0183.mpsToKnots)
  have hsplit : f * Nmea0183.knotsToMs - x = (f - x * Nmea0183.mpsToKnots) * Nmea0183.knotsToMs +
      x * (Nmea0183.mpsToKnots * Nmea0183.knotsToMs - 1) := by ring
  have hconst : |Nmea0183.mpsToKnots * Nmea0183.knotsToMs - 1| ≤ 12 / 10000000 := by
    norm_num [Nmea0183.mpsToKnots, Nmea0183.knotsToMs, abs_le]
  have hk : |Nmea0183.knotsToMs| ≤ 1 := by norm_num [Nmea0183.knotsToMs, abs_le]
  have hm : |Nmea0183.mpsToKnots| ≤ 2 := by norm_num [Nmea0183.mpsToKnots, abs_le]
  rw [Near, hsplit]
  calc |(f - x * Nmea0183.mpsToKnots) * Nmea0183.knotsToMs +
        x * (Nmea0183.mpsToKnots * Nmea0183.knotsToMs - 1)|
      ≤ |f - x * Nmea0183.mpsToKnots| * |Nmea0183.knotsToMs| +
        |x| * |Nmea0183.mpsToKnots * Nmea0183.knotsToMs - 1| := by
        rw [← abs_mul, ← abs_mul]
        exact abs_add_le _ _
    _ ≤ |x * Nmea0183.mpsToKnots| * (1 / 2 ^ 24) * 1 + |x| * (12 / 10000000) := by gcongr
    _ ≤ |x| * 2 * (1 / 2 ^ 24) * 1 + |x| * (12 / 10000000) := by
        rw [abs_mul]
        gcongr
    _ ≤ 2 / 1000000 * |x| := by linarith [abs_nonneg x]

theorem toDegrees_mul (x : ℚ) : toDegrees x * Nmea0183.degToRad = x := by
  have hpi : Consts.pi ≠ 0 := by norm_num [Consts.pi]
  rw [toDegrees, Nmea0183.degToRad]
  field_simp

theorem near_angle (x : ℚ) : Near (toF32 (toDegrees x) * Nmea0183.degToRad) x := by
  have hround := abs_toF32_sub_le (toDegrees x)
  have hpos : 0 < Nmea0183.degToRad := by norm_num [Nmea0183.degToRad, Consts.pi]
  have hsplit : toF32 (toDegrees x) * Nmea0183.degToRad - x =
      (toF32 (toDegrees x) - toDegrees x) * Nmea0183.degToRad := by
    rw [sub_mul, toDegrees_mul]
  have hx : |x| = |toDegrees x| * Nmea0183.degToRad := by
    conv_lhs => rw [← toDegrees_mul x]
    rw [abs_mul, abs_of_pos hpos]
  rw [Near, hsplit, hx, abs_mul, abs_of_pos hpos]
  have hscaled := mul_le_mul_of_nonneg_right hround hpos.le
  have hnonneg : 0 ≤ |toDegrees x| * Nmea0183.degToRad := by positivity
  linarith

theorem toDegrees_nonneg_iff (x : ℚ) : 0 ≤ toDegrees x ↔ 0 ≤ x := by
  have hpos : 0 < 180 / Consts.pi := by norm_num [Consts.pi]
  exact mul_nonneg_iff_of_pos_right hpos

theorem direction_iff (x : ℚ) :
    Kind.direction.InRange 360 (toF32 (toDegrees x)) ↔ Nmea0183.Forward x := by
  -- a full turn in units of the last place of what is just below it
  have hturn := Significand.round_lt_iff (p := 24) (k := 8) (n := 11796480) (by norm_num)
    (by norm_num) (by norm_num) (by norm_num) (toDegrees x)
  norm_num at hturn
  rw [Kind.InRange, Nmea0183.Forward, toF32, Significand.round_nonneg_iff (by norm_num),
    toDegrees_nonneg_iff, hturn]
  norm_num

theorem variation_iff (x : ℚ) :
    Kind.variation.InRange 360 (toF32 (toDegrees x)) ↔ |toDegrees x| ≤ 180 + 1 / 2 ^ 17 := by
  have hturn : ∀ y, Significand.round 24 y ≤ 180 ↔ y ≤ 180 + 1 / 2 ^ 17 := by
    intro y
    have h := Significand.round_le_iff (p := 24) (k := 7) (n := 11796480) (by norm_num)
      (by norm_num) (by norm_num) (by norm_num) y
    norm_num at h
    rw [h]
    norm_num
  rw [Kind.InRange, toF32, abs_le', abs_le', ← Significand.round_neg]
  norm_num only
  rw [hturn, hturn]
  norm_num

theorem speed_inRange {x : ℚ} (h : 0 ≤ x) :
    Kind.speed.InRange 360 (toF32 (x * Nmea0183.mpsToKnots)) := by
  rw [Kind.InRange, toF32, Significand.round_nonneg_iff (by norm_num)]
  exact mul_nonneg h (by norm_num [Nmea0183.mpsToKnots])

/-! What is found at a path. -/

variable {out out' : List PathValue} {path : String} {part : Option String}

theorem found_append : found (out ++ out') path part =
    found out path part ++ found out' path part := by
  simp [found]

theorem found_nil : found [] path part = [] := rfl

theorem found_cons (pv : PathValue) : found (pv :: out) path part =
    (if pv.path = path then (part.elim (some pv.value) pv.value.get).toList else []) ++
      found out path part := by
  unfold found
  by_cases h : pv.path = path
  · rw [if_pos h, List.filter_cons_of_pos (by simpa using h), List.filterMap_cons]
    cases part.elim (some pv.value) pv.value.get <;> rfl
  · rw [if_neg h, List.filter_cons_of_neg (by simpa using h), List.nil_append]

theorem found_ofNumber (p : String) (value : Option ℚ) :
    found (PathValue.ofNumber p value) path none =
      if p = path then (value.map Json.ofF64).toList else [] := by
  cases value with
  | none => simp [PathValue.ofNumber, found_nil]
  | some x => simp [PathValue.ofNumber, found_cons, found_nil]

/-- A number has no fields. -/
theorem found_ofNumber_part (p part : String) (value : Option ℚ) :
    found (PathValue.ofNumber p value) path (some part) = [] := by
  cases value with
  | none => rfl
  | some x =>
    simp only [PathValue.ofNumber, Option.map_some, Option.toList_some, found_cons, found_nil,
      Option.elim_some, Json.ofF64, Json.get, Option.toList_none, ite_self, List.append_nil]

theorem found_position (p : String) (lat lon : Option ℚ) :
    found (PathValue.ofJson p (Nmea0183.positionOf lat lon none)) path part =
      if p = path then (do
        let lat ← lat
        let lon ← lon
        part.elim (some (Json.ofFields [("latitude", .ofF64 lat), ("longitude", .ofF64 lon)]))
          (Json.ofFields [("latitude", .ofF64 lat), ("longitude", .ofF64 lon)]).get).toList
      else [] := by
  cases lat with
  | none => simp [Nmea0183.positionOf, PathValue.ofJson, found_nil]
  | some lat =>
    cases lon with
    | none => simp [Nmea0183.positionOf, PathValue.ofJson, found_nil]
    | some lon => simp [Nmea0183.positionOf, PathValue.ofJson, found_nil, found_cons]

/-! The fields of a position. -/

theorem get_latitude (lat lon : ℚ) :
    (Json.ofFields [("latitude", .ofF64 lat), ("longitude", .ofF64 lon)]).get "latitude" =
      some (.ofF64 lat) :=
  SortedMap.get_foldl_insert (l := [("latitude", Json.ofF64 lat), ("longitude", .ofF64 lon)])
    (by simp) (by simp) []

theorem get_longitude (lat lon : ℚ) :
    (Json.ofFields [("latitude", .ofF64 lat), ("longitude", .ofF64 lon)]).get "longitude" =
      some (.ofF64 lon) :=
  SortedMap.get_foldl_insert (l := [("latitude", Json.ofF64 lat), ("longitude", .ofF64 lon)])
    (by simp) (by simp) []

/-- The values that a slot gives back, each changed by the way there and back. -/
def echo (change : ℚ → ℚ) (value : Option ℚ) : List Json :=
  (value.map fun x => Json.ofF64 (change x)).toList

/-- What gives back what was sent, changed by no more than it may be. -/
theorem readBack_of {out : List PathValue} {slot : Slot} (change : ℚ → ℚ)
    (hfound : ∀ j, j ∈ found out slot.path slot.part ↔ j ∈ echo change slot.value)
    (hsame : ∀ x, slot.value = some x → slot.kind.Same (change x) x) : ReadBack out slot := by
  unfold ReadBack
  cases hvalue : slot.value with
  | none =>
    rw [hvalue] at hfound
    exact List.eq_nil_iff_forall_not_mem.mpr fun j hj => List.not_mem_nil ((hfound j).mp hj)
  | some x =>
    rw [hvalue] at hfound
    refine ⟨List.ne_nil_of_mem ((hfound _).mpr List.mem_cons_self), fun j hj => ?_⟩
    exact ⟨change x, List.mem_singleton.mp ((hfound j).mp hj), hsame x hvalue⟩

/-- A value that comes only with another one, which is there when it is. -/
theorem mem_echo_if {c : Bool} {change : ℚ → ℚ} {value : Option ℚ} (h : value.isSome → c)
    (j : Json) : j ∈ (if c then echo change value else []) ↔ j ∈ echo change value := by
  cases value with
  | none => cases c <;> simp [echo]
  | some x => rw [if_pos (h rfl)]

end Gateway

namespace Nmea0183

variable {now : Calendar.Date × NaiveTime} {snap : Snapshot}

/-- Where there is nothing to send there is nothing to read. -/
theorem pathValues_eq : (generateAllSentences now snap).flatMap Sentence.pathValues =
    fromRmc (snap.toRmc now) ++ (fromHdt snap.toHdt ++ (fromMwv snap.toMwv ++
      (fromDbt snap.toDbt ++ fromVtg snap.toVtg))) := by
  obtain ⟨lat, lon, sog, cog, heading, variation, angle, speed, depth⟩ := snap
  simp only [generateAllSentences, List.flatMap_append, List.flatMap_cons, List.flatMap_nil,
    Sentence.pathValues, List.append_assoc, List.append_nil]
  congr 1
  congr 1
  · cases heading <;> simp [fromHdt, Snapshot.toHdt, PathValue.ofNumber, Sentence.pathValues]
  congr 1
  · cases angle <;> cases speed <;> simp [fromMwv, Snapshot.toMwv, Sentence.pathValues]
  congr 1
  · cases depth <;> simp [fromDbt, Snapshot.toDbt, PathValue.ofNumber, Sentence.pathValues]
  · cases cog <;> cases sog <;>
      simp [fromVtg, Snapshot.toVtg, PathValue.ofNumber, Sentence.pathValues]

/-! There and back again. -/

def speedBack (x : ℚ) : ℚ := toF32 (x * mpsToKnots) * knotsToMs

def angleBack (x : ℚ) : ℚ := toF32 (toDegrees x) * degToRad

def clockPaths : List String := ["navigation.datetime", "environment.time.millis",
  "environment.time.timezoneOffset", "environment.time.timezoneRegion"]

/-! The sentences read back, with what the way there and back does to a number. -/

theorem fromRmc_toRmc : ∃ clock, fromRmc (snap.toRmc now) =
    PathValue.ofJson "navigation.position" (positionOf snap.latitude snap.longitude none) ++
      PathValue.ofNumber "navigation.speedOverGround" (snap.sogMps.map speedBack) ++
      PathValue.ofNumber "navigation.courseOverGroundTrue" (snap.cogTrueRad.map angleBack) ++
      PathValue.ofNumber "navigation.magneticVariation"
        (snap.magneticVariationRad.map angleBack) ++ clock ∧
    ∀ pv ∈ clock, pv.path ∈ clockPaths := by
  refine ⟨_, by simp only [fromRmc, Snapshot.toRmc, Option.map_map]; rfl, ?_⟩
  intro pv hpv
  split_ifs at hpv <;> simp only [List.mem_cons, List.not_mem_nil, or_false] at hpv
  all_goals rcases hpv with rfl | rfl | rfl | rfl <;> simp [clockPaths]

theorem fromHdt_toHdt : fromHdt snap.toHdt =
    PathValue.ofNumber "navigation.headingTrue" (snap.headingTrueRad.map angleBack) := by
  simp only [fromHdt, Snapshot.toHdt, Option.map_map]
  rfl

/-- Wind without an angle is not valid. -/
theorem fromMwv_toMwv : fromMwv snap.toMwv =
    if snap.windAngleApparentRad.isSome then
      PathValue.ofNumber "environment.wind.angleApparent"
          (snap.windAngleApparentRad.map angleBack) ++
        PathValue.ofNumber "environment.wind.speedApparent"
          (snap.windSpeedApparentMps.map speedBack)
    else [] := by
  obtain ⟨_, _, _, _, _, _, angle, speed, _⟩ := snap
  cases angle <;> cases speed <;> rfl

theorem fromDbt_toDbt : fromDbt snap.toDbt =
    PathValue.ofNumber "environment.depth.belowTransducer" snap.depthBelowTransducerM := by
  obtain ⟨_, _, _, _, _, _, _, _, depth⟩ := snap
  cases depth <;> rfl

theorem fromVtg_toVtg : fromVtg snap.toVtg =
    PathValue.ofNumber "navigation.courseOverGroundTrue" (snap.cogTrueRad.map angleBack) ++
      PathValue.ofNumber "navigation.speedOverGround" (snap.sogMps.map speedBack) := by
  simp only [fromVtg, Snapshot.toVtg, Option.map_map]
  rfl

/-- What is read back at the paths of the slots. -/
structure Received (snap : Snapshot) (out : List PathValue) : Prop where
  latitude : found out "navigation.position" (some "latitude") =
    if snap.longitude.isSome then echo id snap.latitude else []
  longitude : found out "navigation.position" (some "longitude") =
    if snap.latitude.isSome then echo id snap.longitude else []
  sog : found out "navigation.speedOverGround" none =
    echo speedBack snap.sogMps ++ echo speedBack snap.sogMps
  course : found out "navigation.courseOverGroundTrue" none =
    echo angleBack snap.cogTrueRad ++ echo angleBack snap.cogTrueRad
  heading : found out "navigation.headingTrue" none = echo angleBack snap.headingTrueRad
  variation : found out "navigation.magneticVariation" none =
    echo angleBack snap.magneticVariationRad
  windAngle : found out "environment.wind.angleApparent" none =
    echo angleBack snap.windAngleApparentRad
  windSpeed : found out "environment.wind.speedApparent" none =
    if snap.windAngleApparentRad.isSome then echo speedBack snap.windSpeedApparentMps else []
  depth : found out "environment.depth.belowTransducer" none =
    echo id snap.depthBelowTransducerM

attribute [local simp] found_append found_nil found_position found_ofNumber found_ofNumber_part
  echo

theorem received : Received snap ((generateAllSentences now snap).flatMap Sentence.pathValues) := by
  obtain ⟨clock, hrmc, hclock⟩ := @fromRmc_toRmc now snap
  have hnone : ∀ {path part}, path ∉ clockPaths → found clock path part = [] := by
    intro path part hpath
    rw [found, List.filter_eq_nil_iff.mpr, List.filterMap_nil]
    rintro pv hpv hsame
    exact hpath (of_decide_eq_true hsame ▸ hclock pv hpv)
  rw [pathValues_eq, hrmc, fromHdt_toHdt, fromMwv_toMwv, fromDbt_toDbt, fromVtg_toVtg]
  obtain ⟨lat, lon, sog, cog, heading, variation, angle, speed, depth⟩ := snap
  constructor <;> simp (disch := decide) only [found_append, hnone]
  case latitude =>
    cases lat <;> cases lon <;> cases angle <;> simp [get_latitude]
  case longitude =>
    cases lat <;> cases lon <;> cases angle <;> simp [get_longitude]
  all_goals cases angle <;> simp [Function.comp_def]

theorem mem_generateAllSentences {s : Sentence} : s ∈ generateAllSentences now snap ↔
    s = .rmc (snap.toRmc now) ∨ snap.headingTrueRad.isSome ∧ s = .hdt snap.toHdt ∨
      (snap.windAngleApparentRad.isSome ∨ snap.windSpeedApparentMps.isSome) ∧
        s = .mwv snap.toMwv ∨
      snap.depthBelowTransducerM.isSome ∧ s = .dbt snap.toDbt ∨
      (snap.cogTrueRad.isSome ∨ snap.sogMps.isSome) ∧ s = .vtg snap.toVtg := by
  have hif : ∀ (c : Prop) [Decidable c] (t : Sentence),
      s ∈ (if c then [t] else []) ↔ c ∧ s = t := by
    intro c _ t
    split_ifs with hc <;> simp [hc]
  simp only [generateAllSentences, List.mem_append, List.mem_singleton, hif, Bool.or_eq_true,
    or_assoc]

theorem Survives.clean (h : Survives now snap) : snap.Clean := by
  obtain ⟨hrange, hback⟩ := h
  have hsent : ∀ s ∈ generateAllSentences now snap, ∀ f ∈ s.fields, ∀ x, f.2 = some x →
      f.1.InRange 360 x := fun s hs f hf => hrange f (List.mem_flatMap.mpr ⟨s, hs, hf⟩)
  have hreceived : Received snap
      ((generateAllSentences now snap).flatMap Sentence.pathValues) := received
  constructor
  · intro x hx
    exact (direction_iff x).mp (hsent _ (mem_generateAllSentences.mpr (.inl rfl))
      (.direction, (snap.toRmc now).trueCourse) (by simp [Sentence.fields]) _
      (by simp [Snapshot.toRmc, hx]))
  · intro x hx
    exact (direction_iff x).mp (hsent (.hdt snap.toHdt)
      (mem_generateAllSentences.mpr (by simp [hx])) (.direction, snap.toHdt.heading)
      (by simp [Sentence.fields]) _ (by simp [Snapshot.toHdt, hx]))
  · intro x hx
    exact (direction_iff x).mp (hsent (.mwv snap.toMwv)
      (mem_generateAllSentences.mpr (by simp [hx])) (.direction, snap.toMwv.windDirection)
      (by simp [Sentence.fields]) _ (by simp [Snapshot.toMwv, hx]))
  · intro x hx
    exact (variation_iff x).mp (hsent _ (mem_generateAllSentences.mpr (.inl rfl))
      (.variation, (snap.toRmc now).magneticVariation) (by simp [Sentence.fields]) _
      (by simp [Snapshot.toRmc, hx]))
  · intro hspeed
    have hslot := (hback ⟨"environment.wind.speedApparent", none, .speed,
      snap.windSpeedApparentMps⟩ (by simp [Snapshot.slots]))
    obtain ⟨x, hx⟩ := Option.isSome_iff_exists.mp hspeed
    by_contra hangle
    simp only [ReadBack, hx, hreceived.windSpeed, if_neg hangle] at hslot
    exact hslot.1 rfl
  · have hlat := (hback ⟨"navigation.position", some "latitude", .latitude, snap.latitude⟩
      (by simp [Snapshot.slots]))
    have hlon := (hback ⟨"navigation.position", some "longitude", .longitude, snap.longitude⟩
      (by simp [Snapshot.slots]))
    simp only [ReadBack, hreceived.latitude, hreceived.longitude] at hlat hlon
    cases hx : snap.latitude <;> cases hy : snap.longitude <;> simp_all

theorem same_angle (x : ℚ) : Kind.direction.Same (angleBack x) x ∧
    Kind.variation.Same (angleBack x) x := by
  have hnear : ∃ k : ℤ, Near (angleBack x) (x + k * Consts.tau) :=
    ⟨0, by rw [Int.cast_zero, zero_mul, add_zero]; exact near_angle x⟩
  exact ⟨hnear, hnear⟩

theorem Snapshot.Clean.inRange (hallowed : Allowed snap.slots) (h : snap.Clean) {s : Sentence}
    (hs : s ∈ generateAllSentences now snap) :
    ∀ f ∈ s.fields, ∀ x, f.2 = some x → f.1.InRange 360 x := by
  simp only [Allowed, Snapshot.slots, List.forall_mem_cons] at hallowed
  obtain ⟨hlat, hlon, hsog, -, -, -, -, hspeed, hdepth, -⟩ := hallowed
  have hcourse : ∀ x, (snap.cogTrueRad.map fun v => toF32 (toDegrees v)) = some x →
      Kind.direction.InRange 360 x := by
    intro x hx
    obtain ⟨v, hv, rfl⟩ := Option.map_eq_some_iff.mp hx
    exact (direction_iff v).mpr (h.course v hv)
  have hknots : ∀ x, (snap.sogMps.map fun v => toF32 (v * mpsToKnots)) = some x →
      Kind.speed.InRange 360 x := by
    intro x hx
    obtain ⟨v, hv, rfl⟩ := Option.map_eq_some_iff.mp hx
    exact speed_inRange (hsog v hv)
  rcases mem_generateAllSentences.mp hs with rfl | ⟨-, rfl⟩ | ⟨-, rfl⟩ | ⟨-, rfl⟩ | ⟨-, rfl⟩ <;>
    simp only [Sentence.fields, List.forall_mem_cons]
  · refine ⟨hlat, hlon, hknots, hcourse, fun x hx => ?_, List.forall_mem_nil _⟩
    obtain ⟨v, hv, rfl⟩ := Option.map_eq_some_iff.mp hx
    exact (variation_iff v).mpr (h.variation v hv)
  · refine ⟨fun x hx => ?_, List.forall_mem_nil _⟩
    obtain ⟨v, hv, rfl⟩ := Option.map_eq_some_iff.mp hx
    exact (direction_iff v).mpr (h.heading v hv)
  · refine ⟨fun x hx => ?_, fun x hx => ?_, List.forall_mem_nil _⟩
    · obtain ⟨v, hv, rfl⟩ := Option.map_eq_some_iff.mp hx
      exact (direction_iff v).mpr (h.windAngle v hv)
    · obtain ⟨v, hv, rfl⟩ := Option.map_eq_some_iff.mp hx
      exact speed_inRange (hspeed v hv)
  · refine ⟨fun x hx => ?_, hdepth, fun x hx => ?_, List.forall_mem_nil _⟩
    · obtain ⟨v, hv, rfl⟩ := Option.map_eq_some_iff.mp hx
      exact mul_nonneg (hdepth v hv) (by norm_num [feetPerMeter])
    · obtain ⟨v, hv, rfl⟩ := Option.map_eq_some_iff.mp hx
      exact mul_nonneg (hdepth v hv) (by norm_num [fathomsPerMeter])
  · exact ⟨hcourse, hknots, List.forall_mem_nil _⟩

theorem Snapshot.Clean.survives (hallowed : Allowed snap.slots) (h : snap.Clean) :
    Survives now snap := by
  have hreceived : Received snap
      ((generateAllSentences now snap).flatMap Sentence.pathValues) := received
  constructor
  · intro f hf
    obtain ⟨s, hs, hf⟩ := List.mem_flatMap.mp hf
    exact h.inRange hallowed hs f hf
  · simp only [Snapshot.slots, List.forall_mem_cons]
    refine ⟨readBack_of id ?_ fun x _ => Near.refl x, readBack_of id ?_ fun x _ => Near.refl x,
      readBack_of speedBack ?_ fun x _ => near_speed x,
      readBack_of angleBack ?_ fun x _ => (same_angle x).1,
      readBack_of angleBack ?_ fun x _ => (same_angle x).1,
      readBack_of angleBack ?_ fun x _ => (same_angle x).2,
      readBack_of angleBack ?_ fun x _ => (same_angle x).1,
      readBack_of speedBack ?_ fun x _ => near_speed x,
      readBack_of id ?_ fun x _ => Near.refl x, List.forall_mem_nil _⟩ <;> intro j
    · rw [hreceived.latitude]
      exact mem_echo_if (fun hsome => h.position ▸ hsome) j
    · rw [hreceived.longitude]
      exact mem_echo_if (fun hsome => h.position.symm ▸ hsome) j
    · rw [hreceived.sog, List.mem_append, or_self]
    · rw [hreceived.course, List.mem_append, or_self]
    · rw [hreceived.heading]
    · rw [hreceived.variation]
    · rw [hreceived.windAngle]
    · rw [hreceived.windSpeed]
      exact mem_echo_if h.wind j
    · rw [hreceived.depth]

end Nmea0183

namespace Nmea2000

variable {sid : UInt8} {snap : Snapshot}

theorem mem_messages {m : Message} : m ∈ messages snap sid ↔
    (∃ heading, snap.headingTrueRad = some heading ∧
      m = .vesselHeading ⟨some heading, some .trueNorth, snap.magneticVariationRad⟩) ∨
    (snap.cogTrueRad.isSome ∨ snap.sogMps.isSome) ∧
      m = .cogSogRapidUpdate ⟨some .trueNorth, snap.cogTrueRad, snap.sogMps⟩ ∨
    (snap.windSpeedApparentMps.isSome ∨ snap.windAngleApparentRad.isSome) ∧
      m = .windData ⟨snap.windSpeedApparentMps, snap.windAngleApparentRad, some .apparent⟩ := by
  obtain ⟨heading, variation, cog, sog, speed, angle⟩ := snap
  cases heading <;> cases cog <;> cases sog <;> cases speed <;> cases angle <;>
    simp [messages, buildPgns, DirectionReference.ofRaw, WindReference.ofRaw]

/-- The variation comes with the heading only. -/
theorem pathValues_eq : (messages snap sid).flatMap Message.pathValues =
    (if snap.headingTrueRad.isSome then
      PathValue.ofNumber "navigation.headingTrue" snap.headingTrueRad ++
        PathValue.ofNumber "navigation.magneticVariation" snap.magneticVariationRad else []) ++
    (PathValue.ofNumber "navigation.courseOverGroundTrue" snap.cogTrueRad ++
      PathValue.ofNumber "navigation.speedOverGround" snap.sogMps) ++
    (PathValue.ofNumber "environment.wind.speedApparent" snap.windSpeedApparentMps ++
      PathValue.ofNumber "environment.wind.angleApparent" snap.windAngleApparentRad) := by
  obtain ⟨heading, variation, cog, sog, speed, angle⟩ := snap
  cases heading <;> cases cog <;> cases sog <;> cases speed <;> cases angle <;>
    simp [messages, buildPgns, DirectionReference.ofRaw, WindReference.ofRaw, Message.pathValues,
      fromVesselHeading, fromCogSogRapid, fromWindData, windPaths, PathValue.ofNumber]

structure Received (snap : Snapshot) (out : List PathValue) : Prop where
  heading : found out "navigation.headingTrue" none = echo id snap.headingTrueRad
  variation : found out "navigation.magneticVariation" none =
    if snap.headingTrueRad.isSome then echo id snap.magneticVariationRad else []
  course : found out "navigation.courseOverGroundTrue" none = echo id snap.cogTrueRad
  sog : found out "navigation.speedOverGround" none = echo id snap.sogMps
  windSpeed : found out "environment.wind.speedApparent" none = echo id snap.windSpeedApparentMps
  windAngle : found out "environment.wind.angleApparent" none = echo id snap.windAngleApparentRad

attribute [local simp] found_append found_nil found_ofNumber echo

theorem received : Received snap ((messages snap sid).flatMap Message.pathValues) := by
  rw [pathValues_eq]
  constructor <;> cases snap.headingTrueRad <;> simp

theorem Survives.clean (h : Survives sid snap) : snap.Clean := by
  obtain ⟨hrange, hback⟩ := h
  have hsent : ∀ m ∈ messages snap sid, ∀ f ∈ m.fields, ∀ x, f.2 = some x →
      f.1.InRange Consts.tau x := fun m hm f hf => hrange f (List.mem_flatMap.mpr ⟨m, hm, hf⟩)
  have hreceived : Received snap ((messages snap sid).flatMap Message.pathValues) := received
  have hcarried : snap.magneticVariationRad.isSome → snap.headingTrueRad.isSome := by
    intro hvariation
    have hslot := hback ⟨"navigation.magneticVariation", none, .variation,
      snap.magneticVariationRad⟩ (by simp [Snapshot.slots])
    obtain ⟨x, hx⟩ := Option.isSome_iff_exists.mp hvariation
    by_contra hheading
    simp only [ReadBack, hx, hreceived.variation, if_neg hheading] at hslot
    exact hslot.1 rfl
  constructor
  · intro x hx
    exact (hsent _ (mem_messages.mpr (.inl ⟨x, hx, rfl⟩)) (.direction, some x)
      (by simp [Message.fields]) x rfl).1
  · intro x hx
    exact (hsent _ (mem_messages.mpr (.inr (.inl ⟨by simp [hx], rfl⟩)))
      (.direction, snap.cogTrueRad) (by simp [Message.fields]) x hx).1
  · intro x hx
    exact (hsent _ (mem_messages.mpr (.inr (.inr ⟨by simp [hx], rfl⟩)))
      (.direction, snap.windAngleApparentRad) (by simp [Message.fields]) x hx).1
  · intro x hx
    obtain ⟨heading, hheading⟩ := Option.isSome_iff_exists.mp (hcarried (by simp [hx]))
    have hhalf := hsent _ (mem_messages.mpr (.inl ⟨heading, hheading, rfl⟩))
      (.variation, snap.magneticVariationRad) (by simp [Message.fields]) x hx
    rwa [Kind.InRange, Consts.tau, mul_div_cancel_left₀ _ two_ne_zero] at hhalf
  · exact hcarried

theorem Snapshot.Clean.inRange (hallowed : Allowed snap.slots) (h : snap.Clean) {m : Message}
    (hm : m ∈ messages snap sid) :
    ∀ f ∈ m.fields, ∀ x, f.2 = some x → f.1.InRange Consts.tau x := by
  simp only [Allowed, Snapshot.slots, List.forall_mem_cons] at hallowed
  obtain ⟨hheading, -, hcourse, hsog, hspeed, hangle, -⟩ := hallowed
  rcases mem_messages.mp hm with ⟨heading, hx, rfl⟩ | ⟨-, rfl⟩ | ⟨-, rfl⟩ <;>
    simp only [Message.fields, List.forall_mem_cons]
  · refine ⟨fun x he => ?_, fun x hv => ?_, List.forall_mem_nil _⟩
    · cases he
      exact ⟨h.heading _ hx, lt_of_abs_lt (hheading _ hx)⟩
    · rw [Kind.InRange, Consts.tau, mul_div_cancel_left₀ _ two_ne_zero]
      exact h.variation x hv
  · exact ⟨fun x hx => ⟨h.course x hx, lt_of_abs_lt (hcourse x hx)⟩, hsog, List.forall_mem_nil _⟩
  · exact ⟨hspeed, fun x hx => ⟨h.windAngle x hx, lt_of_abs_lt (hangle x hx)⟩,
      List.forall_mem_nil _⟩

theorem Snapshot.Clean.survives (hallowed : Allowed snap.slots) (h : snap.Clean) :
    Survives sid snap := by
  have hreceived : Received snap ((messages snap sid).flatMap Message.pathValues) := received
  have hsame : ∀ x, ∃ k : ℤ, Near x (x + k * Consts.tau) := fun x =>
    ⟨0, by rw [Int.cast_zero, zero_mul, add_zero]; exact Near.refl x⟩
  constructor
  · intro f hf
    obtain ⟨m, hm, hf⟩ := List.mem_flatMap.mp hf
    exact h.inRange hallowed hm f hf
  · simp only [Snapshot.slots, List.forall_mem_cons]
    refine ⟨readBack_of id ?_ fun x _ => hsame x, readBack_of id ?_ fun x _ => hsame x,
      readBack_of id ?_ fun x _ => hsame x, readBack_of id ?_ fun x _ => Near.refl x,
      readBack_of id ?_ fun x _ => Near.refl x, readBack_of id ?_ fun x _ => hsame x,
      List.forall_mem_nil _⟩ <;> intro j
    · rw [hreceived.heading]
    · rw [hreceived.variation]
      exact mem_echo_if h.carried j
    · rw [hreceived.course]
    · rw [hreceived.sog]
    · rw [hreceived.windSpeed]
    · rw [hreceived.windAngle]

end Nmea2000

namespace Gateway

/-- Both gateways. -/
theorem gateways_iff (now : Calendar.Date × Nmea0183.NaiveTime) (sid : UInt8) :
    (∀ snap : Nmea0183.Snapshot, Allowed snap.slots →
      (Nmea0183.Survives now snap ↔ snap.Clean)) ∧
    ∀ snap : Nmea2000.Snapshot, Allowed snap.slots →
      (Nmea2000.Survives sid snap ↔ snap.Clean) :=
  ⟨fun _ h => ⟨Nmea0183.Survives.clean, fun hclean => hclean.survives h⟩,
    fun _ h => ⟨Nmea2000.Survives.clean, fun hclean => hclean.survives h⟩⟩

/-- All fields, everything ahead or to starboard. -/
theorem survives_full :
    Nmea0183.Survives (⟨2024, 6, 15⟩, ⟨720, 0⟩)
      ⟨some 54.5, some 10, some 5, some 1, some 1, some 0.05, some 0.5, some 8, some 20⟩ ∧
    Nmea2000.Survives 0 ⟨some 1, some 0.05, some 1, some 5, some 8, some 0.5⟩ := by
  constructor
  · refine ((gateways_iff _ 0).1 _ ?_).mpr ⟨?_, ?_, ?_, ?_, fun _ => rfl, rfl⟩
    · simp only [Allowed, Nmea0183.Snapshot.slots, List.forall_mem_cons]
      norm_num [Kind.Allowed, Consts.tau, Consts.pi, abs_le, abs_lt]
    all_goals norm_num [Nmea0183.Forward, toDegrees, Consts.pi, abs_le]
  · refine ((gateways_iff (⟨2024, 6, 15⟩, ⟨720, 0⟩) 0).2 _ ?_).mpr
      ⟨?_, ?_, ?_, ?_, fun _ => rfl⟩
    · simp only [Allowed, Nmea2000.Snapshot.slots, List.forall_mem_cons]
      norm_num [Kind.Allowed, Consts.tau, Consts.pi, abs_le, abs_lt]
    all_goals norm_num [Consts.pi, abs_le]

/-- Wind from port is a negative angle. -/
theorem port_wind_lost :
    (¬∀ now (snap : Nmea0183.Snapshot), Allowed snap.slots → Nmea0183.Survives now snap) ∧
    ¬∀ sid (snap : Nmea2000.Snapshot), Allowed snap.slots → Nmea2000.Survives sid snap := by
  constructor
  · intro h
    have hclean := (h (⟨2024, 6, 15⟩, ⟨720, 0⟩)
      ⟨none, none, none, none, none, none, some (-0.5), some 8, none⟩ (by
        simp only [Allowed, Nmea0183.Snapshot.slots, List.forall_mem_cons]
        simp [Kind.Allowed, abs_lt]
        norm_num [Consts.tau, Consts.pi])).clean
    have hforward := (hclean.windAngle (-0.5) rfl).1
    norm_num at hforward
  · intro h
    have hclean := (h 0 ⟨none, none, none, none, some 8, some (-0.5)⟩ (by
      simp only [Allowed, Nmea2000.Snapshot.slots, List.forall_mem_cons]
      simp [Kind.Allowed, abs_lt]
      norm_num [Consts.tau, Consts.pi])).clean
    have hforward := hclean.windAngle (-0.5) rfl
    norm_num at hforward

end Gateway

end SignalK

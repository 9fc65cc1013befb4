import SignalK.DerivedData.Calculator

/-! The calculators of navigation, wind and course. -/
namespace SignalK.DerivedData
variable [ExactMath]
open ExactMath

/-! Navigation -/

def headingTrue : Calculator where
  name := "headingTrue"
  inputs := ["navigation.headingMagnetic", "navigation.magneticVariation"]
  calculate _ values := do
    let headingMag ← number values "navigation.headingMagnetic"
    let variation ← number values "navigation.magneticVariation"
    let headingTrue := (headingMag + variation).remEuclid (2 * .finite pi)
    return [⟨"navigation.headingTrue", headingTrue.toJson⟩]

theorem headingTrue_fixed (iter : Iteration) :
    Fixed headingTrue.inputs ["navigation.headingTrue"] (headingTrue.calculate iter) :=
  .number 0 rfl fun _ => .number 1 rfl fun _ => .all rfl

def courseOverGroundMagnetic : Calculator where
  name := "courseOverGroundMagnetic"
  inputs := ["navigation.courseOverGroundTrue", "navigation.magneticVariation"]
  calculate _ values := do
    let cogTrue ← number values "navigation.courseOverGroundTrue"
    let variation ← number values "navigation.magneticVariation"
    let cogMag := (cogTrue - variation).remEuclid (2 * .finite pi)
    return [⟨"navigation.courseOverGroundMagnetic", cogMag.toJson⟩]

theorem courseOverGroundMagnetic_fixed (iter : Iteration) :
    Fixed courseOverGroundMagnetic.inputs
      ["navigation.courseOverGroundMagnetic"]
      (courseOverGroundMagnetic.calculate iter) :=
  .number 0 rfl fun _ => .number 1 rfl fun _ => .all rfl

def courseOverGroundTrue : Calculator where
  name := "courseOverGroundTrue"
  inputs := ["navigation.courseOverGroundMagnetic", "navigation.magneticVariation"]
  calculate _ values := do
    let cogMag ← number values "navigation.courseOverGroundMagnetic"
    let variation ← number values "navigation.magneticVariation"
    let cogTrue := normalizeAngle (cogMag + variation)
    return [⟨"navigation.courseOverGroundTrue", cogTrue.toJson⟩]

theorem courseOverGroundTrue_fixed (iter : Iteration) :
    Fixed courseOverGroundTrue.inputs
      ["navigation.courseOverGroundTrue"]
      (courseOverGroundTrue.calculate iter) :=
  .number 0 rfl fun _ => .number 1 rfl fun _ => .all rfl

def leewayAngle : Calculator where
  name := "leewayAngle"
  inputs := ["navigation.headingTrue", "navigation.courseOverGroundTrue"]
  calculate _ values := do
    let headingTrue ← number values "navigation.headingTrue"
    let cogTrue ← number values "navigation.courseOverGroundTrue"
    let leeway := signedAngle (headingTrue - cogTrue)
    return [⟨"navigation.leewayAngle", leeway.toJson⟩]

theorem leewayAngle_fixed (iter : Iteration) :
    Fixed leewayAngle.inputs ["navigation.leewayAngle"] (leewayAngle.calculate iter) :=
  .number 0 rfl fun _ => .number 1 rfl fun _ => .all rfl

def leeway : Calculator where
  name := "leeway"
  inputs := ["navigation.attitude", "navigation.speedThroughWater"]
  calculate _ values := do
    let attitude ← values.lookup "navigation.attitude"
    let roll ← numberField attitude "roll"
    let stw ← number values "navigation.speedThroughWater"
    guard ¬stw < 0.5
    let leeway := 10 * roll / (stw * stw)
    return [⟨"navigation.leewayAngleHeel", leeway.toJson⟩]

omit [ExactMath] in
theorem leeway_fixed (iter : Iteration) :
    Fixed leeway.inputs ["navigation.leewayAngleHeel"] (leeway.calculate iter) :=
  .lookup 0 rfl fun _ => .step fun _ => .number 1 rfl fun _ => .step fun _ => .all rfl

def setDrift : Calculator where
  name := "setDrift"
  inputs := [
    "navigation.headingMagnetic",
    "navigation.courseOverGroundTrue",
    "navigation.speedThroughWater",
    "navigation.speedOverGround",
    "navigation.magneticVariation"]
  calculate _ values := do
    let headingMag ← number values "navigation.headingMagnetic"
    let cogTrue ← number values "navigation.courseOverGroundTrue"
    let stw ← number values "navigation.speedThroughWater"
    let sog ← number values "navigation.speedOverGround"
    let variation ← number values "navigation.magneticVariation"
    guard (headingMag.isFinite ∧ cogTrue.isFinite ∧ stw.isFinite ∧ sog.isFinite ∧
      variation.isFinite)
    if sog.abs < 1e-9 ∧ stw.abs < 1e-9 then
      return [
        ⟨"environment.current.drift", (0 : F64).toJson⟩,
        ⟨"environment.current.setTrue", (0 : F64).toJson⟩,
        ⟨"environment.current.setMagnetic", (0 : F64).toJson⟩]
    else
      let delta := cogTrue - headingMag
      let drift := sqrt ((sog * sog + stw * stw - 2 * stw * sog * cos delta).max 0)
      let setMagnetic :=
        normalizeAngle (atan2 (sog * sin delta) (stw - sog * cos delta) + .finite pi)
      let setTrue := normalizeAngle (setMagnetic + variation)
      let results : List PathValue := [
        ⟨"environment.current.drift", drift.toJson⟩,
        ⟨"environment.current.setTrue", setTrue.toJson⟩,
        ⟨"environment.current.setMagnetic", setMagnetic.toJson⟩]
      -- no impact is given for a boat that lies still in the water
      if 0.01 < stw then
        return results ++ [⟨"environment.current.driftImpact", (drift / stw).toJson⟩]
      else
        return results

theorem setDrift_fixed (iter : Iteration) :
    Fixed setDrift.inputs [
        "environment.current.drift",
        "environment.current.setTrue",
        "environment.current.setMagnetic",
        "environment.current.driftImpact"]
      (setDrift.calculate iter) := by
  have hthree : ∀ a b c d : String, [a, b, c].Sublist [a, b, c, d] :=
    fun a b c d => List.sublist_append_left [a, b, c] [d]
  refine .number 0 rfl fun _ => .number 1 rfl fun _ => .number 2 rfl fun _ => ?_
  refine .number 3 rfl fun _ => .number 4 rfl fun _ => .step fun _ => ?_
  refine .ite (.some (hthree _ _ _ _)) (.ite (.all rfl) (.some (hthree _ _ _ _)))

/-! Wind -/

def trueWind : Calculator where
  name := "trueWind"
  inputs := [
    "navigation.headingTrue",
    "navigation.speedThroughWater",
    "environment.wind.speedApparent",
    "environment.wind.angleApparent"]
  calculate _ values := do
    let headingTrue ← number values "navigation.headingTrue"
    let stw ← number values "navigation.speedThroughWater"
    let aws ← number values "environment.wind.speedApparent"
    let awa ← number values "environment.wind.angleApparent"
    guard (headingTrue.isFinite ∧ stw.isFinite ∧ aws.isFinite ∧ awa.isFinite)
    let apparentX := cos awa * aws
    let apparentY := sin awa * aws
    let angle := if aws < 1e-9 then awa else atan2 apparentY (-stw + apparentX)
    let speed :=
      sqrt (apparentY * apparentY + (-stw + apparentX) * (-stw + apparentX))
    let direction := normalizeAngle (headingTrue + angle)
    return [
      ⟨"environment.wind.directionTrue", direction.toJson⟩,
      ⟨"environment.wind.angleTrueWater", angle.toJson⟩,
      ⟨"environment.wind.speedTrue", speed.toJson⟩]

theorem trueWind_fixed (iter : Iteration) :
    Fixed trueWind.inputs [
        "environment.wind.directionTrue",
        "environment.wind.angleTrueWater",
        "environment.wind.speedTrue"]
      (trueWind.calculate iter) :=
  .number 0 rfl fun _ => .number 1 rfl fun _ => .number 2 rfl fun _ => .number 3 rfl fun _ =>
    .step fun _ => .all rfl

def vmgWind : Calculator where
  name := "vmgWind"
  inputs := ["environment.wind.angleTrueWater", "navigation.speedOverGround"]
  calculate _ values := do
    let twa ← number values "environment.wind.angleTrueWater"
    let sog ← number values "navigation.speedOverGround"
    guard (twa.isFinite ∧ sog.isFinite)
    let vmg := cos twa * sog
    return [⟨"performance.velocityMadeGood", vmg.toJson⟩]

theorem vmgWind_fixed (iter : Iteration) :
    Fixed vmgWind.inputs ["performance.velocityMadeGood"] (vmgWind.calculate iter) :=
  .number 0 rfl fun _ => .number 1 rfl fun _ => .step fun _ => .all rfl

def vmgStw : Calculator where
  name := "vmgStw"
  inputs := ["environment.wind.angleTrueWater", "navigation.speedThroughWater"]
  calculate _ values := do
    let angle ← number values "environment.wind.angleTrueWater"
    let stw ← number values "navigation.speedThroughWater"
    let vmg := stw * cos angle
    return [⟨"performance.velocityMadeGoodWater", vmg.toJson⟩]

theorem vmgStw_fixed (iter : Iteration) :
    Fixed vmgStw.inputs ["performance.velocityMadeGoodWater"] (vmgStw.calculate iter) :=
  .number 0 rfl fun _ => .number 1 rfl fun _ => .all rfl

def windDirectionMagnetic : Calculator where
  name := "windDirectionMagnetic"
  inputs := ["environment.wind.directionTrue", "navigation.magneticVariation"]
  calculate _ values := do
    let dirTrue ← number values "environment.wind.directionTrue"
    let variation ← number values "navigation.magneticVariation"
    let dirMag := normalizeAngle (dirTrue - variation)
    return [⟨"environment.wind.directionMagnetic", dirMag.toJson⟩]

theorem windDirectionMagnetic_fixed (iter : Iteration) :
    Fixed windDirectionMagnetic.inputs
      ["environment.wind.directionMagnetic"]
      (windDirectionMagnetic.calculate iter) :=
  .number 0 rfl fun _ => .number 1 rfl fun _ => .all rfl

def windDirectionMagnetic2 : Calculator where
  name := "windDirectionMagnetic2"
  inputs := ["navigation.headingMagnetic", "environment.wind.angleApparent"]
  calculate _ values := do
    let heading ← number values "navigation.headingMagnetic"
    let angleApparent ← number values "environment.wind.angleApparent"
    let dirMag := normalizeAngle (heading + angleApparent)
    return [⟨"environment.wind.directionMagneticApparent", dirMag.toJson⟩]

theorem windDirectionMagnetic2_fixed (iter : Iteration) :
    Fixed windDirectionMagnetic2.inputs
      ["environment.wind.directionMagneticApparent"]
      (windDirectionMagnetic2.calculate iter) :=
  .number 0 rfl fun _ => .number 1 rfl fun _ => .all rfl

def windGround : Calculator where
  name := "windGround"
  inputs := [
    "environment.wind.speedApparent",
    "environment.wind.angleApparent",
    "navigation.speedOverGround"]
  calculate _ values := do
    let aws ← number values "environment.wind.speedApparent"
    let awa ← number values "environment.wind.angleApparent"
    let sog ← number values "navigation.speedOverGround"
    let u := aws * cos awa - sog
    let v := aws * sin awa
    let tws := sqrt (u * u + v * v)
    let twa := atan2 v u
    return [
      ⟨"environment.wind.angleTrueGround", twa.toJson⟩,
      ⟨"environment.wind.speedOverGround", tws.toJson⟩]

theorem windGround_fixed (iter : Iteration) :
    Fixed windGround.inputs
      ["environment.wind.angleTrueGround", "environment.wind.speedOverGround"]
      (windGround.calculate iter) :=
  .number 0 rfl fun _ => .number 1 rfl fun _ => .number 2 rfl fun _ => .all rfl

def windGroundDirection : Calculator where
  name := "windGroundDirection"
  inputs := ["navigation.headingTrue", "environment.wind.angleTrueGround"]
  calculate _ values := do
    let heading ← number values "navigation.headingTrue"
    let angle ← number values "environment.wind.angleTrueGround"
    let direction := normalizeAngle (heading + angle)
    return [⟨"environment.wind.directionGround", direction.toJson⟩]

theorem windGroundDirection_fixed (iter : Iteration) :
    Fixed windGroundDirection.inputs
      ["environment.wind.directionGround"]
      (windGroundDirection.calculate iter) :=
  .number 0 rfl fun _ => .number 1 rfl fun _ => .all rfl

/-! Course -/

def courseBearing : Calculator where
  name := "courseBearing"
  inputs := ["navigation.position", "navigation.course.nextPoint.position"]
  calculate _ values := do
    let pos ← values.lookup "navigation.position"
    let next ← values.lookup "navigation.course.nextPoint.position"
    let lat1 ← numberField pos "latitude"
    let lon1 ← numberField pos "longitude"
    let lat2 ← numberField next "latitude"
    let lon2 ← numberField next "longitude"
    let bearing := Geo.initialBearing lat1 lon1 lat2 lon2
    return [⟨"navigation.course.calcValues.bearingTrackTrue", bearing.toJson⟩]

theorem courseBearing_fixed (iter : Iteration) :
    Fixed courseBearing.inputs
      ["navigation.course.calcValues.bearingTrackTrue"]
      (courseBearing.calculate iter) :=
  .lookup 0 rfl fun _ => .lookup 1 rfl fun _ => .step fun _ => .step fun _ => .step fun _ =>
    .step fun _ => .all rfl

def bearingMagnetic : Calculator where
  name := "bearingMagnetic"
  inputs := ["navigation.course.calcValues.bearingTrackTrue", "navigation.magneticVariation"]
  calculate _ values := do
    let bearingTrue ← number values "navigation.course.calcValues.bearingTrackTrue"
    let variation ← number values "navigation.magneticVariation"
    guard (bearingTrue.isFinite ∧ variation.isFinite)
    let bearingMag := normalizeAngle (bearingTrue - variation)
    return [⟨"navigation.course.calcValues.bearingTrackMagnetic", bearingMag.toJson⟩]

theorem bearingMagnetic_fixed (iter : Iteration) :
    Fixed bearingMagnetic.inputs
      ["navigation.course.calcValues.bearingTrackMagnetic"]
      (bearingMagnetic.calculate iter) :=
  .number 0 rfl fun _ => .number 1 rfl fun _ => .step fun _ => .all rfl

def courseDistance : Calculator where
  name := "courseDistance"
  inputs := ["navigation.position", "navigation.course.nextPoint.position"]
  calculate _ values := do
    let pos ← values.lookup "navigation.position"
    let next ← values.lookup "navigation.course.nextPoint.position"
    let lat1 ← numberField pos "latitude"
    let lon1 ← numberField pos "longitude"
    let lat2 ← numberField next "latitude"
    let lon2 ← numberField next "longitude"
    let distance := Geo.haversineMeters lat1 lon1 lat2 lon2
    return [⟨"navigation.course.calcValues.nextPoint.distance", distance.toJson⟩]

theorem courseDistance_fixed (iter : Iteration) :
    Fixed courseDistance.inputs
      ["navigation.course.calcValues.nextPoint.distance"]
      (courseDistance.calculate iter) :=
  .lookup 0 rfl fun _ => .lookup 1 rfl fun _ => .step fun _ => .step fun _ => .step fun _ =>
    .step fun _ => .all rfl

def previousPointDistance : Calculator where
  name := "previousPointDistance"
  inputs := ["navigation.position", "navigation.course.previousPoint.position"]
  calculate _ values := do
    let pos ← values.lookup "navigation.position"
    let prev ← values.lookup "navigation.course.previousPoint.position"
    let lat1 ← numberField pos "latitude"
    let lon1 ← numberField pos "longitude"
    let lat2 ← numberField prev "latitude"
    let lon2 ← numberField prev "longitude"
    let distance := Geo.haversineMeters lat1 lon1 lat2 lon2
    return [⟨"navigation.course.calcValues.previousPoint.distance", distance.toJson⟩]

theorem previousPointDistance_fixed (iter : Iteration) :
    Fixed previousPointDistance.inputs
      ["navigation.course.calcValues.previousPoint.distance"]
      (previousPointDistance.calculate iter) :=
  .lookup 0 rfl fun _ => .lookup 1 rfl fun _ => .step fun _ => .step fun _ => .step fun _ =>
    .step fun _ => .all rfl

def courseXte : Calculator where
  name := "courseXte"
  inputs := [
    "navigation.position",
    "navigation.course.nextPoint.position",
    "navigation.course.previousPoint.position"]
  calculate _ values := do
    let pos ← values.lookup "navigation.position"
    let next ← values.lookup "navigation.course.nextPoint.position"
    let prev ← values.lookup "navigation.course.previousPoint.position"
    let lat ← numberField pos "latitude"
    let lon ← numberField pos "longitude"
    let nextLat ← numberField next "latitude"
    let nextLon ← numberField next "longitude"
    let prevLat ← numberField prev "latitude"
    let prevLon ← numberField prev "longitude"
    let xte := Geo.crossTrackError (lat, lon) (prevLat, prevLon) (nextLat, nextLon)
    return [⟨"navigation.course.calcValues.crossTrackError", xte.toJson⟩]

theorem courseXte_fixed (iter : Iteration) :
    Fixed courseXte.inputs
      ["navigation.course.calcValues.crossTrackError"]
      (courseXte.calculate iter) :=
  .lookup 0 rfl fun _ => .lookup 1 rfl fun _ => .lookup 2 rfl fun _ => .step fun _ =>
    .step fun _ => .step fun _ => .step fun _ => .step fun _ => .step fun _ => .all rfl

def vmgWaypoint : Calculator where
  name := "vmgWaypoint"
  inputs := [
    "navigation.speedOverGround",
    "navigation.courseOverGroundTrue",
    "navigation.course.calcValues.bearingTrackTrue"]
  calculate _ values := do
    let sog ← number values "navigation.speedOverGround"
    let cog ← number values "navigation.courseOverGroundTrue"
    let bearing ← number values "navigation.course.calcValues.bearingTrackTrue"
    guard (sog.isFinite ∧ cog.isFinite ∧ bearing.isFinite)
    let vmg := sog * cos (cog - bearing)
    return [⟨"navigation.course.calcValues.nextPoint.velocityMadeGood", vmg.toJson⟩]

theorem vmgWaypoint_fixed (iter : Iteration) :
    Fixed vmgWaypoint.inputs
      ["navigation.course.calcValues.nextPoint.velocityMadeGood"]
      (vmgWaypoint.calculate iter) :=
  .number 0 rfl fun _ => .number 1 rfl fun _ => .number 2 rfl fun _ => .step fun _ => .all rfl

def eta : Calculator where
  name := "eta"
  inputs := [
    "navigation.course.calcValues.nextPoint.distance",
    "navigation.course.calcValues.nextPoint.velocityMadeGood"]
  calculate _ values := do
    let distance ← number values "navigation.course.calcValues.nextPoint.distance"
    let vmg ← number values "navigation.course.calcValues.nextPoint.velocityMadeGood"
    guard ¬(vmg ≤ 0.1 ∨ distance < 0)
    let etaSeconds := distance / vmg
    return [⟨"navigation.course.calcValues.nextPoint.estimatedTimeOfArrival", etaSeconds.toJson⟩]

omit [ExactMath] in
theorem eta_fixed (iter : Iteration) :
    Fixed eta.inputs
      ["navigation.course.calcValues.nextPoint.estimatedTimeOfArrival"]
      (eta.calculate iter) :=
  .number 0 rfl fun _ => .number 1 rfl fun _ => .step fun _ => .all rfl

def steerError : Calculator where
  name := "steerError"
  inputs := ["navigation.courseOverGroundTrue", "navigation.course.calcValues.bearingTrackTrue"]
  calculate _ values := do
    let cog ← number values "navigation.courseOverGroundTrue"
    let bearing ← number values "navigation.course.calcValues.bearingTrackTrue"
    let error := signedAngle (cog - bearing)
    return [⟨"navigation.course.steerError", error.toJson⟩]

theorem steerError_fixed (iter : Iteration) :
    Fixed steerError.inputs ["navigation.course.steerError"] (steerError.calculate iter) :=
  .number 0 rfl fun _ => .number 1 rfl fun _ => .all rfl

end SignalK.DerivedData

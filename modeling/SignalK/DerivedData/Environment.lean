import SignalK.DerivedData.Calculator
import SignalK.Lib.Rfc3339

/-! The calculators of the environment, of sun and moon, and of propulsion and energy. -/
namespace SignalK.DerivedData
variable [ExactMath]
open ExactMath

/-! Environment -/

def rDryAir : F64 := 287.058
def rVapor : F64 := 461.495
def kelvinOffset : F64 := 273.15

def airDensity : Calculator where
  name := "airDensity"
  inputs := [
    "environment.outside.temperature",
    "environment.outside.pressure",
    "environment.outside.humidity"]
  calculate _ values := do
    let temperatureK ← number values "environment.outside.temperature"
    let pressurePa ← number values "environment.outside.pressure"
    guard ¬(¬temperatureK.isFinite ∨ ¬pressurePa.isFinite ∨ temperatureK ≤ 0 ∨ pressurePa ≤ 0)
    let dry := pressurePa / (rDryAir * temperatureK)
    let density :=
      match number values "environment.outside.humidity" with
      | some humidity =>
        if humidity.isFinite ∧ 0 < humidity ∧ humidity ≤ 1 then
          let tempC := temperatureK - kelvinOffset
          let ps := 611.21 * exp ((18.678 - tempC / 234.5) * tempC / (257.14 + tempC))
          let pv := humidity * ps
          let pd := pressurePa - pv
          pd / (rDryAir * temperatureK) + pv / (rVapor * temperatureK)
        else dry
      | none => dry
    return [⟨"environment.outside.airDensity", density.toJson⟩]

theorem airDensity_fixed (iter : Iteration) :
    Fixed airDensity.inputs ["environment.outside.airDensity"] (airDensity.calculate iter) := by
  refine .number 0 rfl fun _ => .number 1 rfl fun _ => .step fun _ => ?_
  apply Fixed.result
  · intro m m' h
    have he : m.lookup "environment.outside.humidity" = m'.lookup "environment.outside.humidity" :=
      h _ (List.mem_of_getElem? (i := 2) rfl)
    simp only [number, he]
  · exact fun _ => rfl

def dewPoint : Calculator where
  name := "dewPoint"
  inputs := ["environment.outside.temperature", "environment.outside.humidity"]
  calculate _ values := do
    let tempK ← number values "environment.outside.temperature"
    let humidity ← number values "environment.outside.humidity"
    guard ¬(¬humidity.isFinite ∨ ¬tempK.isFinite ∨ humidity ≤ 0 ∨ 1 < humidity ∨ tempK ≤ 0)
    let tempC := tempK - kelvinOffset
    let gamma := ln humidity + 17.67 * tempC / (243.5 + tempC)
    let dewPointC := 243.5 * gamma / (17.67 - gamma)
    let dewPointK := dewPointC + kelvinOffset
    return [⟨"environment.outside.dewPointTemperature", dewPointK.toJson⟩]

theorem dewPoint_fixed (iter : Iteration) :
    Fixed dewPoint.inputs ["environment.outside.dewPointTemperature"] (dewPoint.calculate iter) :=
  .number 0 rfl fun _ => .number 1 rfl fun _ => .step fun _ => .all rfl

/-- The regression over temperature in degrees Fahrenheit and humidity in percent. -/
def rothfusz (t r : F64) : F64 :=
  let hi := -42.379 + 2.04901523 * t + 10.14333127 * r - 0.22475541 * t * r -
    6.83783e-3 * t * t - 5.481717e-2 * r * r + 1.22874e-3 * t * t * r +
    8.5282e-4 * t * r * r - 1.99e-6 * t * t * r * r
  let hi :=
    if r < 13 ∧ 80 ≤ t ∧ t ≤ 112 then
      hi - (13 - r) / 4 * sqrt ((17 - (t - 95).abs) / 17)
    else hi
  if 85 < r ∧ 80 ≤ t ∧ t ≤ 87 then hi + (r - 85) / 10 * ((87 - t) / 5) else hi

def heatIndex : Calculator where
  name := "heatIndex"
  inputs := ["environment.outside.temperature", "environment.outside.humidity"]
  calculate _ values := do
    let tempK ← number values "environment.outside.temperature"
    let humidity ← number values "environment.outside.humidity"
    guard ¬(¬tempK.isFinite ∨ ¬humidity.isFinite ∨ tempK ≤ 0 ∨ ¬(0 ≤ humidity ∧ humidity ≤ 1))
    let tempC := tempK - kelvinOffset
    let tempF := tempC * 9 / 5 + 32
    let rh := humidity * 100
    let hiSimple := 0.5 * (tempF + 61 + (tempF - 68) * 1.2 + rh * 0.094)
    let hiF := if 80 ≤ hiSimple then rothfusz tempF rh else hiSimple
    let hiC := (hiF - 32) * 5 / 9
    let hiK := hiC + kelvinOffset
    return [⟨"environment.outside.heatIndexTemperature", hiK.toJson⟩]

theorem heatIndex_fixed (iter : Iteration) :
    Fixed heatIndex.inputs
      ["environment.outside.heatIndexTemperature"]
      (heatIndex.calculate iter) :=
  .number 0 rfl fun _ => .number 1 rfl fun _ => .step fun _ => .all rfl

def windChill : Calculator where
  name := "windChill"
  inputs := ["environment.outside.temperature", "environment.wind.speedApparent"]
  calculate _ values := do
    let tempK ← number values "environment.outside.temperature"
    let windMs ← number values "environment.wind.speedApparent"
    guard ¬(tempK ≤ 0 ∨ windMs < 0)
    let tempC := tempK - kelvinOffset
    let windKmh := windMs * 3.6
    let wcC :=
      if tempC ≤ 10 ∧ 4.8 ≤ windKmh then
        let v016 := powf windKmh 0.16
        13.12 + 0.6215 * tempC - 11.37 * v016 + 0.3965 * tempC * v016
      else tempC
    let wcK := wcC + kelvinOffset
    return [⟨"environment.outside.apparentWindChillTemperature", wcK.toJson⟩]

theorem windChill_fixed (iter : Iteration) :
    Fixed windChill.inputs
      ["environment.outside.apparentWindChillTemperature"]
      (windChill.calculate iter) :=
  .number 0 rfl fun _ => .number 1 rfl fun _ => .step fun _ => .all rfl

def depthBelowKeel : Calculator where
  name := "depthBelowKeel"
  inputs := ["environment.depth.belowTransducer", "environment.depth.transducerToKeel"]
  calculate _ values := do
    let belowTransducer ← number values "environment.depth.belowTransducer"
    let transducerToKeel := (number values "environment.depth.transducerToKeel").getD 0
    let belowKeel := belowTransducer - transducerToKeel
    return [⟨"environment.depth.belowKeel", belowKeel.toJson⟩]

omit [ExactMath] in
theorem depthBelowKeel_fixed (iter : Iteration) :
    Fixed depthBelowKeel.inputs ["environment.depth.belowKeel"]
      (depthBelowKeel.calculate iter) := by
  refine .number 0 rfl fun _ => ?_
  apply Fixed.result
  · intro m m' h
    have he : m.lookup "environment.depth.transducerToKeel" =
        m'.lookup "environment.depth.transducerToKeel" :=
      h _ (List.mem_of_getElem? (i := 1) rfl)
    simp only [number, he]
  · exact fun _ => rfl

def depthBelowSurface : Calculator where
  name := "depthBelowSurface"
  inputs := ["environment.depth.belowKeel", "design.draft.value.current"]
  calculate _ values := do
    let belowKeel ← number values "environment.depth.belowKeel"
    let draft ← number values "design.draft.value.current"
    guard ¬(belowKeel < 0 ∨ draft < 0)
    let belowSurface := belowKeel + draft
    return [⟨"environment.depth.belowSurface", belowSurface.toJson⟩]

omit [ExactMath] in
theorem depthBelowSurface_fixed (iter : Iteration) :
    Fixed depthBelowSurface.inputs
      ["environment.depth.belowSurface"]
      (depthBelowSurface.calculate iter) :=
  .number 0 rfl fun _ => .number 1 rfl fun _ => .step fun _ => .all rfl

def transducerToKeel : Calculator where
  name := "transducerToKeel"
  inputs := [
    "environment.depth.belowTransducer",
    "environment.depth.surfaceToTransducer",
    "design.draft.value.current"]
  calculate _ values := do
    let belowTransducer ← number values "environment.depth.belowTransducer"
    let surfaceToTransducer ← number values "environment.depth.surfaceToTransducer"
    let draft ← number values "design.draft.value.current"
    let transducerToKeel := draft - surfaceToTransducer
    let belowKeel := belowTransducer - transducerToKeel
    return [
      ⟨"environment.depth.transducerToKeel", transducerToKeel.toJson⟩,
      ⟨"environment.depth.belowKeel", belowKeel.toJson⟩]

omit [ExactMath] in
theorem transducerToKeel_fixed (iter : Iteration) :
    Fixed transducerToKeel.inputs
      ["environment.depth.transducerToKeel", "environment.depth.belowKeel"]
      (transducerToKeel.calculate iter) :=
  .number 0 rfl fun _ => .number 1 rfl fun _ => .number 2 rfl fun _ => .all rfl

/-! Sun and moon. The crates that know where they stand are left open. -/

inductive SunPhase where
  | sunrise
  | sunset
  | dawn
  | dusk

structure MoonPhase where
  phase : F64
  fraction : F64
  age : F64
  phaseName : String

/-- Instants are milliseconds since the epoch. -/
class Ephemeris where
  /-- azimuth and altitude -/
  sunPos : Int → F64 → F64 → F64 × F64
  timeAtPhase : Int → SunPhase → F64 → F64 → F64 → Int
  moonPhase : Int → MoonPhase

/-- For runs in which nobody asks. -/
@[reducible] def Ephemeris.unused : Ephemeris where
  sunPos _ _ _ := (.nan, .nan)
  timeAtPhase _ _ _ _ _ := 0
  moonPhase _ := { phase := .nan, fraction := .nan, age := .nan, phaseName := "" }

variable [Ephemeris]
open Rfc3339

/-- The start of 1970 in minutes since the start of year 0. -/
def epochMinutes : Int := Instant.minutes (startOfYear 1970)

/-- `timestamp_millis`; a leap second counts from the one before it. -/
def timestampMillis (t : Int) : Int :=
  (Instant.minutes t - epochMinutes) * 60000 + t % minute / 1000000

def parseIso8601ToUnixMs (s : String) : Option Int :=
  (parse s).map fun dt => timestampMillis dt.instant

/-- `from_timestamp_millis`, which is the epoch where it has no such year. -/
def fromTimestampMillis (ms : Int) : Int :=
  let t := (ms / 60000 + epochMinutes) * minute + ms % 60000 * 1000000
  if startOfYear (-262143) ≤ t ∧ t < startOfYear 262143 then t else startOfYear 1970

def unixMsToIso8601 (ms : Int) : String :=
  let t := fromTimestampMillis ms
  String.ofList (dateText (Calendar.date (Instant.day t)) ++ 'T' :: clockText t ++
    '.' :: Digits.digits 3 (Instant.nano t / 1000000) ++ ['Z'])

def suncalc : Calculator where
  name := "suncalc"
  inputs := ["navigation.position", "navigation.datetime"]
  calculate _ values := do
    let position ← values.lookup "navigation.position"
    let lat ← numberField position "latitude"
    let lon ← numberField position "longitude"
    let datetimeStr ← (values.lookup "navigation.datetime").bind Json.asStr
    let unixMs ← parseIso8601ToUnixMs datetimeStr
    let pos := Ephemeris.sunPos unixMs lat lon
    return [
      ⟨"environment.sunlight.azimuth", pos.1.toJson⟩,
      ⟨"environment.sunlight.altitude", pos.2.toJson⟩]

omit [ExactMath] in
theorem suncalc_fixed (iter : Iteration) :
    Fixed suncalc.inputs
      ["environment.sunlight.azimuth", "environment.sunlight.altitude"]
      (suncalc.calculate iter) :=
  .lookup 0 rfl fun _ => .step fun _ => .step fun _ => .text 1 rfl fun _ => .step fun _ =>
    .all rfl

def suntime : Calculator where
  name := "suntime"
  inputs := ["navigation.position", "navigation.datetime"]
  calculate _ values := do
    let position ← values.lookup "navigation.position"
    let lat ← numberField position "latitude"
    let lon ← numberField position "longitude"
    let datetimeStr ← (values.lookup "navigation.datetime").bind Json.asStr
    let unixMs ← parseIso8601ToUnixMs datetimeStr
    let sunriseMs := Ephemeris.timeAtPhase unixMs .sunrise lat lon 0
    let sunsetMs := Ephemeris.timeAtPhase unixMs .sunset lat lon 0
    let dawnMs := Ephemeris.timeAtPhase unixMs .dawn lat lon 0
    let duskMs := Ephemeris.timeAtPhase unixMs .dusk lat lon 0
    return [
      ⟨"environment.sunlight.times.sunrise", .string (unixMsToIso8601 sunriseMs)⟩,
      ⟨"environment.sunlight.times.sunset", .string (unixMsToIso8601 sunsetMs)⟩,
      ⟨"environment.sunlight.times.dawn", .string (unixMsToIso8601 dawnMs)⟩,
      ⟨"environment.sunlight.times.dusk", .string (unixMsToIso8601 duskMs)⟩]

omit [ExactMath] in
theorem suntime_fixed (iter : Iteration) :
    Fixed suntime.inputs [
        "environment.sunlight.times.sunrise",
        "environment.sunlight.times.sunset",
        "environment.sunlight.times.dawn",
        "environment.sunlight.times.dusk"]
      (suntime.calculate iter) :=
  .lookup 0 rfl fun _ => .step fun _ => .step fun _ => .text 1 rfl fun _ => .step fun _ =>
    .all rfl

def moon : Calculator where
  name := "moon"
  inputs := ["navigation.datetime"]
  calculate _ values := do
    let datetimeStr ← (values.lookup "navigation.datetime").bind Json.asStr
    let unixMs ← parseIso8601ToUnixMs datetimeStr
    guard (0 ≤ unixMs)
    let mp := Ephemeris.moonPhase unixMs
    return [
      ⟨"environment.moon.phase", mp.phase.toJson⟩,
      ⟨"environment.moon.illumination", mp.fraction.toJson⟩,
      ⟨"environment.moon.age", mp.age.toJson⟩,
      ⟨"environment.moon.phaseName", .string mp.phaseName⟩]

omit [ExactMath] in
theorem moon_fixed (iter : Iteration) :
    Fixed moon.inputs [
        "environment.moon.phase",
        "environment.moon.illumination",
        "environment.moon.age",
        "environment.moon.phaseName"]
      (moon.calculate iter) :=
  .text 0 rfl fun _ => .step fun _ => .step fun _ => .all rfl

/-! Propulsion and energy: one result for each battery, engine or tank of the snapshot. -/

def batteryPower : Calculator where
  name := "batteryPower"
  inputs := ["electrical.batteries"]
  calculate iter values :=
    forInstances iter values ".voltage" "electrical.batteries." fun pre _ => do
      let voltage ← number values (pre ++ ".voltage")
      let current ← number values (pre ++ ".current")
      return ⟨pre ++ ".power", (voltage * current).toJson⟩

omit [ExactMath] [Ephemeris] in
theorem batteryPower_sound :
    Sound batteryPower.Reads (InstancePath "electrical.batteries." ".power")
      batteryPower.calculate := by
  have hreads : ∀ suffix ∈ [".voltage", ".current"], ∀ pre,
      Text.startsWith pre "electrical.batteries." = true → batteryPower.Reads (pre ++ suffix) := by
    intro suffix hs pre hpre
    have hmem : suffix ∈ instanceInputs :=
      (List.sublist_append_left [".voltage", ".current"] _).subset hs
    exact Calculator.reads_instance (.head _) ⟨_, .head _, rfl⟩ hmem hpre
  dsimp only [batteryPower]
  apply Sound.walk
  · exact hreads ".voltage" (.head _)
  · intro m pre j pv h
    simp only [bind, Option.bind_eq_some_iff] at h
    obtain ⟨voltage, -, current, -, h⟩ := h
    cases h
    rfl
  · intro m m' pre j hpre hagree
    rw [Calculator.number_eq hagree (hreads ".voltage" (.head _) pre hpre),
      Calculator.number_eq hagree (hreads ".current" (.tail _ (.head _)) pre hpre)]

def propState : Calculator where
  name := "propState"
  inputs := ["propulsion"]
  calculate iter values :=
    forInstances iter values ".revolutions" "propulsion." fun pre value => do
      let rpm ← value.asDouble
      let state := if 0 < rpm then "started" else "stopped"
      return ⟨pre ++ ".state.value", .string state⟩

omit [ExactMath] [Ephemeris] in
theorem propState_sound :
    Sound propState.Reads (InstancePath "propulsion." ".state.value") propState.calculate := by
  dsimp only [propState]
  apply Sound.walk
  · intro pre hpre
    exact Calculator.reads_instance (.tail _ (.head _)) ⟨_, .head _, rfl⟩
      (.tail _ (.tail _ (.head _))) hpre
  · intro m pre j pv h
    simp only [bind, Option.bind_eq_some_iff] at h
    obtain ⟨rpm, -, h⟩ := h
    cases h
    rfl
  · exact fun _ _ _ _ _ _ => rfl

def fuelConsumption : Calculator where
  name := "fuelConsumption"
  inputs := ["navigation.speedOverGround", "propulsion"]
  calculate iter values := do
    let sog ← number values "navigation.speedOverGround"
    guard ¬sog < 0.1
    forInstances iter values ".fuel.rate" "propulsion." fun pre value => do
      let rate ← value.asDouble
      guard ¬rate ≤ 0
      let economy := sog / rate
      return ⟨pre ++ ".fuel.economy", economy.toJson⟩

omit [ExactMath] [Ephemeris] in
theorem fuelConsumption_sound :
    Sound fuelConsumption.Reads (InstancePath "propulsion." ".fuel.economy")
      fuelConsumption.calculate := by
  apply Sound.bind
  · exact fun m m' hagree => Calculator.number_eq hagree (.inl (.head _))
  · intro sog
    apply Sound.bind (fun _ _ _ => rfl)
    intro _
    apply Sound.walk
    · intro pre hpre
      exact Calculator.reads_instance (.tail _ (.head _)) ⟨_, .tail _ (.head _), rfl⟩
        (.tail _ (.tail _ (.tail _ (.head _)))) hpre
    · intro m pre j pv h
      simp only [bind, Option.bind_eq_some_iff] at h
      obtain ⟨rate, -, -, -, h⟩ := h
      cases h
      rfl
    · exact fun _ _ _ _ _ _ => rfl

def propSlip : Calculator where
  name := "propSlip"
  inputs := ["navigation.speedThroughWater", "propulsion"]
  calculate iter values := do
    let stw ← number values "navigation.speedThroughWater"
    forInstances iter values ".revolutions" "propulsion." fun pre value => do
      let revolutions ← value.asDouble
      guard ¬revolutions ≤ 0
      let ratio := stw / revolutions
      return ⟨pre ++ ".drive.propeller.slip", ratio.toJson⟩

omit [ExactMath] [Ephemeris] in
theorem propSlip_sound :
    Sound propSlip.Reads (InstancePath "propulsion." ".drive.propeller.slip")
      propSlip.calculate := by
  apply Sound.bind
  · exact fun m m' hagree => Calculator.number_eq hagree (.inl (.head _))
  · intro stw
    apply Sound.walk
    · intro pre hpre
      exact Calculator.reads_instance (.tail _ (.head _)) ⟨_, .tail _ (.head _), rfl⟩
        (.tail _ (.tail _ (.head _))) hpre
    · intro m pre j pv h
      simp only [bind, Option.bind_eq_some_iff] at h
      obtain ⟨revolutions, -, -, -, h⟩ := h
      cases h
      rfl
    · exact fun _ _ _ _ _ _ => rfl

def tankVolume : Calculator where
  name := "tankVolume"
  inputs := ["tanks"]
  calculate iter values :=
    forInstances iter values ".capacity" "tanks." fun pre _ => do
      let capacity ← number values (pre ++ ".capacity")
      let level ← number values (pre ++ ".currentLevel")
      guard ¬(capacity ≤ 0 ∨ ¬(0 ≤ level ∧ level ≤ 1))
      return ⟨pre ++ ".currentVolume", (level * capacity).toJson⟩

omit [ExactMath] [Ephemeris] in
theorem tankVolume_sound :
    Sound tankVolume.Reads (InstancePath "tanks." ".currentVolume") tankVolume.calculate := by
  have hreads : ∀ suffix ∈ [".capacity", ".currentLevel"], ∀ pre,
      Text.startsWith pre "tanks." = true → tankVolume.Reads (pre ++ suffix) := by
    intro suffix hs pre hpre
    have hmem : suffix ∈ instanceInputs :=
      (List.sublist_append_right [".voltage", ".current", ".revolutions", ".fuel.rate"] _).subset hs
    exact Calculator.reads_instance (.tail _ (.tail _ (.head _))) ⟨_, .head _, rfl⟩ hmem hpre
  dsimp only [tankVolume]
  apply Sound.walk
  · exact hreads ".capacity" (.head _)
  · intro m pre j pv h
    simp only [bind, Option.bind_eq_some_iff] at h
    obtain ⟨capacity, -, level, -, -, -, h⟩ := h
    cases h
    rfl
  · intro m m' pre j hpre hagree
    rw [Calculator.number_eq hagree (hreads ".capacity" (.head _) pre hpre),
      Calculator.number_eq hagree (hreads ".currentLevel" (.tail _ (.head _)) pre hpre)]

end SignalK.DerivedData

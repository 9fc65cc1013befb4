import SignalK.Autopilot.Tick
import SignalK.DerivedData.Environment
import SignalK.DerivedData.Intake
import SignalK.Nmea.Pgns

/-! What a receiver's delta leaves behind it: in the store, in the snapshot of derived data
and in the autopilot. -/
namespace SignalK.Nmea
variable [JsonText]

def pathValues (d : Option Delta) : List PathValue := (d.map Delta.pathValues).getD []

/-- The store once the delta has been applied, if there is one. -/
def applied (st : SignalKStore) (clock : Nat → DateTime) (d : Option Delta) : SignalKStore :=
  (d.map fun delta => (st.applyDelta clock delta).1).getD st

/-- The autopilot once the delta has been delivered to it. -/
def heard (st : AutopilotState) (now : Instant) (d : Option Delta) : AutopilotState :=
  (d.map (st.receive now)).getD st

/-- The value is stored under the path of a vessel that nobody has reported of, and derived
data and the autopilot work with it. -/
structure Delivers (d : Option Delta) (path : String) (value : Json) : Prop where
  stored : ∀ (st : SignalKStore) clock, (∀ p, st.getSelfPath p = none) →
    ((applied st clock d).getSelfPath path).map (·.value) = some value
  derived : ∀ m, (DerivedData.insertValues m (pathValues d)).lookup path = some value
  steered : ∀ st now, (heard st now d).reading path = value.asF64.or (st.reading path)

omit [JsonText] in
/-- What the autopilot reads is the last number. -/
theorem reading_selfVessel (st : AutopilotState) (now : Instant) (source : Source)
    (at_ : DateTime) (values : List PathValue) {path : String}
    (hr : path ≠ "steering.rudderAngle") :
    (st.receive now (Delta.selfVessel [⟨source, at_, values⟩])).reading path =
      ((valuesAt values path).filterMap Json.asF64).getLast?.or (st.reading path) := by
  rw [AutopilotState.reading_receive]
  have hsensed : ∀ pv : PathValue, AutopilotState.sensed path source pv =
      (if pv.path = path then some pv.value else none).bind Json.asF64 := by
    intro pv
    by_cases hp : pv.path = path <;> simp [AutopilotState.sensed, hp, hr]
  simp [AutopilotState.sourced, Delta.selfVessel, List.filterMap_map, hsensed, valuesAt,
    List.filterMap_filterMap]

/-- The delta that both receivers make of what they found. -/
theorem delivers {source : Source} {now : DateTime} {values : List PathValue} {path : String}
    {v : Json} (h : valuesAt values path = [v]) (hr : path ≠ "steering.rudderAngle") :
    Delivers (if values = [] then none else some (Delta.selfVessel [⟨source, now, values⟩]))
      path v := by
  have hne : values ≠ [] := by
    rintro rfl
    cases h
  rw [if_neg hne]
  have hpath : pathValues (some (Delta.selfVessel [⟨source, now, values⟩])) = values := by
    simp [pathValues, Delta.pathValues, Delta.selfVessel]
  constructor
  · intro st clock hst
    have hs := st.getSelfPath_fresh clock source now values hst path
    rw [h] at hs
    exact hs
  · intro m
    rw [hpath, DerivedData.lookup_insertValues_eq, h]
    rfl
  · intro st at_
    have hs := reading_selfVessel st at_ source now values hr
    rw [h] at hs
    cases hv : v.asF64 with
    | none => simpa [heard, hv] using hs
    | some x => simpa [heard, hv] using hs

omit [JsonText] in
theorem new_silent (uri path : String) : (SignalKStore.new uri).getSelfPath path = none := by
  simp [SignalKStore.new, SignalKStore.getSelfPath, SignalKStore.getVesselPath,
    HashMap.lookup_collect, VesselData.empty]

theorem valuesAt_of_delivers {source : Source} {now : DateTime} {values : List PathValue}
    {path : String} {v : Json}
    (h : Delivers (if values = [] then none else some (Delta.selfVessel [⟨source, now, values⟩]))
      path v) : v ∈ valuesAt values path := by
  have hs := h.stored (SignalKStore.new "") (fun _ => 0) (new_silent "")
  split_ifs at hs with he
  · rw [applied, Option.map_none, Option.getD_none, new_silent] at hs
    cases hs
  · rw [applied, Option.map_some, Option.getD_some,
      SignalKStore.getSelfPath_fresh _ _ source now values (new_silent "")] at hs
    exact List.mem_of_getLast? hs

omit [JsonText]

theorem valuesAt_ofNumber (p : String) (x : Option ℚ) (path : String) :
    valuesAt (PathValue.ofNumber p x) path = if p = path then (x.map Json.ofF64).toList else [] := by
  cases x with
  | none => simp [PathValue.ofNumber, valuesAt]
  | some x => by_cases hp : p = path <;> simp [PathValue.ofNumber, valuesAt, hp]

end SignalK.Nmea

/-! One measurement on both buses: what an engine's speed, the apparent wind's angle and the
boat's roll and pitch become when NMEA 0183 brings them and when NMEA 2000 does. -/
namespace SignalK.Nmea
open Nmea0183 Nmea2000

inductive Side where
  | port
  | starboard
  deriving DecidableEq

/-- Where the wind comes from, counted from the bow. -/
structure ApparentAngle where
  side : Side
  degrees : ℚ
  nonneg : 0 ≤ degrees
  le : degrees ≤ 180

namespace ApparentAngle

/-- From 0 to 360, as MWV and the wind PGN count. -/
def clockwise (w : ApparentAngle) : ℚ :=
  match w.side with
  | .starboard => w.degrees
  | .port => if w.degrees = 0 then 0 else 360 - w.degrees

/-- From -180 to 180, as VWR counts. -/
def signed (w : ApparentAngle) : ℚ :=
  match w.side with
  | .starboard => w.degrees
  | .port => -w.degrees

theorem signed_eq_clockwise_iff (w : ApparentAngle) :
    w.signed = w.clockwise ↔ w.side = .starboard ∨ w.degrees = 0 := by
  unfold signed clockwise
  cases hs : w.side with
  | starboard => simp
  | port =>
    by_cases h : w.degrees = 0
    · simp [h]
    · have hne : ¬-w.degrees = 360 - w.degrees := by linarith
      simp [h, hne]

end ApparentAngle

/-- A physical value. -/
inductive Quantity where
  | engineSpeed (rpm : ℚ)
  | apparentWind (angle : ApparentAngle)
  | roll (degrees : ℚ)
  | pitch (degrees : ℚ)

def rollNames : List String := ["ROLL", "Roll"]

def pitchNames : List String := ["PTCH", "PITCH", "Pitch"]

/-- The angle that a measurement reports under one of some names. -/
def angle (names : List String) (m : XdrMeasurement) : Option ℚ :=
  if m.transducerType = some 'A' ∧ m.name ∈ names then m.value else none

def angles (names : List String) (xdr : XdrData) : List ℚ := xdr.measurements.filterMap (angle names)

/-- The sentence reports the quantity; of a repeated measurement the last counts. -/
def Reports : ParseResult → Quantity → Prop
  | .rpm data, .engineSpeed rpm =>
    data.valid = true ∧ data.source = some .engine ∧ data.rpm = some rpm
  | .mwv data, .apparentWind angle =>
    data.dataValid = true ∧ data.reference = some .relative ∧
      data.windDirection = some angle.clockwise
  | .vwr data, .apparentWind angle => data.windAngle = some angle.signed
  | .xdr data, .roll degrees => (angles rollNames data).getLast? = some degrees
  | .xdr data, .pitch degrees => (angles pitchNames data).getLast? = some degrees
  | _, _ => False

/-- The message reports the quantity, angles in radians. -/
def Broadcasts : DecodedMessage → Quantity → Prop
  | .engineParametersRapidUpdate m, .engineSpeed rpm => m.speed = some rpm
  | .windData m, .apparentWind angle =>
    m.reference = some .apparent ∧ m.windAngle = some (angle.clockwise * degToRad)
  | .attitude m, .roll degrees => m.roll = some (degrees * degToRad)
  | .attitude m, .pitch degrees => m.pitch = some (degrees * degToRad)
  | _, _ => False

/-! The same measurement from both. -/

def revolutions (i : String) : String := "propulsion." ++ i ++ ".revolutions"

/-- What derived data computes of an engine's revolutions, and the ends of the results' paths. -/
def engineCalculators : List (Calculator × String) :=
  [(DerivedData.propState, ".state.value"), (DerivedData.propSlip, ".drive.propeller.slip")]

/-- The results for an engine that bears two names. -/
def ComputedAlike (i j : String) (a b : Option Delta) : Prop :=
  ∀ c ∈ engineCalculators, ∀ iter m x,
    DerivedData.Gives c.1.calculate iter (DerivedData.insertValues m (pathValues a))
        ⟨"propulsion." ++ i ++ c.2, x⟩ ↔
      DerivedData.Gives c.1.calculate iter (DerivedData.insertValues m (pathValues b))
        ⟨"propulsion." ++ j ++ c.2, x⟩

section
variable [JsonText]

/-- The quantity has the same value under the same path, but for the name of an engine. -/
def Alike (a b : Option Delta) : Quantity → Prop
  | .engineSpeed _ => ∃ i j v, Delivers a (revolutions i) v ∧ Delivers b (revolutions j) v ∧
    ComputedAlike i j a b
  | .apparentWind _ => ∃ v, Delivers a "environment.wind.angleApparent" v ∧
    Delivers b "environment.wind.angleApparent" v
  | .roll _ => ∃ path ∈ ["navigation.attitude", "navigation.attitude.roll"], ∃ v,
    Delivers a path v ∧ Delivers b path v
  | .pitch _ => ∃ path ∈ ["navigation.attitude", "navigation.attitude.pitch"], ∃ v,
    Delivers a path v ∧ Delivers b path v

end

/-! Engines. -/

theorem revolutions_injective {i j : String} (h : revolutions i = revolutions j) : i = j := by
  have hpre : "propulsion." ++ i = "propulsion." ++ j := (String.append_left_inj _).mp h
  exact (String.append_right_inj _).mp hpre

theorem revolutions_ne_pitch (i j : String) :
    "propulsion." ++ i ++ ".pitch" ≠ revolutions j :=
  Text.append_ne_append (by decide) (by decide)

theorem valuesAt_revolutions (j : String) (x : Option ℚ) (i : String) :
    valuesAt (PathValue.ofNumber ("propulsion." ++ j ++ ".revolutions") x) (revolutions i) =
      if j = i then (x.map Json.ofF64).toList else [] := by
  rw [valuesAt_ofNumber]
  by_cases hi : j = i
  · subst hi
    rw [if_pos rfl]
    exact if_pos rfl
  · rw [if_neg hi]
    exact if_neg fun he => hi (revolutions_injective he)

theorem valuesAt_fromRpm {data : RpmData} {rpm : ℚ} (h : Reports (.rpm data) (.engineSpeed rpm))
    (i : String) : valuesAt (fromRpm data) (revolutions i) =
      if data.instanceName = i then [.ofF64 (rpm / 60)] else [] := by
  obtain ⟨hvalid, -, hrpm⟩ := h
  rw [fromRpm, if_neg (by simp [hvalid])]
  simp only
  rw [valuesAt_append, valuesAt_revolutions, valuesAt_ofNumber,
    if_neg (revolutions_ne_pitch _ _), hrpm, List.append_nil]
  rfl

theorem valuesAt_fromEngineRapid {m : EngineParametersRapidUpdate} {rpm : ℚ}
    (h : Broadcasts (.engineParametersRapidUpdate m) (.engineSpeed rpm)) (i : String) :
    valuesAt (fromEngineRapid m) (revolutions i) =
      if engineInstance m.instanceRaw = i then [.ofF64 (rpm * Consts.tau / 60)] else [] := by
  have hspeed : m.speed = some rpm := h
  rw [fromEngineRapid, valuesAt_revolutions, hspeed]
  rfl

/-- A walk over the instances gives at most one value for each. -/
theorem gives_instance (iter : Iteration) (m : Values) {suffix family pre : String} (out : String)
    (value : Json → Option Json) (x : Json) (hfamily : Text.startsWith pre family = true) :
    (∃ results, DerivedData.forInstances iter m suffix family
        (fun pre j => (value j).map fun x => ⟨pre ++ out, x⟩) = some results ∧
        ⟨pre ++ out, x⟩ ∈ results) ↔
      ∃ j, m.lookup (pre ++ suffix) = some j ∧ value j = some x := by
  rw [DerivedData.mem_forInstances]
  constructor
  · rintro ⟨pre', j, hj, -, hr⟩
    obtain ⟨y, hy, he⟩ := Option.map_eq_some_iff.mp hr
    have hboth : pre' ++ out = pre ++ out ∧ y = x := PathValue.mk.inj he
    obtain rfl : pre' = pre := (String.append_left_inj _).mp hboth.1
    exact ⟨j, hj, hboth.2 ▸ hy⟩
  · rintro ⟨j, hj, hx⟩
    exact ⟨pre, j, hj, hfamily, by rw [hx]; rfl⟩

theorem startsWith_propulsion (i : String) :
    Text.startsWith ("propulsion." ++ i) "propulsion." = true := Text.startsWith_append _ _

/-- What propState says of a number of revolutions. -/
def stateOf (j : Json) : Option Json :=
  j.asDouble.map fun rpm => .string (if 0 < rpm then "started" else "stopped")

/-- What propSlip says of a number of revolutions at a speed through the water. -/
def slipOf (stw : F64) (j : Json) : Option Json :=
  j.asDouble.bind fun revolutions =>
    if revolutions ≤ 0 then none else some (stw / revolutions).toJson

theorem propState_gives (iter : Iteration) (m : Values) (i : String) (x : Json) :
    DerivedData.Gives DerivedData.propState.calculate iter m
        ⟨"propulsion." ++ i ++ ".state.value", x⟩ ↔
      ∃ j, m.lookup (revolutions i) = some j ∧ stateOf j = some x := by
  rw [revolutions, ← gives_instance iter m ".state.value" _ x (startsWith_propulsion i)]
  have hresult : ∀ (pre : String) (j : Json),
      ((stateOf j).map fun x => (⟨pre ++ ".state.value", x⟩ : PathValue)) = do
        let rpm ← j.asDouble
        let state := if 0 < rpm then "started" else "stopped"
        return ⟨pre ++ ".state.value", .string state⟩ := by
    intro pre j
    cases hj : j.asDouble <;> simp [stateOf, hj]
  simp only [hresult]
  rfl

theorem propSlip_gives (iter : Iteration) (m : Values) (i : String) (x : Json) :
    DerivedData.Gives DerivedData.propSlip.calculate iter m
        ⟨"propulsion." ++ i ++ ".drive.propeller.slip", x⟩ ↔
      ∃ stw, DerivedData.number m "navigation.speedThroughWater" = some stw ∧
        ∃ j, m.lookup (revolutions i) = some j ∧ slipOf stw j = some x := by
  have hresult : ∀ (stw : F64) (pre : String) (j : Json),
      ((slipOf stw j).map fun x => (⟨pre ++ ".drive.propeller.slip", x⟩ : PathValue)) = do
        let revolutions ← j.asDouble
        guard ¬revolutions ≤ 0
        return ⟨pre ++ ".drive.propeller.slip", (stw / revolutions).toJson⟩ := by
    intro stw pre j
    cases hj : j.asDouble with
    | none => simp [slipOf, hj]
    | some r => by_cases hr : r ≤ 0 <;> simp [slipOf, hj, hr]
  rw [DerivedData.Gives, DerivedData.propSlip, DerivedData.Sound.gives_bind]
  simp only [← hresult, gives_instance iter m _ _ x (startsWith_propulsion i), revolutions]

/-- One value under two names of an engine, in two deltas that say nothing else of what the
calculators look at. -/
theorem computedAlike {i j : String} {a b : Option Delta} {v : Json}
    (ha : ∀ m, (DerivedData.insertValues m (pathValues a)).lookup (revolutions i) = some v)
    (hb : ∀ m, (DerivedData.insertValues m (pathValues b)).lookup (revolutions j) = some v)
    (hstw : valuesAt (pathValues a) "navigation.speedThroughWater" =
      valuesAt (pathValues b) "navigation.speedThroughWater") : ComputedAlike i j a b := by
  intro c hc iter m x
  have hnumber : DerivedData.number (DerivedData.insertValues m (pathValues a))
        "navigation.speedThroughWater" =
      DerivedData.number (DerivedData.insertValues m (pathValues b))
        "navigation.speedThroughWater" := by
    simp only [DerivedData.number, DerivedData.lookup_insertValues_eq, hstw]
  rcases List.mem_pair.mp hc with rfl | rfl
  · rw [propState_gives, propState_gives, ha, hb]
  · rw [propSlip_gives, propSlip_gives, ha, hb, hnumber]

theorem ofF64_injective {x y : ℚ} (h : Json.ofF64 x = Json.ofF64 y) : x = y := by
  cases h
  rfl

theorem propulsion_ne {q : String} (hq : Text.startsWith q "propulsion." = false)
    (i out : String) : "propulsion." ++ i ++ out ≠ q := by
  rintro rfl
  rw [String.append_assoc, Text.startsWith_append] at hq
  cases hq

theorem pathValues_delta (source : Source) (now : DateTime) (values : List PathValue) :
    pathValues (if values = [] then none else some (Delta.selfVessel [⟨source, now, values⟩])) =
      values := by
  by_cases h : values = [] <;> simp [h, pathValues, Delta.pathValues, Delta.selfVessel]

theorem pathValues_sentenceToDelta (raw label : String) (now : DateTime) (parsed : ParseResult) :
    pathValues (sentenceToDelta raw label now parsed) = parsed.pathValues := pathValues_delta _ _ _

theorem pathValues_decodedToDelta (msg : DecodedMessage) (source : N2kSource) (now : DateTime) :
    pathValues (decodedToDelta msg source now) = msg.pathValues := pathValues_delta _ _ _

/-! Wind. -/

theorem valuesAt_fromMwv {data : MwvData} {angle : ApparentAngle}
    (h : Reports (.mwv data) (.apparentWind angle)) :
    valuesAt (fromMwv data) "environment.wind.angleApparent" =
      [.ofF64 (angle.clockwise * degToRad)] := by
  obtain ⟨hvalid, href, hangle⟩ := h
  simp [fromMwv, hvalid, href, hangle, valuesAt_append, valuesAt_ofNumber]

theorem valuesAt_fromVwr {data : VwrData} {angle : ApparentAngle}
    (h : Reports (.vwr data) (.apparentWind angle)) :
    valuesAt (fromVwr data) "environment.wind.angleApparent" =
      [.ofF64 (angle.signed * degToRad)] := by
  have hangle : data.windAngle = some angle.signed := h
  simp [fromVwr, hangle, valuesAt_append, valuesAt_ofNumber]

theorem valuesAt_fromWindData {m : WindData} {angle : ApparentAngle}
    (h : Broadcasts (.windData m) (.apparentWind angle)) :
    valuesAt (fromWindData m) "environment.wind.angleApparent" =
      [.ofF64 (angle.clockwise * degToRad)] := by
  obtain ⟨href, hangle⟩ := h
  simp [fromWindData, windPaths, href, hangle, valuesAt_append, valuesAt_ofNumber]

/-! Roll and pitch. -/

/-- What the loop over the measurements puts out has a path of the table. -/
theorem out_path (ms : List XdrMeasurement) (l : XdrLoop)
    (h : ∀ pv ∈ l.out, ∃ r ∈ mappings, pv.path = r.path) :
    ∀ pv ∈ (ms.foldl XdrLoop.step l).out, ∃ r ∈ mappings, pv.path = r.path := by
  induction ms generalizing l with
  | nil => exact h
  | cons m ms ih =>
    apply ih
    unfold XdrLoop.step
    cases hm : m.mapped with
    | none => exact h
    | some e =>
      simp only
      split_ifs
      · exact h
      · exact h
      · intro pv hpv
        rcases List.mem_append.mp hpv with hpv | hpv
        · exact h pv hpv
        · obtain rfl := List.mem_singleton.mp hpv
          simp only [XdrMeasurement.mapped, bind, pure, Option.bind_eq_some_iff] at hm
          obtain ⟨ttype, -, value, -, r, hr, he⟩ := hm
          cases he
          exact ⟨r, List.mem_of_find?_eq_some hr, rfl⟩

theorem fromXdr_path {xdr : XdrData} {pv : PathValue} (h : pv ∈ fromXdr xdr) :
    pv.path = "navigation.attitude" ∨ ∃ r ∈ mappings, pv.path = r.path := by
  rcases List.mem_append.mp h with h | h
  · exact .inr (out_path xdr.measurements ⟨[], none, none⟩ (List.forall_mem_nil _) pv h)
  · unfold XdrLoop.attitude at h
    split_ifs at h
    · rw [List.mem_singleton.mp h]
      exact .inl rfl
    · cases h

/-! The angles inside the object. -/

theorem mapped_roll {m : XdrMeasurement} {degrees : ℚ} (h : angle rollNames m = some degrees) :
    m.mapped = some ("ATTITUDE_ROLL", toRad degrees) := by
  obtain ⟨ttype, value, name⟩ := m
  unfold angle at h
  split_ifs at h with hc
  obtain ⟨rfl, hname⟩ : ttype = some 'A' ∧ name ∈ rollNames := hc
  obtain rfl : value = some degrees := h
  rcases List.mem_pair.mp hname with rfl | rfl <;> rfl

theorem mapped_pitch {m : XdrMeasurement} {degrees : ℚ} (h : angle pitchNames m = some degrees) :
    m.mapped = some ("ATTITUDE_PITCH", toRad degrees) := by
  obtain ⟨ttype, value, name⟩ := m
  unfold angle at h
  split_ifs at h with hc
  obtain ⟨rfl, hname⟩ : ttype = some 'A' ∧ name ∈ pitchNames := hc
  obtain rfl : value = some degrees := h
  simp only [pitchNames, List.mem_cons, List.not_mem_nil, or_false] at hname
  rcases hname with rfl | rfl | rfl <;> rfl

/-- Nothing else in the table stands for a part of the attitude. -/
theorem angle_of_mapped {m : XdrMeasurement} {path : String} {x : ℚ}
    (h : m.mapped = some (path, x)) :
    (path = "ATTITUDE_ROLL" → ∃ degrees, angle rollNames m = some degrees) ∧
      (path = "ATTITUDE_PITCH" → ∃ degrees, angle pitchNames m = some degrees) := by
  have htable : ∀ r ∈ mappings,
      (r.path = "ATTITUDE_ROLL" → r.transducerType = 'A' ∧ r.namePattern ∈ rollNames ∧
        Text.stripSuffix r.namePattern "*" = none) ∧
      (r.path = "ATTITUDE_PITCH" → r.transducerType = 'A' ∧ r.namePattern ∈ pitchNames ∧
        Text.stripSuffix r.namePattern "*" = none) := by decide
  simp only [XdrMeasurement.mapped, bind, pure, Option.bind_eq_some_iff] at h
  obtain ⟨ttype, htype, value, hvalue, r, hr, he⟩ := h
  obtain ⟨hmatch, -⟩ := List.find?_eq_some_iff_append.mp hr
  have hmem := htable r (List.mem_of_find?_eq_some hr)
  cases he
  simp only [Bool.and_eq_true, decide_eq_true_eq] at hmatch
  have hangle : ∀ names, r.transducerType = 'A' ∧ r.namePattern ∈ names ∧
      Text.stripSuffix r.namePattern "*" = none → angle names m = some value := by
    rintro names ⟨hA, hname, hstar⟩
    have hsame : m.name = r.namePattern := by
      have hm := hmatch.2
      rw [nameMatches, hstar] at hm
      exact of_decide_eq_true hm
    rw [angle, htype, ← hmatch.1, hA, hsame, if_pos ⟨rfl, hname⟩, hvalue]
  exact ⟨fun hp => ⟨value, hangle _ (hmem.1 hp)⟩, fun hp => ⟨value, hangle _ (hmem.2 hp)⟩⟩

/-- The loop keeps the last roll and the last pitch. -/
theorem loop_parts (ms : List XdrMeasurement) (l : XdrLoop) :
    (ms.foldl XdrLoop.step l).rollRad =
        ((ms.filterMap (angle rollNames)).getLast?.map toRad).or l.rollRad ∧
      (ms.foldl XdrLoop.step l).pitchRad =
        ((ms.filterMap (angle pitchNames)).getLast?.map toRad).or l.pitchRad := by
  induction ms using List.reverseRecOn with
  | nil => exact ⟨rfl, rfl⟩
  | append_singleton ms m ih =>
    rw [List.foldl_append, List.foldl_cons, List.foldl_nil, List.filterMap_append,
      List.filterMap_append]
    cases hr : angle rollNames m with
    | some degrees =>
      have hpitch : angle pitchNames m = none := by
        cases hp : angle pitchNames m with
        | none => rfl
        | some x =>
          have he := (mapped_roll hr).symm.trans (mapped_pitch hp)
          simp at he
      simp [XdrLoop.step, mapped_roll hr, hr, hpitch, ih.2]
    | none =>
      cases hp : angle pitchNames m with
      | some degrees => simp [XdrLoop.step, mapped_pitch hp, hr, hp, ih.1]
      | none =>
        have hstep : ((ms.foldl XdrLoop.step l).step m).rollRad =
              (ms.foldl XdrLoop.step l).rollRad ∧
            ((ms.foldl XdrLoop.step l).step m).pitchRad =
              (ms.foldl XdrLoop.step l).pitchRad := by
          unfold XdrLoop.step
          cases hm : m.mapped with
          | none => exact ⟨rfl, rfl⟩
          | some e =>
            obtain ⟨path, x⟩ := e
            obtain ⟨hroll, hpitch⟩ := angle_of_mapped hm
            rw [hr] at hroll
            rw [hp] at hpitch
            have hnr : ¬path = "ATTITUDE_ROLL" := fun h => nomatch hroll h
            have hnp : ¬path = "ATTITUDE_PITCH" := fun h => nomatch hpitch h
            simp [hnr, hnp]
        rw [hstep.1, hstep.2, ih.1, ih.2]
        simp [hr, hp]

theorem valuesAt_out (xdr : XdrData) {path : String} (h : ∀ r ∈ mappings, r.path ≠ path) :
    valuesAt (xdr.measurements.foldl XdrLoop.step ⟨[], none, none⟩).out path = [] := by
  apply valuesAt_eq_nil
  intro pv hpv
  obtain ⟨r, hr, hp⟩ := out_path xdr.measurements ⟨[], none, none⟩ (List.forall_mem_nil _) pv hpv
  rw [hp]
  exact h r hr

/-- The object of an attitude. -/
def attitudeFields (pitchRad rollRad : Option ℚ) : Json :=
  .ofFields ((pitchRad.map fun p => ("pitch", Json.ofF64 p)).toList ++
    (rollRad.map fun r => ("roll", Json.ofF64 r)).toList)

theorem valuesAt_fromXdr {xdr : XdrData} {degrees : ℚ}
    (h : Reports (.xdr xdr) (.roll degrees) ∨ Reports (.xdr xdr) (.pitch degrees)) :
    valuesAt (fromXdr xdr) "navigation.attitude" = [attitudeFields
      ((angles pitchNames xdr).getLast?.map toRad) ((angles rollNames xdr).getLast?.map toRad)] := by
  have hparts := loop_parts xdr.measurements ⟨[], none, none⟩
  have hout : ∀ r ∈ mappings, r.path ≠ "navigation.attitude" := by decide
  simp only [fromXdr, valuesAt_append, valuesAt_out xdr hout, List.nil_append]
  simp only [Option.or_none] at hparts
  unfold XdrLoop.attitude
  rw [hparts.1, hparts.2, if_pos]
  · rfl
  · rcases h with h | h
    · have hr : (angles rollNames xdr).getLast? = some degrees := h
      rw [angles] at hr
      simp [hr]
    · have hp : (angles pitchNames xdr).getLast? = some degrees := h
      rw [angles] at hp
      simp [hp]

/-! What both buses give. -/

section
variable [JsonText]

/-- A turn a minute is a sixtieth of a turn a second, and it is not a sixtieth of a radian. -/
theorem engine_alike_iff (raw label : String) (now : DateTime) {data : RpmData}
    (source : N2kSource) (now' : DateTime) {m : EngineParametersRapidUpdate} {rpm : ℚ}
    (hs : Reports (.rpm data) (.engineSpeed rpm))
    (hm : Broadcasts (.engineParametersRapidUpdate m) (.engineSpeed rpm)) :
    Alike (sentenceToDelta raw label now (.rpm data))
      (decodedToDelta (.engineParametersRapidUpdate m) source now') (.engineSpeed rpm) ↔
      rpm = 0 := by
  have hsound := valuesAt_fromRpm hs
  have hmsg := valuesAt_fromEngineRapid hm
  constructor
  · rintro ⟨i, j, v, ha, hb, -⟩
    have hva : v ∈ valuesAt (fromRpm data) (revolutions i) := valuesAt_of_delivers ha
    have hvb : v ∈ valuesAt (fromEngineRapid m) (revolutions j) := valuesAt_of_delivers hb
    rw [hsound] at hva
    rw [hmsg] at hvb
    have hv : v = .ofF64 (rpm / 60) := by
      split_ifs at hva
      · exact List.mem_singleton.mp hva
      · cases hva
    have hv' : v = .ofF64 (rpm * Consts.tau / 60) := by
      split_ifs at hvb
      · exact List.mem_singleton.mp hvb
      · cases hvb
    have he : rpm / 60 = rpm * Consts.tau / 60 := ofF64_injective (hv.symm.trans hv')
    norm_num [Consts.tau, Consts.pi] at he
    linarith
  · rintro rfl
    have hi := hsound data.instanceName
    have hj := hmsg (engineInstance m.instanceRaw)
    rw [if_pos rfl] at hi hj
    rw [zero_mul] at hj
    have hr : ∀ i, revolutions i ≠ "steering.rudderAngle" :=
      fun i => propulsion_ne (by decide) i _
    have hstw : ∀ i out, "propulsion." ++ i ++ out ≠ "navigation.speedThroughWater" :=
      propulsion_ne (by decide)
    have ha : Delivers (sentenceToDelta raw label now (.rpm data))
        (revolutions data.instanceName) (.ofF64 (0 / 60)) := delivers hi (hr _)
    have hb : Delivers (decodedToDelta (.engineParametersRapidUpdate m) source now')
        (revolutions (engineInstance m.instanceRaw)) (.ofF64 (0 / 60)) := delivers hj (hr _)
    refine ⟨_, _, _, ha, hb, computedAlike ha.derived hb.derived ?_⟩
    rw [pathValues_sentenceToDelta, pathValues_decodedToDelta]
    have hvalid : ¬¬data.valid = true := not_not.mpr hs.1
    have ha' : valuesAt (fromRpm data) "navigation.speedThroughWater" = [] := by
      rw [fromRpm, if_neg hvalid]
      simp only
      rw [valuesAt_append, valuesAt_ofNumber, valuesAt_ofNumber, if_neg (hstw _ _),
        if_neg (hstw _ _), List.append_nil]
    have hb' : valuesAt (fromEngineRapid m) "navigation.speedThroughWater" = [] := by
      rw [fromEngineRapid, valuesAt_ofNumber, if_neg (hstw _ _)]
    exact ha'.trans hb'.symm

/-- Whatever sentence the angle came in, it is one number against another. -/
theorem wind_alike_iff (raw label : String) (now : DateTime) (parsed : ParseResult)
    (source : N2kSource) (now' : DateTime) {m : WindData} {angle : ApparentAngle} {x : ℚ}
    (hs : valuesAt parsed.pathValues "environment.wind.angleApparent" = [.ofF64 x])
    (hm : Broadcasts (.windData m) (.apparentWind angle)) :
    Alike (sentenceToDelta raw label now parsed) (decodedToDelta (.windData m) source now')
      (.apparentWind angle) ↔ x = angle.clockwise * degToRad := by
  have hmsg := valuesAt_fromWindData hm
  constructor
  · rintro ⟨v, ha, hb⟩
    have hva : v ∈ valuesAt parsed.pathValues _ := valuesAt_of_delivers ha
    have hvb : v ∈ valuesAt (fromWindData m) _ := valuesAt_of_delivers hb
    rw [hs, List.mem_singleton] at hva
    rw [hmsg, List.mem_singleton] at hvb
    exact ofF64_injective (hva.symm.trans hvb)
  · rintro rfl
    exact ⟨_, delivers hs (by decide), delivers hmsg (by decide)⟩

/-- The sentence gives an object and the message its parts. -/
theorem attitude_apart (raw label : String) (now : DateTime) (xdr : XdrData)
    (source : N2kSource) (now' : DateTime) (m : Attitude) {part path : String} {v : Json}
    (hpart : part = "navigation.attitude.roll" ∨ part = "navigation.attitude.pitch")
    (hpath : path ∈ ["navigation.attitude", part]) :
    ¬(Delivers (sentenceToDelta raw label now (.xdr xdr)) path v ∧
      Delivers (decodedToDelta (.attitude m) source now') path v) := by
  rintro ⟨ha, hb⟩
  have hva : v ∈ valuesAt (fromXdr xdr) path := valuesAt_of_delivers ha
  have hvb : v ∈ valuesAt (fromAttitude m) path := valuesAt_of_delivers hb
  rcases List.mem_pair.mp hpath with rfl | rfl
  · simp [fromAttitude, valuesAt_append, valuesAt_ofNumber] at hvb
  · rw [valuesAt_eq_nil] at hva
    · cases hva
    · intro pv hpv
      rcases fromXdr_path hpv with hp | ⟨r, hr, hp⟩
      · rw [hp]
        rcases hpart with rfl | rfl <;> decide
      · rw [hp]
        have htable : ∀ r ∈ mappings, r.path ≠ "navigation.attitude.roll" ∧
            r.path ≠ "navigation.attitude.pitch" := by decide
        rcases hpart with rfl | rfl
        · exact (htable r hr).1
        · exact (htable r hr).2

/-- What the two buses must not be asked for: an engine that turns, a wind from port in VWR,
and an attitude. -/
def Compatible : ParseResult → Quantity → Prop
  | _, .engineSpeed rpm => rpm = 0
  | .mwv _, .apparentWind _ => True
  | _, .apparentWind angle => angle.side = .starboard ∨ angle.degrees = 0
  | _, .roll _ => False
  | _, .pitch _ => False

theorem alike_iff (raw label : String) (now : DateTime) (parsed : ParseResult)
    (source : N2kSource) (now' : DateTime) (msg : DecodedMessage) (q : Quantity)
    (hs : Reports parsed q) (hm : Broadcasts msg q) :
    Alike (sentenceToDelta raw label now parsed) (decodedToDelta msg source now') q ↔
      Compatible parsed q := by
  cases q with
  | engineSpeed rpm =>
    cases parsed with
    | mwv _ | vwr _ | xdr _ => exact False.elim hs
    | rpm data =>
      cases msg with
      | attitude _ | windData _ => exact False.elim hm
      | engineParametersRapidUpdate m => exact engine_alike_iff raw label now source now' hs hm
  | apparentWind angle =>
    cases msg with
    | attitude _ | engineParametersRapidUpdate _ => exact False.elim hm
    | windData m =>
      cases parsed with
      | rpm _ | xdr _ => exact False.elim hs
      | mwv data =>
        rw [wind_alike_iff raw label now (.mwv data) source now' (valuesAt_fromMwv hs) hm]
        exact ⟨fun _ => trivial, fun _ => rfl⟩
      | vwr data =>
        rw [wind_alike_iff raw label now (.vwr data) source now' (valuesAt_fromVwr hs) hm]
        have hrad : degToRad ≠ 0 := by norm_num [degToRad, Consts.pi]
        have hsame : angle.signed * degToRad = angle.clockwise * degToRad ↔
            angle.signed = angle.clockwise := mul_left_inj' hrad
        exact hsame.trans angle.signed_eq_clockwise_iff
  | roll degrees =>
    cases parsed with
    | mwv _ | vwr _ | rpm _ => exact False.elim hs
    | xdr xdr =>
      cases msg with
      | windData _ | engineParametersRapidUpdate _ => exact False.elim hm
      | attitude m =>
        refine iff_of_false ?_ id
        rintro ⟨path, hpath, v, h⟩
        exact attitude_apart raw label now xdr source now' m (.inl rfl) hpath h
  | pitch degrees =>
    cases parsed with
    | mwv _ | vwr _ | rpm _ => exact False.elim hs
    | xdr xdr =>
      cases msg with
      | windData _ | engineParametersRapidUpdate _ => exact False.elim hm
      | attitude m =>
        refine iff_of_false ?_ id
        rintro ⟨path, hpath, v, h⟩
        exact attitude_apart raw label now xdr source now' m (.inr rfl) hpath h

end

section

/-- What is printed of a source is the number of a parameter group. -/
local instance : JsonText where
  toText
    | .number (.posInt n) => toString n.toNat
    | _ => ""

def engineMessage : N2kSource := ⟨"nmea2000", 3, 127488⟩

theorem alike_iff_idle :
    let idle : ParseResult := .rpm ⟨some .engine, some 0, some 0, none, true⟩
    Alike (sentenceToDelta "$IIRPM,E,0,0,,A" "nmea0183-tcp" 0 idle)
      (decodedToDelta (.engineParametersRapidUpdate ⟨some 0, some 0⟩) engineMessage 0)
      (.engineSpeed 0) := by
  intro idle
  have hs : Reports idle (.engineSpeed 0) := ⟨rfl, rfl, rfl⟩
  exact (alike_iff "$IIRPM,E,0,0,,A" "nmea0183-tcp" 0 idle engineMessage 0
    (.engineParametersRapidUpdate ⟨some 0, some 0⟩) (.engineSpeed 0) hs rfl).mpr rfl

/-- An engine at 1200 turns a minute. -/
theorem buses_differ :
    ¬∀ raw label now parsed source now' msg q, Reports parsed q → Broadcasts msg q →
      Alike (sentenceToDelta raw label now parsed) (decodedToDelta msg source now') q := by
  intro h
  have hs : Reports (.rpm ⟨some .engine, some 0, some 1200, none, true⟩) (.engineSpeed 1200) :=
    ⟨rfl, rfl, rfl⟩
  have hm : Broadcasts (.engineParametersRapidUpdate ⟨some 0, some 1200⟩) (.engineSpeed 1200) :=
    rfl
  have hzero : (1200 : ℚ) = 0 :=
    (engine_alike_iff "$IIRPM,E,0,1200,,A" "nmea0183-tcp" 0 engineMessage 0 hs hm).mp
      (h _ _ _ _ _ _ _ _ hs hm)
  norm_num at hzero

end
end SignalK.Nmea

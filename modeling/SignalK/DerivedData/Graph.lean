import SignalK.DerivedData.Callback

/-! Which calculator writes which path, and that the calculators feed each other in few
steps: none writes a path that is not further from the measurements than what it reads. -/
namespace SignalK.DerivedData

/-- The paths that calculators without instances read or write, in order, each with its
writer, if it has one, and its distance from the measurements. -/
def places : List (String × Option String × Nat) := [
  ("design.draft.value.current", none, 0),
  ("electrical.batteries", none, 0),
  ("environment.current.drift", some "setDrift", 2),
  ("environment.current.driftImpact", some "setDrift", 2),
  ("environment.current.setMagnetic", some "setDrift", 2),
  ("environment.current.setTrue", some "setDrift", 2),
  ("environment.depth.belowKeel", some "depthBelowKeel", 2),
  ("environment.depth.belowSurface", some "depthBelowSurface", 3),
  ("environment.depth.belowTransducer", none, 0),
  ("environment.depth.surfaceToTransducer", none, 0),
  ("environment.depth.transducerToKeel", some "transducerToKeel", 1),
  ("environment.moon.age", some "moon", 1),
  ("environment.moon.illumination", some "moon", 1),
  ("environment.moon.phase", some "moon", 1),
  ("environment.moon.phaseName", some "moon", 1),
  ("environment.outside.airDensity", some "airDensity", 1),
  ("environment.outside.apparentWindChillTemperature", some "windChill", 1),
  ("environment.outside.dewPointTemperature", some "dewPoint", 1),
  ("environment.outside.heatIndexTemperature", some "heatIndex", 1),
  ("environment.outside.humidity", none, 0),
  ("environment.outside.pressure", none, 0),
  ("environment.outside.temperature", none, 0),
  ("environment.sunlight.altitude", some "suncalc", 1),
  ("environment.sunlight.azimuth", some "suncalc", 1),
  ("environment.sunlight.times.dawn", some "suntime", 1),
  ("environment.sunlight.times.dusk", some "suntime", 1),
  ("environment.sunlight.times.sunrise", some "suntime", 1),
  ("environment.sunlight.times.sunset", some "suntime", 1),
  ("environment.wind.angleApparent", none, 0),
  ("environment.wind.angleTrueGround", some "windGround", 1),
  ("environment.wind.angleTrueWater", some "trueWind", 2),
  ("environment.wind.directionGround", some "windGroundDirection", 2),
  ("environment.wind.directionMagnetic", some "windDirectionMagnetic", 3),
  ("environment.wind.directionMagneticApparent", some "windDirectionMagnetic2", 1),
  ("environment.wind.directionTrue", some "trueWind", 2),
  ("environment.wind.speedApparent", none, 0),
  ("environment.wind.speedOverGround", some "windGround", 1),
  ("environment.wind.speedTrue", some "trueWind", 2),
  ("navigation.attitude", none, 0),
  ("navigation.course.calcValues.bearingTrackMagnetic", some "bearingMagnetic", 2),
  ("navigation.course.calcValues.bearingTrackTrue", some "courseBearing", 1),
  ("navigation.course.calcValues.crossTrackError", some "courseXte", 1),
  ("navigation.course.calcValues.nextPoint.distance", some "courseDistance", 1),
  ("navigation.course.calcValues.nextPoint.estimatedTimeOfArrival", some "eta", 3),
  ("navigation.course.calcValues.nextPoint.velocityMadeGood", some "vmgWaypoint", 2),
  ("navigation.course.calcValues.previousPoint.distance", some "previousPointDistance", 1),
  ("navigation.course.nextPoint.position", none, 0),
  ("navigation.course.previousPoint.position", none, 0),
  ("navigation.course.steerError", some "steerError", 2),
  ("navigation.courseOverGroundMagnetic", some "courseOverGroundMagnetic", 0),
  ("navigation.courseOverGroundTrue", some "courseOverGroundTrue", 1),
  ("navigation.datetime", none, 0),
  ("navigation.headingMagnetic", none, 0),
  ("navigation.headingTrue", some "headingTrue", 1),
  ("navigation.leewayAngle", some "leewayAngle", 2),
  ("navigation.leewayAngleHeel", some "leeway", 1),
  ("navigation.magneticVariation", none, 0),
  ("navigation.position", none, 0),
  ("navigation.speedOverGround", none, 0),
  ("navigation.speedThroughWater", none, 0),
  ("performance.velocityMadeGood", some "vmgWind", 3),
  ("performance.velocityMadeGoodWater", some "vmgStw", 3),
  ("propulsion", none, 0),
  ("tanks", none, 0)]

/-- The writer of an instance's path, by the end of the path. -/
def instancePlaces : List (String × String) := [
  (".power", "batteryPower"),
  (".state.value", "propState"),
  (".fuel.economy", "fuelConsumption"),
  (".drive.propeller.slip", "propSlip"),
  (".currentVolume", "tankVolume")]

def place (p : String) : Option (Option String × Nat) :=
  match places.lookup p with
  | some e => some e
  | none =>
    if ofInstance p then
      (instancePlaces.find? fun e => Text.endsWith p e.1).map fun e => (some e.2, 1)
    else none

def writer (p : String) : Option String := (place p).bind Prod.fst

def cogMagnetic : String := "navigation.courseOverGroundMagnetic"

def belowKeel : String := "environment.depth.belowKeel"

/-- The distance of a path, with that of the magnetic course over ground given: it is
measured where the true one is derived from it. -/
def rank (m : Nat) (p : String) : Nat :=
  if p = cogMagnetic then m else (place p).elim 0 Prod.snd

/-! The table has one entry for a path, and no path of an instance. -/

theorem lt_ofList {s t : List Char} (h : s < t) : Text.Lt (String.ofList s) (String.ofList t) := by
  simpa only [Text.Lt, String.toList_ofList] using h

theorem places_sorted : places.IsChain fun d e => Text.Lt d.1 e.1 := by
  simp only [places, List.isChain_cons_cons, List.isChain_singleton, and_true]
  repeat' apply And.intro
  all_goals exact lt_ofList (by decide)

theorem not_ofInstance (s : List Char)
    (h : (["electrical.batteries.".toList, "propulsion.".toList, "tanks.".toList].any fun f =>
      f.isPrefixOf s) = false) : ofInstance (String.ofList s) = false := by
  simpa [ofInstance, families, Text.startsWith] using h

theorem places_not_ofInstance : ∀ e ∈ places, ofInstance e.1 = false := by
  simp only [places, List.forall_mem_cons, List.not_mem_nil, false_imp_iff, implies_true,
    and_true]
  repeat' apply And.intro
  all_goals exact not_ofInstance _ rfl

instance : Trans Text.Lt Text.Lt Text.Lt where
  trans h h' := lt_trans h h'

theorem places_lookup {e : String × Option String × Nat} (h : e ∈ places) :
    places.lookup e.1 = some e.2 := by
  have hpair : (places.map Prod.fst).Pairwise Text.Lt := by
    rw [← List.isChain_iff_pairwise, List.isChain_map]
    exact places_sorted
  rw [List.pairwise_map] at hpair
  obtain ⟨l, r, hl⟩ := List.append_of_mem h
  refine List.lookup_eq_some_iff.mpr ⟨l, r, hl, fun d hd => ?_⟩
  rw [hl, List.pairwise_append] at hpair
  have hlt : Text.Lt d.1 e.1 := hpair.2.2 d hd e (.head r)
  rw [bne_iff_ne]
  intro he
  exact lt_irrefl _ (he ▸ hlt : Text.Lt e.1 e.1)

theorem place_of_mem {e : String × Option String × Nat} (h : e ∈ places) :
    place e.1 = some e.2 := by
  simp only [place, places_lookup h]

/-- The path is closer to the measurements than that; only the true course over ground is
derived from the magnetic one. -/
def Before (name : String) (k : Nat) (p : String) : Prop :=
  ∃ e, (p, e) ∈ places ∧ e.2 < k ∧ (p = cogMagnetic → name = "courseOverGroundTrue")

/-- The path is the calculator's own and not closer than that; the depth below the keel has
a second writer. -/
def After (name : String) (k : Nat) (p : String) : Prop :=
  ∃ e, (p, e) ∈ places ∧ (k ≤ e.2 ∨ p = cogMagnetic) ∧
    (e.1 = some name ∨ p = belowKeel ∧ name = "transducerToKeel")

/-- Where the inputs of a calculator without instances come from, and its outputs go. -/
structure Placed (c : Calculator) (k : Nat) (outputs : List String) : Prop where
  nodup : outputs.Nodup
  before : ∀ p ∈ c.inputs, Before c.name k p
  after : ∀ p ∈ outputs, After c.name k p

theorem Before.other {name p : String} {k j : Nat} {w : Option String} (h : (p, w, j) ∈ places)
    (hk : j < k) (hp : p ≠ cogMagnetic) : Before name k p :=
  ⟨(w, j), h, hk, fun he => absurd he hp⟩

theorem After.own {name p : String} {k j : Nat} (h : (p, some name, j) ∈ places)
    (hk : k ≤ j) : After name k p :=
  ⟨(some name, j), h, .inl hk, .inl rfl⟩

theorem cogMagnetic_before : Before "courseOverGroundTrue" 1 cogMagnetic :=
  ⟨_, by repeat (first | exact .head _ | apply List.Mem.tail), by decide, fun _ => rfl⟩

theorem cogMagnetic_after : After "courseOverGroundMagnetic" 2 cogMagnetic :=
  ⟨_, by repeat (first | exact .head _ | apply List.Mem.tail), .inr rfl, .inl rfl⟩

theorem belowKeel_after : After "transducerToKeel" 1 belowKeel :=
  ⟨_, by repeat (first | exact .head _ | apply List.Mem.tail), .inl (by decide), .inr ⟨rfl, rfl⟩⟩

theorem forall_cons {P : String → Prop} {a : String} {l : List String} (ha : P a)
    (hl : ∀ b ∈ l, P b) : ∀ b ∈ a :: l, P b :=
  List.forall_mem_cons.mpr ⟨ha, hl⟩

/-! The calculators themselves: what they read, what they write and how far from the
measurements. -/

/-- The calculators without instances, their distances and what they write. -/
def fixedCalculators [ExactMath] [Ephemeris] : List (Calculator × Nat × List String) := [
  (headingTrue, 1, ["navigation.headingTrue"]),
  (courseOverGroundMagnetic, 2, ["navigation.courseOverGroundMagnetic"]),
  (courseOverGroundTrue, 1, ["navigation.courseOverGroundTrue"]),
  (leewayAngle, 2, ["navigation.leewayAngle"]),
  (leeway, 1, ["navigation.leewayAngleHeel"]),
  (setDrift, 2, [
    "environment.current.drift",
    "environment.current.setTrue",
    "environment.current.setMagnetic",
    "environment.current.driftImpact"]),
  (trueWind, 2, [
    "environment.wind.directionTrue",
    "environment.wind.angleTrueWater",
    "environment.wind.speedTrue"]),
  (vmgWind, 3, ["performance.velocityMadeGood"]),
  (vmgStw, 3, ["performance.velocityMadeGoodWater"]),
  (windDirectionMagnetic, 3, ["environment.wind.directionMagnetic"]),
  (windDirectionMagnetic2, 1, ["environment.wind.directionMagneticApparent"]),
  (windGround, 1, ["environment.wind.angleTrueGround", "environment.wind.speedOverGround"]),
  (windGroundDirection, 2, ["environment.wind.directionGround"]),
  (courseBearing, 1, ["navigation.course.calcValues.bearingTrackTrue"]),
  (bearingMagnetic, 2, ["navigation.course.calcValues.bearingTrackMagnetic"]),
  (courseDistance, 1, ["navigation.course.calcValues.nextPoint.distance"]),
  (previousPointDistance, 1, ["navigation.course.calcValues.previousPoint.distance"]),
  (courseXte, 1, ["navigation.course.calcValues.crossTrackError"]),
  (vmgWaypoint, 2, ["navigation.course.calcValues.nextPoint.velocityMadeGood"]),
  (eta, 3, ["navigation.course.calcValues.nextPoint.estimatedTimeOfArrival"]),
  (steerError, 2, ["navigation.course.steerError"]),
  (airDensity, 1, ["environment.outside.airDensity"]),
  (dewPoint, 1, ["environment.outside.dewPointTemperature"]),
  (heatIndex, 1, ["environment.outside.heatIndexTemperature"]),
  (windChill, 1, ["environment.outside.apparentWindChillTemperature"]),
  (depthBelowKeel, 2, ["environment.depth.belowKeel"]),
  (depthBelowSurface, 3, ["environment.depth.belowSurface"]),
  (transducerToKeel, 1, ["environment.depth.transducerToKeel", "environment.depth.belowKeel"]),
  (suncalc, 1, ["environment.sunlight.azimuth", "environment.sunlight.altitude"]),
  (suntime, 1, [
    "environment.sunlight.times.sunrise",
    "environment.sunlight.times.sunset",
    "environment.sunlight.times.dawn",
    "environment.sunlight.times.dusk"]),
  (moon, 1, [
    "environment.moon.phase",
    "environment.moon.illumination",
    "environment.moon.age",
    "environment.moon.phaseName"])]

section
variable [ExactMath] [Ephemeris]

theorem fixedCalculators_fixed :
    ∀ e ∈ fixedCalculators, ∀ iter, Fixed e.1.inputs e.2.2 (e.1.calculate iter) := by
  simp only [fixedCalculators, List.forall_mem_cons]
  exact ⟨headingTrue_fixed, courseOverGroundMagnetic_fixed, courseOverGroundTrue_fixed,
    leewayAngle_fixed, leeway_fixed, setDrift_fixed, trueWind_fixed, vmgWind_fixed, vmgStw_fixed,
    windDirectionMagnetic_fixed, windDirectionMagnetic2_fixed, windGround_fixed,
    windGroundDirection_fixed, courseBearing_fixed, bearingMagnetic_fixed, courseDistance_fixed,
    previousPointDistance_fixed, courseXte_fixed, vmgWaypoint_fixed, eta_fixed, steerError_fixed,
    airDensity_fixed, dewPoint_fixed, heatIndex_fixed, windChill_fixed, depthBelowKeel_fixed,
    depthBelowSurface_fixed, transducerToKeel_fixed, suncalc_fixed, suntime_fixed, moon_fixed, fun _ h => nomatch h⟩

theorem fixedCalculators_order :
    ∀ e ∈ fixedCalculators, ∀ iter iter' m, e.1.calculate iter m = e.1.calculate iter' m := by
  simp only [fixedCalculators, List.forall_mem_cons]
  repeat' apply And.intro
  all_goals first
    | exact fun _ _ _ => rfl
    | exact fun _ h => nomatch h

theorem fixedCalculators_placed : ∀ e ∈ fixedCalculators, Placed e.1 e.2.1 e.2.2 := by
  simp only [fixedCalculators, List.forall_mem_cons]
  repeat' apply And.intro
  all_goals first
    | exact fun _ h => nomatch h
    | refine ⟨by simp, ?_, ?_⟩
  all_goals repeat' refine forall_cons ?_ ?_
  all_goals first
    | exact fun _ h => nomatch h
    | exact cogMagnetic_before
    | exact cogMagnetic_after
    | exact belowKeel_after
    | exact .other (by repeat (first | exact .head _ | apply List.Mem.tail)) (by decide)
        (by simp [cogMagnetic])
    | exact .own (by repeat (first | exact .head _ | apply List.Mem.tail)) (by decide)

end

/-! Instances -/

theorem instance_suffixes : ∀ a ∈ instanceInputs, ∀ e ∈ instancePlaces,
    Text.endsWith a e.1 = false ∧ Text.endsWith e.1 a = false := by
  simp only [instanceInputs, instancePlaces, List.forall_mem_cons]
  repeat' apply And.intro
  all_goals first
    | exact Text.endsWith_ofList _ _
    | exact fun _ h => nomatch h

theorem instancePlaces_suffixes : instancePlaces.Pairwise fun d e =>
    Text.endsWith d.1 e.1 = false ∧ Text.endsWith e.1 d.1 = false := by
  simp only [instancePlaces, List.pairwise_cons, List.forall_mem_cons]
  repeat' apply And.intro
  all_goals first
    | exact Text.endsWith_ofList _ _
    | exact fun _ h => nomatch h
    | exact List.Pairwise.nil

theorem lookup_instance {p : String} (h : ofInstance p = true) : places.lookup p = none := by
  rw [Option.eq_none_iff_forall_ne_some]
  intro e he
  obtain ⟨l, r, hl, -⟩ := List.lookup_eq_some_iff.mp he
  have hm : (p, e) ∈ places := hl ▸ List.mem_append_right l (.head r)
  rw [places_not_ofInstance (p, e) hm] at h
  cases h

theorem ne_cogMagnetic {p : String} (h : ofInstance p = true) : p ≠ cogMagnetic := by
  rintro rfl
  obtain ⟨e, he, -⟩ := cogMagnetic_before
  rw [places_not_ofInstance _ he] at h
  cases h

theorem rank_instance_input (m : Nat) {p suffix : String} (h : ofInstance p = true)
    (hs : suffix ∈ instanceInputs) (hp : Text.endsWith p suffix = true) : rank m p = 0 := by
  have hfind : instancePlaces.find? (fun e => Text.endsWith p e.1) = none := by
    rw [List.find?_eq_none]
    intro e he
    obtain ⟨h₁, h₂⟩ := instance_suffixes suffix hs e he
    simp [Text.endsWith_eq_false hp h₁ h₂]
  simp [rank, ne_cogMagnetic h, place, lookup_instance h, h, hfind]

theorem place_instance_output {pre family out name : String} (hf : family ∈ families)
    (hpre : Text.startsWith pre family = true) (hm : (out, name) ∈ instancePlaces) :
    ofInstance (pre ++ out) = true ∧ place (pre ++ out) = some (some name, 1) := by
  have hi : ofInstance (pre ++ out) = true :=
    List.any_eq_true.mpr ⟨family, hf, Text.startsWith_append_right hpre⟩
  refine ⟨hi, ?_⟩
  have hfind : instancePlaces.find? (fun e => Text.endsWith (pre ++ out) e.1) =
      some (out, name) := by
    obtain ⟨l, r, hl⟩ := List.append_of_mem hm
    refine List.find?_eq_some_iff_append.mpr ⟨Text.endsWith_append pre out, l, r, hl, ?_⟩
    intro d hd
    have hpair := instancePlaces_suffixes
    rw [hl, List.pairwise_append] at hpair
    obtain ⟨h₁, h₂⟩ := hpair.2.2 d hd (out, name) (.head r)
    simp [Text.endsWith_eq_false (Text.endsWith_append pre out) h₂ h₁]
  simp [place, lookup_instance hi, hi, hfind]

/-! All calculators -/

/-- A calculator's own path, or the depth below the keel. -/
def Writes (c : Calculator) (p : String) : Prop :=
  writer p = some c.name ∨ p = belowKeel ∧ c.name = "transducerToKeel"

/-- What a calculator computes depends on what it reads and ranks above it. -/
structure Traced (c : Calculator) : Prop where
  sound : Sound c.Reads (Writes c) c.calculate
  ranked : ∀ m iter values pv q, Gives c.calculate iter values pv → c.Reads q →
    (q = cogMagnetic → m = 0) → (pv.path = cogMagnetic → 2 ≤ m) → rank m q < rank m pv.path
  magnetic : c.Reads cogMagnetic → c.name = "courseOverGroundTrue"

theorem rank_of_mem {m : Nat} {p : String} {e : Option String × Nat} (h : (p, e) ∈ places) :
    rank m p = if p = cogMagnetic then m else e.2 := by
  simp [rank, place_of_mem h]

theorem Traced.of_fixed {c : Calculator} {k : Nat} {outputs : List String}
    (hfixed : ∀ iter, Fixed c.inputs outputs (c.calculate iter))
    (horder : ∀ iter iter' m, c.calculate iter m = c.calculate iter' m)
    (hplaced : Placed c k outputs) (hk : 0 < k) (hk2 : k ≤ 2 ∨ cogMagnetic ∉ outputs) :
    Traced c where
  sound := by
    refine .of_fixed hfixed horder (fun p hp => .inl hp) hplaced.nodup fun p hp => ?_
    obtain ⟨e, he, -, hw⟩ := hplaced.after p hp
    refine hw.imp_left fun hw => ?_
    rw [writer, place_of_mem he, Option.bind_some, hw]
  ranked m iter values pv q hg hq hqm hpm := by
    obtain ⟨results, hr, hpv⟩ := hg
    have hp : pv.path ∈ outputs :=
      ((hfixed iter).writing values results hr).subset (List.mem_map.mpr ⟨pv, hpv, rfl⟩)
    have hlow : rank m q < k := by
      rcases hq with hq | ⟨-, hi, suffix, hs, hsuf⟩
      · obtain ⟨e, he, hlt, -⟩ := hplaced.before q hq
        rw [rank_of_mem he]
        split_ifs with hc
        · rw [hqm hc]
          exact hk
        · exact hlt
      · rw [rank_instance_input m hi hs hsuf]
        exact hk
    have hhigh : k ≤ rank m pv.path := by
      obtain ⟨e, he, hle, -⟩ := hplaced.after pv.path hp
      rw [rank_of_mem he]
      split_ifs with hc
      · rcases hk2 with hk2 | hk2
        · exact hk2.trans (hpm hc)
        · exact absurd (hc ▸ hp) hk2
      · exact hle.resolve_right hc
    omega
  magnetic h := by
    rcases h with h | ⟨-, hi, -⟩
    · obtain ⟨e, -, -, hn⟩ := hplaced.before _ h
      exact hn rfl
    · exact absurd rfl (ne_cogMagnetic hi)

theorem Traced.of_instances {c : Calculator} {family out : String}
    (hs : Sound c.Reads (InstancePath family out) c.calculate) (hf : family ∈ families)
    (hout : (out, c.name) ∈ instancePlaces)
    (hin : ∀ p ∈ c.inputs, ∃ w, (p, w, 0) ∈ places ∧ p ≠ cogMagnetic) : Traced c where
  sound := by
    refine ⟨hs.order, hs.reading, hs.functional, fun iter m pv hg => ?_⟩
    obtain ⟨pre, hpre, hp⟩ := hs.writing iter m pv hg
    rw [Writes, hp, writer, (place_instance_output hf hpre hout).2]
    exact .inl rfl
  ranked m iter values pv q hg hq hqm hpm := by
    obtain ⟨pre, hpre, hp⟩ := hs.writing iter values pv hg
    obtain ⟨hi, hplace⟩ := place_instance_output hf hpre hout
    have hhigh : rank m pv.path = 1 := by
      simp [hp, rank, ne_cogMagnetic hi, hplace]
    have hlow : rank m q = 0 := by
      rcases hq with hq | ⟨-, hi, suffix, hs, hsuf⟩
      · obtain ⟨w, hw, hne⟩ := hin q hq
        rw [rank_of_mem hw, if_neg hne]
      · exact rank_instance_input m hi hs hsuf
    omega
  magnetic h := by
    rcases h with h | ⟨-, hi, -⟩
    · obtain ⟨w, -, hne⟩ := hin _ h
      exact absurd rfl hne
    · exact absurd rfl (ne_cogMagnetic hi)

section
variable [ExactMath] [Ephemeris]

theorem fixedCalculators_levels :
    ∀ e ∈ fixedCalculators, 0 < e.2.1 ∧ (e.2.1 ≤ 2 ∨ cogMagnetic ∉ e.2.2) := by
  simp [fixedCalculators, cogMagnetic]

/-- The others, which are the same however angles are reckoned. -/
def instanceCalculators : List Calculator :=
  [batteryPower, propState, fuelConsumption, propSlip, tankVolume]

theorem statelessCalculators_eq :
    statelessCalculators = fixedCalculators.map Prod.fst ++ instanceCalculators := rfl

omit [ExactMath] [Ephemeris] in
theorem instanceCalculators_traced : ∀ c ∈ instanceCalculators, Traced c := by
  simp only [instanceCalculators, List.forall_mem_cons]
  refine ⟨.of_instances batteryPower_sound ?_ ?_ ?_, .of_instances propState_sound ?_ ?_ ?_,
    .of_instances fuelConsumption_sound ?_ ?_ ?_, .of_instances propSlip_sound ?_ ?_ ?_,
    .of_instances tankVolume_sound ?_ ?_ ?_, fun _ h => nomatch h⟩
  all_goals first
    | exact .head _
    | exact .tail _ (.head _)
    | exact .tail _ (.tail _ (.head _))
    | repeat (first | exact List.Mem.head _ | apply List.Mem.tail)
  all_goals repeat' refine forall_cons ?_ ?_
  all_goals first
    | exact fun _ h => nomatch h
    | exact ⟨_, by repeat (first | exact .head _ | apply List.Mem.tail), by simp [cogMagnetic]⟩

theorem fixedCalculators_empty : ∀ e ∈ fixedCalculators, ∀ iter, e.1.calculate iter ∅ = none := by
  simp only [fixedCalculators, List.forall_mem_cons]
  repeat' apply And.intro
  all_goals first
    | exact fun _ => rfl
    | exact fun _ h => nomatch h

omit [ExactMath] [Ephemeris] in
theorem instanceCalculators_empty :
    ∀ c ∈ instanceCalculators, ∀ iter pv, ¬Gives c.calculate iter ∅ pv := by
  have hwalk : ∀ iter suffix family result pv,
      ¬∃ results, forInstances iter ∅ suffix family result = some results ∧ pv ∈ results := by
    intro iter suffix family result pv h
    obtain ⟨pre, j, hj, -⟩ := mem_forInstances.mp h
    simp at hj
  simp only [instanceCalculators, List.forall_mem_cons]
  refine ⟨?_, ?_, ?_, ?_, ?_, fun _ h => nomatch h⟩
  · intro iter pv
    dsimp only [Gives, batteryPower]
    exact hwalk iter _ _ _ pv
  · intro iter pv
    dsimp only [Gives, propState]
    exact hwalk iter _ _ _ pv
  · exact fun iter pv ⟨_, h, _⟩ => nomatch (h : none = some _)
  · exact fun iter pv ⟨_, h, _⟩ => nomatch (h : none = some _)
  · intro iter pv
    dsimp only [Gives, tankVolume]
    exact hwalk iter _ _ _ pv

/-- Nothing is computed out of nothing. -/
theorem silent_empty : ∀ c ∈ statelessCalculators, ∀ iter pv, ¬Gives c.calculate iter ∅ pv := by
  intro c hc iter pv hg
  rw [statelessCalculators_eq, List.mem_append] at hc
  rcases hc with hc | hc
  · obtain ⟨e, he, rfl⟩ := List.mem_map.mp hc
    obtain ⟨results, hr, -⟩ := hg
    rw [fixedCalculators_empty e he iter] at hr
    cases hr
  · exact instanceCalculators_empty c hc iter pv hg

theorem traced : ∀ c ∈ statelessCalculators, Traced c := by
  intro c hc
  rw [statelessCalculators_eq, List.mem_append] at hc
  rcases hc with hc | hc
  · obtain ⟨e, he, rfl⟩ := List.mem_map.mp hc
    obtain ⟨hk, hk2⟩ := fixedCalculators_levels e he
    exact .of_fixed (fixedCalculators_fixed e he) (fixedCalculators_order e he)
      (fixedCalculators_placed e he) hk hk2
  · exact instanceCalculators_traced c hc

theorem statelessCalculators_names : statelessCalculators.map (·.name) = [
    "headingTrue", "courseOverGroundMagnetic", "courseOverGroundTrue", "leewayAngle", "leeway",
    "setDrift", "trueWind", "vmgWind", "vmgStw", "windDirectionMagnetic",
    "windDirectionMagnetic2", "windGround", "windGroundDirection", "courseBearing",
    "bearingMagnetic", "courseDistance", "previousPointDistance", "courseXte", "vmgWaypoint",
    "eta", "steerError", "airDensity", "dewPoint", "heatIndex", "windChill", "depthBelowKeel",
    "depthBelowSurface", "transducerToKeel", "suncalc", "suntime", "moon", "batteryPower",
    "propState", "fuelConsumption", "propSlip", "tankVolume"] := rfl

theorem names_nodup : (statelessCalculators.map (·.name)).Nodup := by
  rw [statelessCalculators_names]
  simp

end

end SignalK.DerivedData

import SignalK.DerivedData.Rounds
import SignalK.Plugins.Host
import SignalK.Store.Latest

/-! What reaches the calculators: the subscription that the plugin opens at its start, and
the deltas it brings. -/
namespace SignalK.DerivedData

/-- windShift keeps the last direction of the wind and is no function of the snapshot. -/
inductive AnyCalculator where
  | stateless (c : Calculator)
  | windShift

namespace AnyCalculator

def name : AnyCalculator → String
  | stateless c => c.name
  | windShift => "windShift"

def inputs : AnyCalculator → List String
  | stateless c => c.inputs
  | windShift => ["environment.wind.directionTrue"]

/-- Some changed path is one that the calculator asks for, or below one. -/
def affected (changedPaths : List String) (c : AnyCalculator) : Bool :=
  c.inputs.any fun input => changedPaths.any fun cp => pathMatchesInput cp input

/-- A path is an input of the calculator, or below one. -/
def Reads (c : AnyCalculator) (path : String) : Prop :=
  ∃ input ∈ c.inputs, pathMatchesInput path input = true

theorem affected_of_reads {c : AnyCalculator} {path : String} (h : c.Reads path)
    {changedPaths : List String} (hp : path ∈ changedPaths) : c.affected changedPaths = true := by
  obtain ⟨input, hi, hm⟩ := h
  exact List.any_eq_true.mpr ⟨input, hi, List.any_eq_true.mpr ⟨path, hp, hm⟩⟩

end AnyCalculator

section
variable [ExactMath] [Ephemeris]

def allCalculators : List AnyCalculator :=
  (statelessCalculators.take 13).map .stateless ++
    .windShift :: (statelessCalculators.drop 13).map .stateless

/-- The calculators that a configuration leaves enabled. -/
def enabledOf (disabled : List String) : List AnyCalculator :=
  allCalculators.filter fun c => c.name ∉ disabled

theorem enabledOf_nil : enabledOf [] = allCalculators :=
  List.filter_eq_self.mpr fun _ _ => decide_eq_true List.not_mem_nil

/-- Every input once, in the order in which the calculators name them. -/
def inputPaths (enabled : List AnyCalculator) : List String :=
  (enabled.flatMap (·.inputs)).foldl (fun paths p => if p ∈ paths then paths else paths ++ [p]) []

/-- What `start` subscribes to. -/
def subscription (disabled : List String) : Option SubscriptionSpec :=
  let enabled := enabledOf disabled
  if enabled.isEmpty then none
  else some (SubscriptionSpec.selfVessel ((inputPaths enabled).map Subscription.ofPath))

end

/-- What the callback does with a delta before any calculator runs: the snapshot and the
changed paths, unless it has nothing to do. -/
def intake (snapshot : Values) (delta : Delta) : Option (Values × List String) :=
  let values := reports delta
  if values = [] then none else some (insertValues snapshot values, values.map (·.path))

theorem callback_intake (calcs : List Calculator) (snapshot : Values) (e : Delivery) :
    callback calcs snapshot e =
      match intake snapshot e.delta with
      | none => (snapshot, none)
      | some (snap, changedPaths) =>
        let r := fixpoint calcs ((List.range maxIterations).map e.rounds) snap changedPaths
        (r.1, emit e r.2) := by
  unfold callback intake
  by_cases h : reports e.delta = [] <;> simp [h]

/-! The inputs are literal patterns. -/

theorem mem_dedup (ps acc : List String) (p : String) :
    p ∈ ps.foldl (fun paths p => if p ∈ paths then paths else paths ++ [p]) acc ↔
      p ∈ acc ∨ p ∈ ps := by
  induction ps generalizing acc with
  | nil => simp
  | cons q ps ih =>
    rw [List.foldl_cons, ih]
    by_cases hq : q ∈ acc
    · rw [if_pos hq]
      constructor
      · rintro (h | h)
        · exact .inl h
        · exact .inr (List.mem_cons_of_mem _ h)
      · rintro (h | h)
        · exact .inl h
        · rcases List.mem_cons.mp h with rfl | h
          · exact .inl hq
          · exact .inr h
    · rw [if_neg hq]
      have hsnoc : p ∈ acc ++ [q] ↔ p ∈ acc ∨ p = q := by simp
      rw [hsnoc, List.mem_cons, or_assoc]

theorem mem_inputPaths {enabled : List AnyCalculator} {p : String} :
    p ∈ inputPaths enabled ↔ ∃ c ∈ enabled, p ∈ c.inputs := by
  rw [inputPaths, mem_dedup]
  simp

/-- Without wildcards a pattern matches itself alone. -/
theorem matchesParts_literal {ps : List String} (h : ∀ p ∈ ps, p ≠ "*" ∧ p ≠ "**")
    (qs : List String) : matchesParts ps qs = true ↔ ps = qs := by
  induction ps generalizing qs with
  | nil => cases qs <;> simp [matchesParts]
  | cons p ps ih =>
    obtain ⟨hstar, hall⟩ := h p List.mem_cons_self
    cases qs with
    | nil => simp [matchesParts, hall]
    | cons q qs =>
      have hrest := ih (fun p hp => h p (List.mem_cons_of_mem _ hp)) qs
      simp [matchesParts, hstar, hall, hrest]

theorem matchesPattern_literal {pattern : String}
    (h : ∀ p ∈ segments pattern, p ≠ "*" ∧ p ≠ "**") (path : String) :
    matchesPattern pattern path = true ↔ pattern = path :=
  (matchesParts_literal h _).trans (Text.split_injective '.').eq_iff

section
variable [ExactMath] [Ephemeris]

theorem inputs_literal {c : AnyCalculator} (hc : c ∈ allCalculators) :
    ∀ input ∈ c.inputs, ∀ p ∈ segments input, p ≠ "*" ∧ p ≠ "**" := by
  have h : (allCalculators.all fun c => c.inputs.all fun input => (segments input).all fun p =>
      p ≠ "*" && p ≠ "**") = true := rfl
  simp only [List.all_eq_true, Bool.and_eq_true, decide_eq_true_eq] at h
  exact h c hc

/-- The subscription asks for a delta when one of its paths is literally an input. -/
theorem matchesDelta_iff {disabled : List String} (delta : Delta) :
    (SubscriptionSpec.selfVessel ((inputPaths (enabledOf disabled)).map
        Subscription.ofPath)).matchesDelta delta = true ↔
      ∃ pv ∈ delta.pathValues, ∃ c ∈ enabledOf disabled, pv.path ∈ c.inputs := by
  have hpattern : ∀ path, (∃ pat ∈ inputPaths (enabledOf disabled),
      matchesPattern pat path = true) ↔ ∃ c ∈ enabledOf disabled, path ∈ c.inputs := by
    intro path
    constructor
    · rintro ⟨pat, hpat, hm⟩
      obtain ⟨c, hc, hi⟩ := mem_inputPaths.mp hpat
      have hliteral := inputs_literal (List.mem_filter.mp hc).1 pat hi
      exact ⟨c, hc, (matchesPattern_literal hliteral path).mp hm ▸ hi⟩
    · rintro ⟨c, hc, hi⟩
      have hliteral := inputs_literal (List.mem_filter.mp hc).1 path hi
      exact ⟨path, mem_inputPaths.mpr ⟨c, hc, hi⟩, (matchesPattern_literal hliteral path).mpr rfl⟩
  have hpaths : (SubscriptionSpec.selfVessel ((inputPaths (enabledOf disabled)).map
      Subscription.ofPath)).subscribe.map (·.path) = inputPaths (enabledOf disabled) := by
    simp [SubscriptionSpec.selfVessel, Subscription.ofPath, Function.comp_def]
  simp only [SubscriptionSpec.matchesDelta, hpaths, List.any_eq_true, hpattern]
  constructor
  · rintro ⟨u, hu, pv, hpv, h⟩
    exact ⟨pv, List.mem_flatMap.mpr ⟨u, hu, hpv⟩, h⟩
  · rintro ⟨pv, hpv, h⟩
    obtain ⟨u, hu, hv⟩ := List.mem_flatMap.mp hpv
    exact ⟨u, hu, pv, hv, h⟩

end

/-! A value of another source on its way to the calculators. -/

/-- The values of a delta with their sources. -/
def sourced (delta : Delta) : List (Source × PathValue) :=
  delta.updates.flatMap fun update => update.values.map (update.source, ·)

theorem sourced_values (delta : Delta) : (sourced delta).map Prod.snd = delta.pathValues := by
  simp [sourced, Delta.pathValues, List.map_flatMap, Function.comp_def]

theorem reports_sourced (delta : Delta) :
    reports delta = ((sourced delta).filter fun e => e.1.label ≠ label).map Prod.snd := by
  have hupdates : ∀ updates : List Update,
      (updates.filter fun u => u.source.label ≠ label).flatMap (·.values) =
        ((updates.flatMap fun u => u.values.map (u.source, ·)).filter
          fun e => e.1.label ≠ label).map Prod.snd := by
    intro updates
    induction updates with
    | nil => rfl
    | cons u updates ih =>
      rw [List.flatMap_cons, List.filter_append, List.map_append, ← ih]
      by_cases hl : u.source.label = label
      · simp [hl, List.filter_map, Function.comp_def]
      · simp [hl, List.filter_map, Function.comp_def]
  exact hupdates delta.updates

theorem valuesAt_eq (values : List PathValue) (path : String) :
    valuesAt values path = (values.filter fun pv => pv.path = path).map (·.value) := by
  induction values with
  | nil => rfl
  | cons pv values ih =>
    by_cases hp : pv.path = path <;> simp [valuesAt, hp, ← ih]

theorem lookup_insertValues_eq (values : List PathValue) (m : Values) (path : String) :
    (insertValues m values).lookup path = (valuesAt values path).getLast?.or (m.lookup path) := by
  induction values using List.reverseRecOn with
  | nil => rfl
  | append_singleton values pv ih =>
    have hlast : (insertValues m (values ++ [pv])).lookup path =
        if path = pv.path then some pv.value else (insertValues m values).lookup path := by
      rw [lookup_insertValues_append]
      exact HashMap.lookup_insert _ _ _ _
    rw [hlast, ih, valuesAt_append]
    by_cases hp : pv.path = path
    · simp [hp, valuesAt]
    · simp [hp, Ne.symm hp, valuesAt]

/-- Of what a delta has for a path the last comes from another source. -/
def LastOfOthers (delta : Delta) (path : String) (v : Json) : Prop :=
  ∃ e, ((sourced delta).filter fun e => e.2.path = path).getLast? = some e ∧
    e.1.label ≠ label ∧ e.2.value = v

theorem LastOfOthers.last {delta : Delta} {path : String} {v : Json}
    (h : LastOfOthers delta path v) :
    (valuesAt delta.pathValues path).getLast? = some v ∧
      (valuesAt (reports delta) path).getLast? = some v ∧
      path ∈ (reports delta).map (·.path) := by
  obtain ⟨e, he, hlabel, rfl⟩ := h
  obtain ⟨pre, hpre⟩ := List.getLast?_eq_some_iff.mp he
  have hpath : e.2.path = path := by
    have hmem : e ∈ (sourced delta).filter fun e => e.2.path = path := by simp [hpre]
    simpa using (List.mem_filter.mp hmem).2
  have hall : (delta.pathValues.filter fun pv => pv.path = path) = (pre ++ [e]).map Prod.snd := by
    rw [← hpre, ← sourced_values, List.filter_map]
    rfl
  have hothers : ((reports delta).filter fun pv => pv.path = path) =
      ((pre ++ [e]).filter fun e => e.1.label ≠ label).map Prod.snd := by
    rw [← hpre, reports_sourced, List.filter_map, List.filter_filter, List.filter_filter]
    congr 1
    exact List.filter_congr fun e _ => Bool.and_comm _ _
  refine ⟨?_, ?_, ?_⟩
  · rw [valuesAt_eq, hall]
    simp
  · rw [valuesAt_eq, hothers, List.filter_append]
    simp [hlabel]
  · have hmem : e.2 ∈ (reports delta).filter fun pv => pv.path = path := by
      rw [hothers, List.filter_append]
      simp [hlabel]
    exact List.mem_map.mpr ⟨e.2, (List.mem_filter.mp hmem).1, hpath⟩

section
variable [ExactMath] [Ephemeris] [JsonText]

/-- The store sets the path from another source: of what it accepts of a delta of the own
vessel for the path, the last is not the plugin's. -/
structure SetByOthers (clock : Nat → DateTime) (st : SignalKStore) (delta : Delta)
    (path : String) : Prop where
  own : vesselUri st.selfUri delta.context = some st.selfUri
  last : ∃ d ∈ (st.applyDelta clock delta).2, ∃ v, LastOfOthers d path v

/-- The store's broadcast comes to the callback, the snapshot gets the store's value, and
the first round runs every calculator that reads the path. -/
def Reaches (disabled : List String) (clock : Nat → DateTime) (st : SignalKStore)
    (delta : Delta) (path : String) : Prop :=
  ∃ spec, subscription disabled = some spec ∧
    ∃ d ∈ spec.received (st.applyDelta clock delta).2, ∀ snapshot, ∃ snap changedPaths,
      intake snapshot d = some (snap, changedPaths) ∧
      snap.lookup path = ((st.applyDelta clock delta).1.getSelfPath path).map (·.value) ∧
      ∀ c ∈ enabledOf disabled, c.Reads path → c.affected changedPaths = true

omit [ExactMath] [Ephemeris] in
/-- There is one broadcast for a delta at most. -/
theorem broadcast_single (clock : Nat → DateTime) (st : SignalKStore) (delta : Delta) {d : Delta}
    (hd : d ∈ (st.applyDelta clock delta).2) : (st.applyDelta clock delta).2 = [d] := by
  have hlength : (st.applyDelta clock delta).2.length ≤ 1 := by
    cases hu : vesselUri st.selfUri delta.context with
    | none => simp [SignalKStore.applyDelta, hu]
    | some uri =>
      simp only [SignalKStore.applyDelta, hu]
      split_ifs <;> simp
  obtain ⟨d', hd'⟩ := List.length_eq_one_iff.mp (le_antisymm hlength (List.length_pos_of_mem hd))
  rw [hd'] at hd ⊢
  rw [List.mem_singleton.mp hd]

/-- Every input of every enabled calculator reaches it from the deltas that spell the own
vessel "vessels.self", or not at all, and of which some accepted value has the very path of
an input. -/
theorem reaches_iff (disabled : List String) (clock : Nat → DateTime) (st : SignalKStore)
    (delta : Delta) (path : String) (hset : SetByOthers clock st delta path)
    (hread : ∃ c ∈ enabledOf disabled, c.Reads path) :
    Reaches disabled clock st delta path ↔
      delta.context.getD "vessels.self" = "vessels.self" ∧
        ∃ d ∈ (st.applyDelta clock delta).2, ∃ pv ∈ d.pathValues,
          ∃ c ∈ enabledOf disabled, pv.path ∈ c.inputs := by
  have hspec : subscription disabled = some (SubscriptionSpec.selfVessel
      ((inputPaths (enabledOf disabled)).map Subscription.ofPath)) := by
    obtain ⟨c, hc, -⟩ := hread
    have hne : ¬(enabledOf disabled).isEmpty = true := by
      rw [List.isEmpty_iff]
      exact List.ne_nil_of_mem hc
    simp only [subscription, if_neg hne]
  have hctx := Host.broadcast_context clock st delta
  constructor
  · rintro ⟨spec, hs, d, hd, -⟩
    obtain rfl := Option.some.inj (hspec.symm.trans hs)
    obtain ⟨hd, hr⟩ := List.mem_filter.mp hd
    rw [Host.receives_self, hctx d hd, Bool.and_eq_true] at hr
    exact ⟨of_decide_eq_true hr.1, d, hd, (matchesDelta_iff d).mp hr.2⟩
  · rintro ⟨hself, d, hd, hpv⟩
    refine ⟨_, hspec, d, List.mem_filter.mpr ⟨hd, ?_⟩, fun snapshot => ?_⟩
    · rw [Host.receives_self, hctx d hd, Bool.and_eq_true]
      exact ⟨decide_eq_true hself, (matchesDelta_iff d).mpr hpv⟩
    · obtain ⟨d', hd', v, hlast⟩ := hset.last
      have hone := broadcast_single clock st delta hd
      rw [hone] at hd'
      obtain rfl := List.mem_singleton.mp hd'
      obtain ⟨hstored, hreported, hchanged⟩ := hlast.last
      have hne : reports d' ≠ [] := by
        intro he
        rw [he] at hchanged
        cases hchanged
      refine ⟨_, _, if_neg hne, ?_, fun c _ hc => AnyCalculator.affected_of_reads hc hchanged⟩
      rw [lookup_insertValues_eq, hreported, st.getSelfPath_accepted clock delta hset.own, hone,
        List.flatMap_singleton, hstored]
      rfl

end

section
local instance : ExactMath := ExactMath.plain
local instance : Ephemeris := Ephemeris.unused
local instance : JsonText := JsonText.unused

def headingDelta : Delta :=
  Delta.selfVessel [⟨Source.plugin "compass", 0, [⟨"navigation.headingMagnetic", .ofF64 1⟩]⟩]

/-- A heading reaches what is computed of it. -/
theorem reaches_heading :
    Reaches [] (fun _ => 0) (SignalKStore.new "urn:mrn:1") headingDelta
      "navigation.headingMagnetic" := by
  have hstream : ((SignalKStore.new "urn:mrn:1").applyDelta (fun _ => 0) headingDelta).2 =
      [headingDelta] := by decide +kernel
  have hlast : LastOfOthers headingDelta "navigation.headingMagnetic" (.ofF64 1) :=
    ⟨_, rfl, by decide, rfl⟩
  have hset : SetByOthers (fun _ => 0) (SignalKStore.new "urn:mrn:1") headingDelta
      "navigation.headingMagnetic" :=
    ⟨by decide +kernel, headingDelta, by rw [hstream]; exact .head _, _, hlast⟩
  have hc : AnyCalculator.stateless headingTrue ∈ enabledOf [] := by
    rw [enabledOf_nil]
    exact .head _
  refine (reaches_iff [] _ _ headingDelta "navigation.headingMagnetic" hset
    ⟨_, hc, "navigation.headingMagnetic", .head _, rfl⟩).mpr ⟨rfl, headingDelta, ?_, ?_⟩
  · rw [hstream]
    exact .head _
  · exact ⟨_, .head _, _, hc, .head _⟩

def engineDelta : Delta :=
  Delta.selfVessel [⟨Source.plugin "engine", 0, [⟨"propulsion.main.revolutions", .ofF64 25⟩]⟩]

/-- An engine's revolutions are stored and reach neither propState nor propSlip. -/
theorem engine_unheard :
    ¬∀ disabled clock st delta path, SetByOthers clock st delta path →
      (∃ c ∈ enabledOf disabled, c.Reads path) → Reaches disabled clock st delta path := by
  intro h
  have hstream : ((SignalKStore.new "urn:mrn:1").applyDelta (fun _ => 0) engineDelta).2 =
      [engineDelta] := by decide +kernel
  have hlast : LastOfOthers engineDelta "propulsion.main.revolutions" (.ofF64 25) :=
    ⟨_, rfl, by decide, rfl⟩
  have hset : SetByOthers (fun _ => 0) (SignalKStore.new "urn:mrn:1") engineDelta
      "propulsion.main.revolutions" :=
    ⟨by decide +kernel, engineDelta, by rw [hstream]; exact .head _, _, hlast⟩
  have hread : ∃ c ∈ enabledOf [], c.Reads "propulsion.main.revolutions" := by
    refine ⟨.stateless propState, ?_, "propulsion", .head _, by decide +kernel⟩
    rw [enabledOf_nil]
    exact List.mem_of_getElem? (rfl : allCalculators[33]? = some (.stateless propState))
  obtain ⟨spec, hs, d, hd, -⟩ := h [] _ _ _ _ hset hread
  have hspec : subscription [] = some (SubscriptionSpec.selfVessel
      ((inputPaths (enabledOf [])).map Subscription.ofPath)) := by
    rw [subscription, enabledOf_nil]
    rfl
  obtain rfl := Option.some.inj (hspec.symm.trans hs)
  have hinputs : (allCalculators.all fun c =>
      decide ("propulsion.main.revolutions" ∉ c.inputs)) = true := by
    decide +kernel
  rw [hstream, SubscriptionSpec.received, List.mem_filter, List.mem_singleton] at hd
  obtain ⟨rfl, hreceived⟩ := hd
  rw [Host.receives_self, Bool.and_eq_true, matchesDelta_iff, enabledOf_nil] at hreceived
  obtain ⟨-, pv, hpv, c, hc, hinput⟩ := hreceived
  have hpath : pv.path = "propulsion.main.revolutions" := by
    rw [List.mem_singleton.mp hpv]
  rw [hpath] at hinput
  exact of_decide_eq_true (List.all_eq_true.mp hinputs c hc) hinput

end
end SignalK.DerivedData

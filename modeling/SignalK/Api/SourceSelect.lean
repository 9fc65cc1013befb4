import SignalK.Store.FullModel
import SignalK.Store.Replay

/-! `get_path`: a URL is followed through the JSON of the full model, or, with
`?source=`, looked up in what the own vessel's sources have sent. The first reads
the vessel from the URL and the second drops it. -/
namespace SignalK

def SignalKStore.setMetadata (st : SignalKStore) (path : String) (metadata : Metadata) :
    SignalKStore :=
  { st with metadata := st.metadata.insert path metadata }

/-- The calls that change the store or its metadata. -/
inductive StoreCall where
  | event (e : StoreEvent)
  | setMetadata (path : String) (metadata : Metadata)

/-- The writes that a call asks for, whether the store accepts them or not. -/
def StoreCall.writes [JsonText] (selfUri : String) : StoreCall → List Write
  | .event (.applyDelta _ delta) => deltaWrites selfUri delta
  | _ => []

/-- One call, with everything that it reports. -/
def SignalKStore.call [JsonText] (st : SignalKStore) (c : StoreCall) :
    SignalKStore × List Write :=
  match c with
  | .event e => ((st.step e).1, c.writes st.selfUri)
  | .setMetadata path metadata => (st.setMetadata path metadata, c.writes st.selfUri)

namespace SourceSelect

def setDisplayUnits (resolve : String → Option DisplayUnits) (path : String)
    (sv : SignalKValue) : SignalKValue :=
  match sv.meta_, resolve path with
  | some metadata, some units =>
    { sv with meta_ := some { metadata with displayUnits := some units } }
  | _, _ => sv

/-- `enrich_display_units`, given the resolver of the unit preferences if there are any. -/
def enrichDisplayUnits (unitPreferences : Option (String → Option DisplayUnits))
    (model : FullModel) : FullModel :=
  match unitPreferences with
  | none => model
  | some resolve =>
    { model with
      vessels := model.vessels.mapValues fun _ vessel =>
        { vessel with values := vessel.values.mapValues (setDisplayUnits resolve) } }

/-- Status 200 with a body, or status 404 with a message. -/
inductive Response where
  | ok (body : Json)
  | notFound (message : String)
  deriving DecidableEq

def Response.body : Response → Option Json
  | .ok body => some body
  | .notFound _ => none

def rawParts (urlPath : String) : List String :=
  (Text.split '/' urlPath).filter fun s => decide (s ≠ "")

/-- The path whose sources are looked up. -/
def skPath (parts : List String) : String :=
  if parts.length ≥ 2 ∧ parts.head? = some "vessels" then Text.join '.' (parts.drop 2)
  else Text.join '.' parts

/-- "vessels/self" is an alias of the own vessel. -/
def resolveSelf (selfUri : String) (parts : List String) : List String :=
  parts.mapIdx fun i p =>
    if p = "self" ∧ i = 1 ∧ parts.head? = some "vessels" then selfUri else p

/-- What a GET without a source is answered from. -/
def served (st : SignalKStore) (unitPreferences : Option (String → Option DisplayUnits))
    (sources : List (SourceRef × Json)) : FullModel :=
  enrichDisplayUnits unitPreferences (st.fullModel sources)

section
variable [LeafText] (st : SignalKStore)
  (unitPreferences : Option (String → Option DisplayUnits)) (sources : List (SourceRef × Json))
  (order : ModelOrder (served st unitPreferences sources))

def getPath (urlPath : String) (source : Option SourceRef) : Response :=
  let parts := rawParts urlPath
  let model := (served st unitPreferences sources).toValue order
  if parts = [] then .ok model
  else
    match source with
    | some sourceRef =>
      match st.getSelfPathBySource (skPath parts) sourceRef with
      | some val => .ok val.toValue
      | none =>
        .notFound ("No value for " ++ skPath parts ++ " from source " ++ sourceRef)
    | none =>
      match traverseJson model (resolveSelf st.selfUri parts) with
      | some value => .ok value
      | none => .notFound ("Path not found: " ++ urlPath)

end

/-! What the query parameter is for: one source of the leaf that the URL names. -/

/-- The vessel that a URL names. -/
def addressed (selfUri vessel : String) : String :=
  if vessel = "self" then selfUri else vessel

/-- The last value that a source has sent for a path of a vessel. -/
def lastReport (reports : List Write) (vessel path : String) (s : SourceRef) : Option Write :=
  (reports.filter fun w => w.vessel = vessel ∧ w.path = path ∧ w.source = s).getLast?

/-- The JSON of a leaf's per-source values. -/
def valuesJson [LeafText] (values : HashMap String SourceValue) : Json :=
  Json.ofFields ((LeafText.sourceOrder values).map fun e => (e.1, e.2.toValue))

/-- The leaf of a path in a model. -/
def leaf (model : FullModel) (vessel path : String) : Option SignalKValue :=
  (model.vessels.lookup vessel).bind fun data => data.values.lookup path

/-- What `?source=s` returns, `s` has reported for the path on the vessel; and where
the same URL without it shows the per-source values of the own vessel's leaf, both
have the same value and timestamp of `s`, or neither has any. -/
structure Selects [LeafText] (st : SignalKStore) (reports : List Write)
    (unitPreferences : Option (String → Option DisplayUnits)) (sources : List (SourceRef × Json))
    (order : ModelOrder (served st unitPreferences sources)) (urlPath vessel path : String)
    (s : SourceRef) : Prop where
  reported : ∀ body, getPath st unitPreferences sources order urlPath (some s) = .ok body →
    ∃ w ∈ reports, w.vessel = addressed st.selfUri vessel ∧ w.path = path ∧ w.source = s ∧
      body.get "value" = some w.value
  entry : addressed st.selfUri vessel = st.selfUri → ∀ sv values body,
    leaf (served st unitPreferences sources) st.selfUri path = some sv →
    sv.values = some values →
    getPath st unitPreferences sources order urlPath none = .ok body →
    body.get "values" = some (valuesJson values) → ∀ key ∈ ["value", "timestamp"],
      ((valuesJson values).get s).bind (·.get key) =
        (getPath st unitPreferences sources order urlPath (some s)).body.bind (·.get key)

/-! What is retained is what was last reported. -/

theorem lastReport_append (reports : List Write) (w : Write) (vessel path : String)
    (s : SourceRef) :
    lastReport (reports ++ [w]) vessel path s =
      if w.vessel = vessel ∧ w.path = path ∧ w.source = s then some w
      else lastReport reports vessel path s := by
  rw [lastReport, List.filter_append]
  by_cases hw : w.vessel = vessel ∧ w.path = path ∧ w.source = s
  · simp [hw]
  · simp [hw, lastReport]

theorem mem_of_lastReport {reports : List Write} {vessel path : String} {s : SourceRef}
    {w : Write} (h : lastReport reports vessel path s = some w) :
    w ∈ reports ∧ w.vessel = vessel ∧ w.path = path ∧ w.source = s := by
  have hmem := List.mem_of_getLast? h
  exact ⟨(List.mem_filter.mp hmem).1, of_decide_eq_true (List.mem_filter.mp hmem).2⟩

theorem record_apply (l : Ledger) (w : Write) (path : String) (s : SourceRef) :
    l.record w path s =
      if w.vessel = l.self ∧ w.path = path ∧ w.source = s then some w.entry
      else l.retained path s := by
  by_cases hself : w.vessel = l.self
  · rw [Ledger.record_self hself, Keyed.set₂_apply]
    simp [hself]
  · rw [Ledger.record_other hself]
    simp [hself]

/-- An eviction only removes. -/
theorem record_of_evict {l : Ledger} {now : DateTime} {w : Write} {path : String}
    {s : SourceRef} {v : SignalKValue} (h : l.evict now w path s = some v) :
    l.record w path s = some v := by
  by_cases hfresh : ∀ c, l.active w.vessel w.path = some c → l.stale now c = false
  · rwa [Ledger.evict_fresh hfresh] at h
  · push Not at hfresh
    obtain ⟨c, hc, hstale⟩ := hfresh
    rw [Ledger.evict_stale hc (by simpa using hstale), Keyed.set₂_apply] at h
    split_ifs at h
    exact h

/-- Every retained value is the last that its source has reported of the own vessel,
and no active value comes with per-source values. -/
structure Traced (l : Ledger) (reports : List Write) : Prop where
  retained : ∀ path s v, l.retained path s = some v →
    (lastReport reports l.self path s).map Write.entry = some v
  plain : ∀ uri path v, l.active uri path = some v → v.values = none

theorem Traced.write {l : Ledger} {reports : List Write} (h : Traced l reports)
    (tw : DateTime × Write) : Traced (l.write tw).1 (reports ++ [tw.2]) := by
  have hrecord : ∀ path s v, l.record tw.2 path s = some v →
      (lastReport (reports ++ [tw.2]) l.self path s).map Write.entry = some v := by
    intro path s v hv
    rw [record_apply] at hv
    rw [lastReport_append]
    by_cases hw : tw.2.vessel = l.self ∧ tw.2.path = path ∧ tw.2.source = s
    · rw [if_pos hw] at hv ⊢
      exact hv
    · rw [if_neg hw] at hv ⊢
      exact h.retained path s v hv
  constructor
  · intro path s v hv
    rw [Ledger.write_self]
    unfold Ledger.write at hv
    split at hv
    · exact hrecord path s v (record_of_evict hv)
    · exact hrecord path s v hv
  · intro uri path v hv
    rw [Ledger.write_active] at hv
    split_ifs at hv
    · rw [← Option.some.inj hv]
      rfl
    · exact h.plain uri path v hv

theorem Traced.exec {l : Ledger} {reports : List Write} (h : Traced l reports)
    (tws : List (DateTime × Write)) :
    Traced (Machine.exec Ledger.write l tws).1 (reports ++ tws.map Prod.snd) := by
  induction tws generalizing l reports with
  | nil => simpa [Machine.exec] using h
  | cons tw tws ih =>
    have hn := ih (h.write tw)
    rw [List.append_assoc] at hn
    exact hn

theorem new_traced (selfUri : String) : Traced (SignalKStore.new selfUri).ledger [] := by
  constructor
  · intro path s v hv
    simp [SignalKStore.ledger] at hv
  · intro uri path v hv
    simp [SignalKStore.ledger] at hv

section
variable [JsonText]

theorem call_selfUri (st : SignalKStore) (c : StoreCall) : (st.call c).1.selfUri = st.selfUri := by
  cases c with
  | event e => exact Replay.step_selfUri st e
  | setMetadata path metadata => rfl

/-- Each call adds what it reports. -/
theorem call_traced {st : SignalKStore} {reports : List Write} (h : Traced st.ledger reports)
    (c : StoreCall) : Traced (st.call c).1.ledger (reports ++ (st.call c).2) := by
  cases c with
  | setMetadata path metadata =>
    have hnone : (st.call (.setMetadata path metadata)).2 = [] := rfl
    rw [hnone, List.append_nil]
    exact ⟨h.retained, h.plain⟩
  | event e =>
    cases e with
    | applyDelta clock delta =>
      have hexec := h.exec (Machine.timed clock (deltaWrites st.selfUri delta))
      rw [← SignalKStore.applyDelta_ledger, Machine.timed_snd] at hexec
      exact hexec
    | setSourcePriorities priorities =>
      have hnone : (st.call (.event (.setSourcePriorities priorities))).2 = [] := rfl
      rw [hnone, List.append_nil]
      exact ⟨h.retained, h.plain⟩
    | setSourceTtls ttls =>
      have hnone : (st.call (.event (.setSourceTtls ttls))).2 = [] := rfl
      rw [hnone, List.append_nil]
      exact ⟨h.retained, h.plain⟩
    | setVesselIdentity uri name mmsi =>
      have hnone : (st.call (.event (.setVesselIdentity uri name mmsi))).2 = [] := rfl
      have hledger := st.setVesselIdentity_ledger uri name mmsi
      rw [hnone, List.append_nil, SignalKStore.call, SignalKStore.step, hledger]
      exact h

/-- The values that a run leaves, against everything reported on the way. -/
theorem run_traced (selfUri : String) (calls : List StoreCall) :
    let r := Machine.exec SignalKStore.call (SignalKStore.new selfUri) calls
    r.1.selfUri = selfUri ∧ Traced r.1.ledger r.2 := by
  intro r
  have hstep : ∀ (st : SignalKStore) (reports : List Write) (c : StoreCall),
      (fun (st : SignalKStore) reports => st.selfUri = selfUri ∧ Traced st.ledger reports)
        st reports → True →
      (fun (st : SignalKStore) reports => st.selfUri = selfUri ∧ Traced st.ledger reports)
        (st.call c).1 (reports ++ (st.call c).2) :=
    fun st reports c h _ => ⟨(call_selfUri st c).trans h.1, call_traced h.2 c⟩
  exact Machine.exec_inv hstep (h := []) ⟨rfl, new_traced selfUri⟩
    (Machine.meets_true SignalKStore.call (SignalKStore.new selfUri) calls)

end

/-! The two answers. -/

theorem rawParts_skPath (vessel : String) (parts : List String) :
    skPath ("vessels" :: vessel :: parts) = Text.join '.' parts := by
  simp [skPath]

theorem resolveSelf_vessel (selfUri vessel : String) (parts : List String) :
    resolveSelf selfUri ("vessels" :: vessel :: parts) =
      "vessels" :: addressed selfUri vessel :: parts := by
  have hrest : (parts.mapIdx fun i p =>
      if p = "self" ∧ i + 1 + 1 = 1 ∧ ("vessels" :: vessel :: parts).head? = some "vessels" then
        selfUri else p) = parts := by
    refine List.ext_getElem (by simp) fun i _ _ => ?_
    simp
  simp only [resolveSelf, List.mapIdx_cons, hrest]
  simp [addressed]

theorem valuesJson_get [LeafText]
    (horder : ∀ values, HashMap.IterOrder (LeafText.sourceOrder values) values)
    (values : HashMap String SourceValue) (s : SourceRef) :
    (valuesJson values).get s = (values.lookup s).map SourceValue.toValue := by
  let entries := (LeafText.sourceOrder values).map fun e => (e.1, e.2.toValue)
  have hmem := (horder values).mem_iff
  cases hv : values.lookup s with
  | none =>
    have hne : ∀ e ∈ entries, s ≠ e.1 := by
      intro e he hs
      obtain ⟨f, hf, rfl⟩ := List.mem_map.mp he
      have hsome := (hmem f.1 f.2).mp hf
      rw [← show s = f.1 from hs, hv] at hsome
      cases hsome
    exact SortedMap.get_foldl_insert_ne hne []
  | some v =>
    have hn : (entries.map Prod.fst).Nodup := by
      simpa [entries, Function.comp_def] using (horder values).nodup
    have he : (s, v.toValue) ∈ entries := List.mem_map.mpr ⟨(s, v), (hmem s v).mpr hv, rfl⟩
    exact SortedMap.get_foldl_insert hn he []

/-- A per-source value and the leaf of the same report show the same. -/
theorem sourceValue_get [LeafText] (v : SignalKValue) {key : String}
    (hkey : key ∈ ["value", "timestamp"]) :
    (SourceValue.toValue ⟨v.value, v.timestamp⟩).get key = v.toValue.get key := by
  obtain ⟨obj, hobj, hvalue, -, htime⟩ := v.toValue_fields
  simp only [List.mem_cons, List.not_mem_nil, or_false] at hkey
  cases hkey with
  | inl hk => simp [hk, hobj, Json.get, hvalue, SourceValue.toValue, Json.ofFields,
      SortedMap.get_insert]
  | inr hk => simp [hk, hobj, Json.get, htime, SourceValue.toValue, Json.ofFields]

theorem setDisplayUnits_values (resolve : String → Option DisplayUnits) (path : String)
    (sv : SignalKValue) : (setDisplayUnits resolve path sv).values = sv.values := by
  unfold setDisplayUnits
  split <;> rfl

theorem leaf_fullModel (st : SignalKStore) (sources : List (SourceRef × Json)) (path : String) :
    leaf (st.fullModel sources) st.selfUri path = (st.getSelfPath path).map (st.enrich path) := by
  cases hv : st.vessels.lookup st.selfUri <;>
    simp [leaf, SignalKStore.fullModel, HashMap.lookup_mapValues, hv, SignalKStore.modelVessel,
      SignalKStore.getSelfPath, SignalKStore.getVesselPath]

/-- The per-source values of a leaf are those that the store adds. -/
theorem leaf_served {st : SignalKStore} {unitPreferences : Option (String → Option DisplayUnits)}
    {sources : List (SourceRef × Json)} {path : String} {sv : SignalKValue}
    (h : leaf (served st unitPreferences sources) st.selfUri path = some sv) :
    ∃ active, st.getSelfPath path = some active ∧ sv.values = (st.enrich path active).values := by
  have hfull : ∃ full, leaf (st.fullModel sources) st.selfUri path = some full ∧
      sv.values = full.values := by
    cases unitPreferences with
    | none => exact ⟨sv, h, rfl⟩
    | some resolve =>
      have hmap : leaf (served st (some resolve) sources) st.selfUri path =
          (leaf (st.fullModel sources) st.selfUri path).map (setDisplayUnits resolve path) := by
        cases hv : (st.fullModel sources).vessels.lookup st.selfUri <;>
          simp [leaf, served, enrichDisplayUnits, HashMap.lookup_mapValues, hv]
      rw [hmap] at h
      obtain ⟨full, hfull, rfl⟩ := Option.map_eq_some_iff.mp h
      exact ⟨full, hfull, setDisplayUnits_values resolve path full⟩
  obtain ⟨full, hleaf, hvalues⟩ := hfull
  rw [leaf_fullModel] at hleaf
  obtain ⟨active, hactive, rfl⟩ := Option.map_eq_some_iff.mp hleaf
  exact ⟨active, hactive, hvalues⟩

theorem enrich_values {st : SignalKStore} {path : String} {active : SignalKValue}
    (hplain : active.values = none) {values : HashMap String SourceValue}
    (h : (st.enrich path active).values = some values) (s : SourceRef) :
    values.lookup s = (st.getSelfPathBySource path s).map fun v => ⟨v.value, v.timestamp⟩ := by
  cases hm : st.multiSource.lookup path with
  | none => simp [SignalKStore.enrich, hm, hplain] at h
  | some sourceMap =>
    simp only [SignalKStore.enrich, hm] at h
    split_ifs at h
    · rw [← Option.some.inj h, HashMap.lookup_mapValues]
      simp [SignalKStore.getSelfPathBySource, HashMap.lookup₂, hm]
    · simp [hplain] at h

section
variable [LeafText] {st : SignalKStore}
  {unitPreferences : Option (String → Option DisplayUnits)} {sources : List (SourceRef × Json)}
  (order : ModelOrder (served st unitPreferences sources)) {urlPath vessel : String}
  {parts : List String}

/-- With a source the vessel makes no difference. -/
theorem getPath_source (hurl : rawParts urlPath = "vessels" :: vessel :: parts) (s : SourceRef) :
    getPath st unitPreferences sources order urlPath (some s) =
      match st.getSelfPathBySource (Text.join '.' parts) s with
      | some v => .ok v.toValue
      | none => .notFound ("No value for " ++ Text.join '.' parts ++ " from source " ++ s) := by
  simp only [getPath, hurl, rawParts_skPath, List.cons_ne_nil, if_false]

/-- Without a source, a path that no other one disturbs is answered with the leaf of
the addressed vessel. -/
theorem getPath_leaf {path : String}
    (hurl : rawParts urlPath = "vessels" :: vessel :: segments path) {data : VesselData}
    (hdata : (served st unitPreferences sources).vessels.lookup (addressed st.selfUri vessel) =
      some data)
    (hsep : data.Separate) {sv : SignalKValue} (hsv : data.values.lookup path = some sv) :
    getPath st unitPreferences sources order urlPath none = .ok sv.toValue := by
  have hvalue := VesselData.traverse_value hsep (order.values_order _ data hdata) hsv
  have htraverse := FullModel.traverse_vessel _ order hdata (segments path)
  simp only [getPath, hurl, resolveSelf_vessel, htraverse, hvalue, List.cons_ne_nil, if_false]

/-- The own leaf's map and the own sources agree. -/
theorem entry_of_traced {reports : List Write} (ht : Traced st.ledger reports)
    (horder : ∀ values, HashMap.IterOrder (LeafText.sourceOrder values) values)
    (hurl : rawParts urlPath = "vessels" :: vessel :: parts) {sv : SignalKValue}
    {values : HashMap String SourceValue}
    (hleaf : leaf (served st unitPreferences sources) st.selfUri (Text.join '.' parts) = some sv)
    (hvalues : sv.values = some values) (s : SourceRef) {key : String}
    (hkey : key ∈ ["value", "timestamp"]) :
    ((valuesJson values).get s).bind (·.get key) =
      (getPath st unitPreferences sources order urlPath (some s)).body.bind (·.get key) := by
  obtain ⟨active, hactive, he⟩ := leaf_served hleaf
  have hplain := ht.plain st.selfUri _ active hactive
  rw [hvalues] at he
  rw [valuesJson_get horder, enrich_values hplain he.symm s, getPath_source order hurl]
  cases hv : st.getSelfPathBySource (Text.join '.' parts) s with
  | none => rfl
  | some v => simpa [Response.body] using sourceValue_get v hkey

end

theorem toValue_get_value [LeafText] (v : SignalKValue) : v.toValue.get "value" = some v.value := by
  obtain ⟨obj, hobj, hvalue, -⟩ := v.toValue_fields
  rw [hobj]
  exact hvalue

/-- The answer is a report of the named vessel if that is the own one, if there is no
answer, or by coincidence. -/
theorem reported_iff [LeafText] {st : SignalKStore} {reports : List Write}
    (ht : Traced st.ledger reports) {unitPreferences : Option (String → Option DisplayUnits)}
    {sources : List (SourceRef × Json)} (order : ModelOrder (served st unitPreferences sources))
    {urlPath vessel : String} {parts : List String}
    (hurl : rawParts urlPath = "vessels" :: vessel :: parts) (s : SourceRef) :
    (∀ body, getPath st unitPreferences sources order urlPath (some s) = .ok body →
      ∃ w ∈ reports, w.vessel = addressed st.selfUri vessel ∧ w.path = Text.join '.' parts ∧
        w.source = s ∧ body.get "value" = some w.value) ↔
      addressed st.selfUri vessel = st.selfUri ∨
      st.multiSource.lookup₂ (Text.join '.' parts) s = none ∨
      ∃ last, lastReport reports st.selfUri (Text.join '.' parts) s = some last ∧
        ∃ w ∈ reports, w.vessel = addressed st.selfUri vessel ∧ w.path = Text.join '.' parts ∧
          w.source = s ∧ w.value = last.value := by
  rw [getPath_source order hurl]
  cases hv : st.getSelfPathBySource (Text.join '.' parts) s with
  | none =>
    have hnone : st.multiSource.lookup₂ (Text.join '.' parts) s = none := hv
    simp [hnone]
  | some v =>
    have hsome : st.multiSource.lookup₂ (Text.join '.' parts) s = some v := hv
    obtain ⟨last, hlast, rfl⟩ := Option.map_eq_some_iff.mp (ht.retained _ s v hv)
    have hlast : lastReport reports st.selfUri (Text.join '.' parts) s = some last := hlast
    constructor
    · intro h
      obtain ⟨w, hw, hvessel, hpath, hsource, hvalue⟩ := h _ rfl
      rw [toValue_get_value] at hvalue
      have hsame : w.value = last.value := (Option.some.inj hvalue).symm
      exact .inr (.inr ⟨last, hlast, w, hw, hvessel, hpath, hsource, hsame⟩)
    · intro h body hok
      rw [← Response.ok.inj hok, toValue_get_value]
      obtain hown | hnone | ⟨last', hlast', w, hw, hvessel, hpath, hsource, hvalue⟩ := h
      · obtain ⟨hin, hvessel, hpath, hsource⟩ := mem_of_lastReport hlast
        exact ⟨last, hin, hvessel.trans hown.symm, hpath, hsource, rfl⟩
      · cases hsome.symm.trans hnone
      · obtain rfl := Option.some.inj (hlast.symm.trans hlast')
        exact ⟨w, hw, hvessel, hpath, hsource, congrArg some hvalue.symm⟩

/-- In every state that the store's calls lead to, a read of one source is right exactly
when the URL names the own vessel, or the own vessel has no value of the source at the
path, or the source has also reported its last value there for the named vessel. -/
theorem selects_iff [JsonText] [LeafText]
    (horder : ∀ values, HashMap.IterOrder (LeafText.sourceOrder values) values)
    (selfUri : String) (calls : List StoreCall)
    (unitPreferences : Option (String → Option DisplayUnits)) :
    let r := Machine.exec SignalKStore.call (SignalKStore.new selfUri) calls
    ∀ (sources : List (SourceRef × Json)) (order : ModelOrder (served r.1 unitPreferences sources))
      (urlPath vessel : String) (parts : List String) (s : SourceRef),
      rawParts urlPath = "vessels" :: vessel :: parts →
      (Selects r.1 r.2 unitPreferences sources order urlPath vessel (Text.join '.' parts) s ↔
        addressed selfUri vessel = selfUri ∨
        r.1.multiSource.lookup₂ (Text.join '.' parts) s = none ∨
        ∃ last, lastReport r.2 selfUri (Text.join '.' parts) s = some last ∧
          ∃ w ∈ r.2, w.vessel = addressed selfUri vessel ∧ w.path = Text.join '.' parts ∧
            w.source = s ∧ w.value = last.value) := by
  intro r sources order urlPath vessel parts s hurl
  obtain ⟨hself, ht⟩ := run_traced selfUri calls
  have hself : r.1.selfUri = selfUri := hself
  have hiff := reported_iff ht order hurl s
  rw [← hself]
  constructor
  · exact fun h => hiff.mp h.reported
  · intro h
    refine ⟨hiff.mpr h, ?_⟩
    intro _ sv values _ hleaf hvalues _ _ key hkey
    exact entry_of_traced order ht horder hurl hleaf hvalues s hkey

theorem nonempty_order (model : FullModel) : Nonempty (ModelOrder model) := by
  have hvessels := Classical.choose_spec (HashMap.exists_iterOrder model.vessels)
  let values : String → List (String × SignalKValue) := fun uri =>
    ((model.vessels.lookup uri).map fun vessel =>
      Classical.choose (HashMap.exists_iterOrder vessel.values)).getD []
  refine ⟨⟨_, values, hvessels, fun uri vessel hv => ?_⟩⟩
  simp only [values, hv, Option.map_some, Option.getD_some]
  exact Classical.choose_spec (HashMap.exists_iterOrder vessel.values)

/-! The own speed by GPS and plotter, and the speed of another vessel by AIS. -/

section
local instance noTextOfSources : JsonText := JsonText.unused

local instance ascendingText : LeafText where
  timestamp _ := "1970-01-01T00:00:00Z"
  metadata _ := .null
  sourceOrder := HashMap.ascending

def sogCall (context : Option String) (source : Source) (sog : ℚ) : StoreCall :=
  .event (.applyDelta (fun _ => 0)
    ⟨context, [⟨source, 0, [⟨"navigation.speedOverGround", .ofF64 sog⟩]⟩]⟩)

def sogCalls : List StoreCall :=
  [sogCall none (.nmea0183 "ttyUSB0" "GP") 3, sogCall none (.plugin "plotter") 4,
    sogCall (some "vessels.urn:mrn:imo:mmsi:230099999") (.plugin "ais") 5]

def sogRun : SignalKStore × List Write :=
  Machine.exec SignalKStore.call (SignalKStore.new "urn:mrn:signalk:uuid:test") sogCalls

/-- Asked for the other vessel's speed by GPS, the server answers with its own. -/
theorem own_speed_for_other :
    ¬ ∀ order : ModelOrder (served sogRun.1 none []),
      Selects sogRun.1 sogRun.2 none [] order
        "vessels/urn:mrn:imo:mmsi:230099999/navigation/speedOverGround"
        "urn:mrn:imo:mmsi:230099999" "navigation.speedOverGround" "ttyUSB0.GP" := by
  intro h
  obtain ⟨order⟩ := nonempty_order (served sogRun.1 none [])
  have hurl : rawParts "vessels/urn:mrn:imo:mmsi:230099999/navigation/speedOverGround" =
      "vessels" :: "urn:mrn:imo:mmsi:230099999" :: ["navigation", "speedOverGround"] := by
    decide +kernel
  have hown : sogRun.1.getSelfPathBySource "navigation.speedOverGround" "ttyUSB0.GP" =
      some (.new (.ofF64 3) "ttyUSB0.GP" 0) := by decide +kernel
  have hnone : ∀ w ∈ sogRun.2, w.vessel = addressed sogRun.1.selfUri "urn:mrn:imo:mmsi:230099999" →
      w.source ≠ "ttyUSB0.GP" := by decide +kernel
  have hanswer := getPath_source order hurl "ttyUSB0.GP"
  rw [show Text.join '.' ["navigation", "speedOverGround"] = "navigation.speedOverGround" by
    decide +kernel, hown] at hanswer
  obtain ⟨w, hw, hvessel, -, hsource, -⟩ := (h order).reported _ hanswer
  exact hnone w hw hvessel hsource

theorem selects_iff_own :
    ∃ order : ModelOrder (served sogRun.1 none []),
      Selects sogRun.1 sogRun.2 none [] order "vessels/self/navigation/speedOverGround" "self"
        "navigation.speedOverGround" "ttyUSB0.GP" := by
  obtain ⟨order⟩ := nonempty_order (served sogRun.1 none [])
  have hiff := selects_iff HashMap.ascending_order "urn:mrn:signalk:uuid:test" sogCalls none [] order
    "vessels/self/navigation/speedOverGround" "self" ["navigation", "speedOverGround"]
    "ttyUSB0.GP" (by decide +kernel)
  rw [show Text.join '.' ["navigation", "speedOverGround"] = "navigation.speedOverGround" by
    decide +kernel] at hiff
  exact ⟨order, hiff.mpr (.inl rfl)⟩

end

end SourceSelect
end SignalK

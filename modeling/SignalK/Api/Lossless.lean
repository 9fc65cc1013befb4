import SignalK.Store.FullModel
import SignalK.Store.Replay

/-! Reading every stored value back through the nested JSON of the full model.
The nesting loses values when one path is a prefix of another, and when a path
starts with an identity field of the vessel. -/
namespace SignalK.Lossless

/-- The self vessel as the store holds it. -/
def selfVessel (st : SignalKStore) : VesselData :=
  (st.vessels.lookup st.selfUri).getD VesselData.empty

/-- Whatever the order of iteration, every active self value and every identity
string is found in the JSON of the full model. -/
def Faithful [LeafText] (st : SignalKStore) : Prop :=
  ∀ (sources : List (SourceRef × Json)) (order : ModelOrder (st.fullModel sources)),
    (∀ path sv, st.getSelfPath path = some sv → ∃ obj,
      traverseJson ((st.fullModel sources).toValue order)
        ("vessels" :: st.selfUri :: segments path) = some (.object obj) ∧
      SortedMap.get "value" obj = some sv.value ∧
      SortedMap.get "$source" obj = some (.string sv.source) ∧
      SortedMap.get "timestamp" obj = some (.string (LeafText.timestamp sv.timestamp))) ∧
    ∀ key s, (selfVessel st).idField key = some s →
      traverseJson ((st.fullModel sources).toValue order) ["vessels", st.selfUri, key] =
        some (.string s)

/-- No path is a prefix of another and none starts with one of the keys. -/
def Apart (paths keys : String → Prop) : Prop :=
  (∀ p q, paths p → paths q → p ≠ q → ¬ segments p <+: segments q) ∧
    ∀ p key, paths p → keys key → (segments p).head? ≠ some key

theorem Apart.mono {paths paths' keys keys' : String → Prop} (h : Apart paths keys)
    (hp : ∀ p, paths' p → paths p) (hk : ∀ key, keys' key → keys key) : Apart paths' keys' :=
  ⟨fun p q hpp hpq => h.1 p q (hp p hpp) (hp q hpq),
    fun p key hpp hkk => h.2 p key (hp p hpp) (hk key hkk)⟩

def selfPaths (st : SignalKStore) (path : String) : Prop :=
  (st.getSelfPath path).isSome

def selfKeys (st : SignalKStore) (key : String) : Prop :=
  ((selfVessel st).idField key).isSome

/-- The paths that a delta writes to the self vessel. -/
def deltaPaths [JsonText] (st : SignalKStore) (delta : Delta) (path : String) : Prop :=
  ∃ w ∈ deltaWrites st.selfUri delta, w.vessel = st.selfUri ∧ w.path = path

/-- An event leaves the self vessel's paths apart: those that are active or that
the delta writes, and the identity fields that are set or that the call sets. -/
def KeepsApart [JsonText] (st : SignalKStore) : StoreEvent → Prop
  | .applyDelta _ delta =>
    Apart (fun p => selfPaths st p ∨ deltaPaths st delta p) (selfKeys st)
  | .setVesselIdentity uri name mmsi =>
    uri = st.selfUri → Apart (selfPaths st) fun key =>
      selfKeys st key ∨ key = "name" ∧ name.isSome ∨ key = "mmsi" ∧ mmsi.isSome
  | _ => True

/-! One state. -/

/-- A store whose self paths are apart serves them all. -/
theorem faithful_of_apart [LeafText] {st : SignalKStore}
    (h : Apart (selfPaths st) (selfKeys st)) : Faithful st := by
  intro sources order
  cases hv : st.vessels.lookup st.selfUri with
  | none =>
    constructor
    · intro path sv hsv
      simp [SignalKStore.getSelfPath, SignalKStore.getVesselPath, hv] at hsv
    · intro key s hs
      simp [selfVessel, hv, VesselData.empty, VesselData.idField] at hs
  | some vessel =>
    let model : VesselData := { vessel with values := vessel.values.mapValues st.enrich }
    have hself : ∀ path, st.getSelfPath path = vessel.values.lookup path := by
      intro path
      simp [SignalKStore.getSelfPath, SignalKStore.getVesselPath, hv]
    have hmodel : (st.fullModel sources).vessels.lookup st.selfUri = some model := by
      simp [SignalKStore.fullModel, HashMap.lookup_mapValues, hv, SignalKStore.modelVessel, model]
    have hlookup : ∀ path, model.values.lookup path =
        (st.getSelfPath path).map (st.enrich path) := by
      intro path
      rw [hself]
      exact HashMap.lookup_mapValues _ _ _
    have hpaths : ∀ path, path ∈ model.values → selfPaths st path := by
      intro path hp
      obtain ⟨sv, hsv⟩ := Finmap.mem_iff.mp hp
      rw [hlookup] at hsv
      obtain ⟨sv', hsv', -⟩ := Option.map_eq_some_iff.mp hsv
      simp [selfPaths, hsv']
    have hids : ∀ key, model.idField key = (selfVessel st).idField key := by
      intro key
      simp [selfVessel, hv, model, VesselData.idField]
    have hsep : model.Separate := by
      constructor
      · exact fun p hp q hq => h.1 p q (hpaths p hp) (hpaths q hq)
      · intro p hp key s hs
        rw [hids] at hs
        exact h.2 p key (hpaths p hp) (by simp [selfKeys, hs])
    have ho := order.values_order st.selfUri model hmodel
    constructor
    · intro path sv hsv
      obtain ⟨obj, hobj, hvalue, hsource, htime⟩ := (st.enrich path sv).toValue_fields
      have hfound := VesselData.traverse_value hsep ho (by rw [hlookup, hsv]; rfl)
      rw [hobj] at hfound
      exact ⟨obj, (FullModel.traverse_vessel _ order hmodel _).trans hfound, hvalue, hsource, htime⟩
    · intro key s hs
      rw [FullModel.traverse_vessel _ order hmodel]
      have hget := VesselData.get_identity hsep ho (by rw [hids, hs])
      have ho := Nested.traverse_object (model.toFields (order.values st.selfUri)) key []
      rw [hget] at ho
      exact ho

/-! Runs. -/

/-- The identity fields of a vessel. -/
def idOf (st : SignalKStore) (uri key : String) : Option String :=
  ((st.vessels.lookup uri).getD VesselData.empty).idField key

theorem idOf_alter {vessels : HashMap String VesselData} (target : String)
    {f : VesselData → VesselData} (hf : ∀ vessel key, (f vessel).idField key = vessel.idField key)
    (uri key : String) :
    (((vessels.alter target VesselData.empty f).lookup uri).getD VesselData.empty).idField key =
      ((vessels.lookup uri).getD VesselData.empty).idField key := by
  rw [HashMap.lookup_alter]
  by_cases hu : uri = target
  · rw [if_pos hu, hu]
    exact hf _ key
  · rw [if_neg hu]

theorem applyValue_idOf (st : SignalKStore) (target : String) (sourceRef : SourceRef)
    (timestamp now : DateTime) (pv : PathValue) (uri key : String) :
    idOf (st.applyValue target sourceRef timestamp now pv).1 uri key = idOf st uri key := by
  have hset : ∀ value, (((st.setActive target pv.path value).lookup uri).getD
      VesselData.empty).idField key = idOf st uri key := by
    intro value
    exact idOf_alter target (f := fun vessel =>
      { vessel with values := vessel.values.insert pv.path value }) (fun _ _ => rfl) uri key
  unfold SignalKStore.applyValue
  dsimp only
  split
  · exact hset _
  · rfl

theorem applyValues_idOf (target : String) (sourceRef : SourceRef) (timestamp : DateTime)
    (clock : Nat → DateTime) (st : SignalKStore) (pvs : List PathValue) (uri key : String) :
    idOf (SignalKStore.applyValues target sourceRef timestamp clock st pvs).1 uri key =
      idOf st uri key := by
  induction pvs generalizing clock st with
  | nil => rfl
  | cons pv pvs ih =>
    exact (ih _ _).trans (applyValue_idOf st target sourceRef timestamp _ pv uri key)

theorem applyUpdates_idOf [JsonText] (target : String) (clock : Nat → DateTime)
    (st : SignalKStore) (updates : List Update) (uri key : String) :
    idOf (SignalKStore.applyUpdates target clock st updates).1 uri key = idOf st uri key := by
  induction updates generalizing clock st with
  | nil => rfl
  | cons update updates ih =>
    exact (ih _ _).trans
      (applyValues_idOf target _ _ clock (st.registerSource update.source) _ uri key)

/-- Deltas never touch what a vessel is called. -/
theorem applyDelta_idOf [JsonText] (clock : Nat → DateTime) (st : SignalKStore) (delta : Delta)
    (uri key : String) : idOf (st.applyDelta clock delta).1 uri key = idOf st uri key := by
  cases hu : vesselUri st.selfUri delta.context with
  | none => simp [SignalKStore.applyDelta, hu]
  | some target =>
    have hupdates := applyUpdates_idOf target clock
      { st with vessels := st.vessels.alter target VesselData.empty id } delta.updates uri key
    have hall := hupdates.trans (idOf_alter target (fun _ _ => rfl) uri key)
    unfold SignalKStore.applyDelta
    rw [hu]
    dsimp only
    split
    · exact hall
    · exact hall

/-- Only written paths become active. -/
theorem applyDelta_paths [JsonText] (clock : Nat → DateTime) (st : SignalKStore) (delta : Delta)
    {path : String} (h : selfPaths (st.applyDelta clock delta).1 path) :
    selfPaths st path ∨ deltaPaths st delta path := by
  have hself : (st.applyDelta clock delta).1.selfUri = st.selfUri :=
    Replay.step_selfUri st (.applyDelta clock delta)
  have hactive := congrArg Ledger.active (st.applyDelta_ledger clock delta)
  rw [Ledger.exec_active] at hactive
  have hfold : ∀ (ws : List Write) (active : String → String → Option SignalKValue),
      ((ws.foldl (fun active w => Keyed.set₂ active w.vessel w.path (some w.entry)) active)
        st.selfUri path).isSome →
      (active st.selfUri path).isSome ∨ ∃ w ∈ ws, w.vessel = st.selfUri ∧ w.path = path := by
    intro ws
    induction ws with
    | nil => exact fun _ h => .inl h
    | cons w ws ih =>
      intro active h
      cases ih _ h with
      | inl h =>
        simp only [Keyed.set₂_apply] at h
        by_cases hw : w.vessel = st.selfUri ∧ w.path = path
        · exact .inr ⟨w, List.mem_cons_self, hw⟩
        · rw [if_neg hw] at h
          exact .inl h
      | inr h =>
        obtain ⟨v, hv, hrest⟩ := h
        exact .inr ⟨v, List.mem_cons_of_mem _ hv, hrest⟩
  have hpath : ((st.applyDelta clock delta).1.ledger.active st.selfUri path).isSome := by
    rw [selfPaths, SignalKStore.getSelfPath, hself] at h
    exact h
  rw [hactive] at hpath
  refine (hfold _ _ hpath).imp_right fun h => ?_
  obtain ⟨w, hw, hrest⟩ := h
  have hmem := Ledger.exec_emitted hw
  rw [Machine.timed_snd] at hmem
  exact ⟨w, hmem, hrest⟩

theorem setVesselIdentity_idOf (st : SignalKStore) (uri : String) (name mmsi : Option String)
    {vessel key : String} (h : (idOf (st.setVesselIdentity uri name mmsi) vessel key).isSome) :
    (idOf st vessel key).isSome ∨
      uri = vessel ∧ (key = "name" ∧ name.isSome ∨ key = "mmsi" ∧ mmsi.isSome) := by
  cases hv : st.vessels.lookup uri with
  | none =>
    have hsame : st.setVesselIdentity uri name mmsi = st := by
      simp [SignalKStore.setVesselIdentity, hv]
    rw [hsame] at h
    exact .inl h
  | some data =>
    have hvessels : (st.setVesselIdentity uri name mmsi).vessels = st.vessels.insert uri
        { data with name := name.or data.name, mmsi := mmsi.or data.mmsi } := by
      simp [SignalKStore.setVesselIdentity, hv]
    rw [idOf, hvessels, HashMap.lookup_insert] at h
    by_cases hu : vessel = uri
    · rw [if_pos hu] at h
      rw [idOf, hu, hv]
      cases name <;> cases mmsi <;> simp_all [VesselData.idField] <;> grind
    · rw [if_neg hu] at h
      exact .inl h

theorem setVesselIdentity_keys (st : SignalKStore) (uri : String) (name mmsi : Option String)
    {key : String} (h : selfKeys (st.setVesselIdentity uri name mmsi) key) :
    selfKeys st key ∨ uri = st.selfUri ∧
      (key = "name" ∧ name.isSome ∨ key = "mmsi" ∧ mmsi.isSome) := by
  have hself : (st.setVesselIdentity uri name mmsi).selfUri = st.selfUri := by
    unfold SignalKStore.setVesselIdentity
    split <;> rfl
  rw [selfKeys, selfVessel, hself] at h
  exact setVesselIdentity_idOf st uri name mmsi h

theorem step_apart [JsonText] {st : SignalKStore} {e : StoreEvent}
    (h : Apart (selfPaths st) (selfKeys st)) (he : KeepsApart st e) :
    Apart (selfPaths (st.step e).1) (selfKeys (st.step e).1) := by
  cases e with
  | applyDelta clock delta =>
    have hself : (st.applyDelta clock delta).1.selfUri = st.selfUri :=
      Replay.step_selfUri st (.applyDelta clock delta)
    refine he.mono (fun p hp => applyDelta_paths clock st delta hp) fun key hk => ?_
    have hid := applyDelta_idOf clock st delta st.selfUri key
    rw [SignalKStore.step, selfKeys, selfVessel, hself] at hk
    rw [selfKeys, selfVessel, ← idOf, ← hid]
    exact hk
  | setSourcePriorities priorities => exact h
  | setSourceTtls ttls => exact h
  | setVesselIdentity uri name mmsi =>
    have hself : (st.setVesselIdentity uri name mmsi).selfUri = st.selfUri :=
      Replay.step_selfUri st (.setVesselIdentity uri name mmsi)
    have hactive := congrArg Ledger.active (st.setVesselIdentity_ledger uri name mmsi)
    have hpaths : ∀ p, selfPaths (st.setVesselIdentity uri name mmsi) p → selfPaths st p := by
      intro p hp
      have hrow : (st.setVesselIdentity uri name mmsi).getVesselPath st.selfUri p =
          st.getVesselPath st.selfUri p := congrFun (congrFun hactive st.selfUri) p
      rw [selfPaths, SignalKStore.getSelfPath, hself, hrow] at hp
      exact hp
    by_cases hu : uri = st.selfUri
    · exact (he hu).mono hpaths fun key hk =>
        (setVesselIdentity_keys st uri name mmsi hk).imp_right And.right
    · exact h.mono hpaths fun key hk =>
        (setVesselIdentity_keys st uri name mmsi hk).resolve_right fun hand => hu hand.1

/-- In every run that keeps the self paths apart, the full model serves every
active self value and the vessel's identity. -/
theorem run_faithful [JsonText] [LeafText] (selfUri : String) (events : List StoreEvent)
    (h : Machine.Meets SignalKStore.step KeepsApart (SignalKStore.new selfUri) events) :
    Faithful (Machine.run SignalKStore.step (SignalKStore.new selfUri) events) := by
  have hnew : Apart (selfPaths (SignalKStore.new selfUri))
      (selfKeys (SignalKStore.new selfUri)) := by
    have hno : ∀ p, ¬ selfPaths (SignalKStore.new selfUri) p := by
      intro p hp
      simp [selfPaths, SignalKStore.getSelfPath] at hp
    exact ⟨fun p _ hp => absurd hp (hno p), fun p _ hp => absurd hp (hno p)⟩
  have hstep : ∀ st e, Apart (selfPaths st) (selfKeys st) → KeepsApart st e →
      Apart (selfPaths (st.step e).1) (selfKeys (st.step e).1) :=
    fun _ _ hst he => step_apart hst he
  exact faithful_of_apart (Machine.run_inv hstep hnew h)

section
local instance : JsonText := JsonText.unused
local instance : LeafText := LeafText.plain "1970-01-01T00:00:00Z"

/-- A self delta from a plugin at the epoch. -/
def pluginDelta (pvs : List PathValue) : StoreEvent :=
  .applyDelta (fun _ => 0) (Delta.selfVessel [⟨Source.plugin "pilot", 0, pvs⟩])

theorem run_faithful_siblings :
    Faithful (Machine.run SignalKStore.step (SignalKStore.new "u")
      [pluginDelta [⟨"steering.autopilot.state", .string "auto"⟩,
        ⟨"steering.autopilot.target", Json.ofF64 1⟩]]) := by
  refine run_faithful "u" _ ⟨?_, trivial⟩
  have hpaths : ∀ p, selfPaths (SignalKStore.new "u") p ∨ deltaPaths (SignalKStore.new "u")
      (Delta.selfVessel [⟨Source.plugin "pilot", 0, [⟨"steering.autopilot.state", .string "auto"⟩,
        ⟨"steering.autopilot.target", Json.ofF64 1⟩]⟩]) p →
      p = "steering.autopilot.state" ∨ p = "steering.autopilot.target" := by
    intro p hp
    cases hp with
    | inl hp => simp [selfPaths, SignalKStore.getSelfPath] at hp
    | inr hp =>
      obtain ⟨w, hw, -, rfl⟩ := hp
      have hmem : w.path ∈ ["steering.autopilot.state", "steering.autopilot.target"] := by
        refine List.mem_map.mpr ⟨w, hw, rfl⟩
      simpa using hmem
  constructor
  · intro p q hp hq
    obtain rfl | rfl := hpaths p hp <;> obtain rfl | rfl := hpaths q hq <;> decide
  · intro p key hp hk
    have hkey := VesselData.idField_key (Option.isSome_iff_exists.mp hk).choose_spec
    simp only [List.mem_cons, List.not_mem_nil, or_false] at hkey
    obtain rfl | rfl := hpaths p hp <;> obtain rfl | rfl | rfl := hkey <;> decide

/-- A target and its heading: visited heading first, the heading is overwritten. -/
theorem prefix_overwrites :
    ¬ Faithful (Machine.run SignalKStore.step (SignalKStore.new "u")
      [pluginDelta [⟨"steering.autopilot.target", .string "wind"⟩,
        ⟨"steering.autopilot.target.headingTrue", Json.ofF64 1⟩]]) := by
  intro h
  let st := Machine.run SignalKStore.step (SignalKStore.new "u")
    [pluginDelta [⟨"steering.autopilot.target", .string "wind"⟩,
      ⟨"steering.autopilot.target.headingTrue", Json.ofF64 1⟩]]
  let vessel := (st.fullModel []).vessels.lookup "u" |>.getD VesselData.empty
  let entries := [("steering.autopilot.target.headingTrue", SignalKValue.new (Json.ofF64 1) "pilot" 0),
    ("steering.autopilot.target", SignalKValue.new (.string "wind") "pilot" 0)]
  have hvessels : HashMap.IterOrder [("u", vessel)] (st.fullModel []).vessels := by decide +kernel
  have hentries : HashMap.IterOrder entries vessel.values := by decide +kernel
  let order : ModelOrder (st.fullModel []) :=
    { vessels := [("u", vessel)]
      values := fun _ => entries
      vessels_order := hvessels
      values_order := by
        intro uri v hv
        have hmem := (hvessels.mem_iff uri v).mpr hv
        obtain ⟨-, rfl⟩ := Prod.mk.inj (List.mem_singleton.mp hmem)
        exact hentries }
  obtain ⟨obj, hobj, -⟩ := (h [] order).1 "steering.autopilot.target.headingTrue"
    (SignalKValue.new (Json.ofF64 1) "pilot" 0) (by decide +kernel)
  have hlookup := (hvessels.mem_iff "u" vessel).mp (List.mem_singleton.mpr rfl)
  have hnone : Nested.traverse (Json.object (vessel.toFields entries))
      (segments "steering.autopilot.target.headingTrue") = none := by
    decide +kernel
  have hfound := (FullModel.traverse_vessel _ order hlookup _).symm.trans hobj
  cases hnone.symm.trans hfound

end

end SignalK.Lossless

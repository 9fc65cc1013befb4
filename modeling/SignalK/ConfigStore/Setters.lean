import SignalK.ConfigStore.Restart

/-! Setters that run at the same time: which of their steps can change places, and what a run of
them leaves for the next start. -/
namespace SignalK.Config
open HashMap

section
variable {β : Type} [ConfigText β]

/-! What a setter does to the table. -/

/-- Some rows are set or deleted, the others stay. -/
def Patches (f : ConfigTable β → ConfigTable β)
    (patch : String × String → Option (Option (List β))) : Prop :=
  ∀ conn row, (f conn).lookup row = (patch row).getD (conn.lookup row)

omit [ConfigText β] in
theorem Patches.comp {f g : ConfigTable β → ConfigTable β}
    {p q : String × String → Option (Option (List β))} (hf : Patches f p) (hg : Patches g q) :
    Patches (fun conn => g (f conn)) fun row => (q row).or (p row) := by
  intro conn row
  dsimp only
  rw [hg, hf]
  cases q row <;> rfl

omit [ConfigText β] in
/-- Patches of different rows can change places. -/
theorem Patches.comm {f g : ConfigTable β → ConfigTable β}
    {p q : String × String → Option (Option (List β))} (hf : Patches f p) (hg : Patches g q)
    (hdisj : ∀ row, p row = none ∨ q row = none) (conn : ConfigTable β) :
    f (g conn) = g (f conn) := by
  refine Finmap.ext_lookup fun row => ?_
  rw [hf, hg, hg, hf]
  rcases hdisj row with h | h
  · rw [h]
    rfl
  · rw [h]
    rfl

omit [ConfigText β] in
theorem patches_upsert (ns key : String) (value : List β) :
    Patches (fun conn => upsert conn ns key value) fun row =>
      if row = (ns, key) then some (some value) else none := by
  intro conn row
  dsimp only
  rw [upsert, lookup_insert]
  split_ifs <;> rfl

theorem patches_setStr (key : String) (s : Option String) :
    Patches (fun conn : ConfigTable β => setStr conn key s) fun row =>
      if row = ("server", key) then some (s.map jsonStr) else none := by
  intro conn row
  cases s with
  | none =>
    dsimp only
    rw [setStr, delete, lookup_erase]
    split_ifs <;> rfl
  | some s => exact patches_upsert "server" key (jsonStr s) conn row

/-- A namespace is replaced by a map. -/
theorem patches_replace {ν : Type} (enc : Encoding ν) (ns : String) (w : Walk String ν) :
    Patches (fun conn : ConfigTable β => upsertAll enc (deleteNamespace conn ns) ns w.entries)
      fun row => if row.1 = ns then some ((w.map.lookup row.2).map (toText enc)) else none := by
  intro conn row
  obtain ⟨ns', key⟩ := row
  dsimp only
  rw [upsertAll]
  have h := w.order.foldl_observed
    (f := fun conn : ConfigTable β => fun e => upsert conn ns e.1 (toText enc e.2))
    (g := fun conn => conn.lookup (ns', key))
    (h := fun v => if ns' = ns then some (some (toText enc v)) else none) (k := key) ?_
    (deleteNamespace conn ns)
  · rw [h, deleteNamespace, lookup_retain]
    by_cases hns : ns' = ns
    · cases w.map.lookup key with
      | none => cases hc : conn.lookup (ns', key) <;> simp [hns]
      | some v => simp [hns]
    · cases w.map.lookup key with
      | none => cases hc : conn.lookup (ns', key) <;> simp [hns]
      | some v => cases hc : conn.lookup (ns', key) <;> simp [hns]
  · intro c e
    rw [upsert, lookup_insert]
    by_cases hns : ns' = ns
    · subst hns
      by_cases hkey : key = e.1
      · subst hkey
        simp
      · have hne : e.1 ≠ key := Ne.symm hkey
        simp [hkey, hne]
    · have hpair : (ns', key) ≠ (ns, e.1) := fun he => hns (Prod.mk.inj he).1
      simp [hns]

/-! The order of the steps. -/

/-- What a setter is about. -/
inductive Item where
  | vessel
  | vesselUuid
  | sourcePriorities
  | sourceTtls
  | plugin (id : String)
  deriving DecidableEq

omit [ConfigText β] in
def Rest.item : Rest β → Item
  | .vessel _ _ => .vessel
  | .vesselUuid _ => .vesselUuid
  | .sourcePriorities _ => .sourcePriorities
  | .sourceTtls _ => .sourceTtls
  | .plugin id _ => .plugin id

omit [ConfigText β] in
/-- Two setters have different items left, or the same to do. -/
def Rest.Independent (r r' : Rest β) : Prop := r.item ≠ r'.item ∨ r = r'

instance [DecidableEq β] (r r' : Rest β) : Decidable (r.Independent r') :=
  inferInstanceAs (Decidable (_ ∨ _))

omit [ConfigText β] in
theorem finish_comm {r r' : Rest β} (h : r.Independent r') (s : ConfigStore β) :
    Rest.finish (Rest.finish s r) r' = Rest.finish (Rest.finish s r') r := by
  rcases h with h | rfl
  · cases r <;> cases r' <;> first | rfl | exact absurd rfl h | skip
    case plugin.plugin id text id' text' =>
      have hid : id ≠ id' := fun he => h (congrArg Item.plugin he)
      have hrow : ("plugins", id') ≠ ("plugins", id) := fun he => hid (Prod.mk.inj he).2.symm
      simp only [Rest.finish, upsert, Finmap.insert_insert_of_ne _ hrow]
  · rfl

omit [ConfigText β] in
/-- A change of the table outside the plugins and the row of a plugin can change places. -/
theorem patches_plugin {f : ConfigTable β → ConfigTable β}
    {p : String × String → Option (Option (List β))} (hf : Patches f p)
    (hp : ∀ id, p ("plugins", id) = none) (conn : ConfigTable β) (id : String) (text : List β) :
    f (upsert conn "plugins" id text) = upsert (f conn) "plugins" id text := by
  refine hf.comm (patches_upsert "plugins" id text) (fun row => ?_) conn
  by_cases hrow : row = ("plugins", id)
  · exact .inl (hrow ▸ hp id)
  · exact .inr (if_neg hrow)

theorem patches_vessel (name mmsi : Option String) :
    Patches (fun conn : ConfigTable β =>
      setStr (setStr conn "vessel_name" name) "vessel_mmsi" mmsi) fun row =>
        (if row = ("server", "vessel_mmsi") then some (mmsi.map jsonStr) else none).or
          (if row = ("server", "vessel_name") then some (name.map jsonStr) else none) :=
  (patches_setStr "vessel_name" name).comp (patches_setStr "vessel_mmsi" mmsi)

/-- What others have left to do neither changes nor delays the first step of a setter. -/
theorem begin_finish (c : Call) (s : ConfigStore β) (r : Rest β) :
    Call.begin (Rest.finish s r) c = (Rest.finish (Call.begin s c).1 r, (Call.begin s c).2) := by
  cases r with
  | plugin id text =>
    cases c with
    | setVessel name mmsi =>
      have h := patches_plugin (patches_vessel name mmsi) (fun _ => by simp) s.db id text
      exact congrArg (fun db => (ConfigStore.mk db s.cache, Rest.vessel name mmsi)) h
    | setVesselUuid uuid =>
      have h := patches_plugin (patches_upsert "server" "vessel_uuid" (jsonStr uuid))
        (fun _ => by simp) s.db id text
      exact congrArg (fun db => (ConfigStore.mk db s.cache, Rest.vesselUuid uuid)) h
    | setSourcePriorities w =>
      have h := patches_plugin (patches_replace u16 "source_priorities" w)
        (fun _ => by simp) s.db id text
      exact congrArg (fun db => (ConfigStore.mk db s.cache, Rest.sourcePriorities w.map)) h
    | setSourceTtls w =>
      have h := patches_plugin (patches_replace u64 "source_ttls" w) (fun _ => by simp) s.db id text
      exact congrArg (fun db => (ConfigStore.mk db s.cache, Rest.sourceTtls w.map)) h
    | setPluginConfig id' config => rfl
    | setPluginEnabled id' enabled => rfl
  | vessel name mmsi => cases c <;> rfl
  | vesselUuid uuid => cases c <;> rfl
  | sourcePriorities priorities => cases c <;> rfl
  | sourceTtls ttls => cases c <;> rfl

/-! A whole setter keeps cache and table together. -/

/-- The uuid that the table has. -/
def storedUuid (stored : String) : Call → String
  | .setVesselUuid uuid => uuid
  | _ => stored

/-- The configuration that a call leaves for a plugin comes back from the database. -/
def Keeps (s : ConfigStore β) : Call → Prop
  | .setPluginConfig _ config => Kept config
  | .setPluginEnabled id enabled => Kept (withEnabled s id enabled).config
  | _ => True

instance (s : ConfigStore β) : ∀ c, Decidable (Keeps s c)
  | .setPluginConfig _ config => inferInstanceAs (Decidable (Kept config))
  | .setPluginEnabled id enabled =>
    inferInstanceAs (Decidable (Kept (withEnabled s id enabled).config))
  | .setVessel _ _ => isTrue trivial
  | .setVesselUuid _ => isTrue trivial
  | .setSourcePriorities _ => isTrue trivial
  | .setSourceTtls _ => isTrue trivial

def alone : ConfigStore β → Call → ConfigStore β := Deferred.alone Call.begin Rest.finish

theorem bind_fromText {ν : Type} {enc : Encoding ν}
    (henc : ∀ v, fromText enc (toText enc v : List β) = some v) (v : Option ν) :
    (v.map (toText enc : ν → List β)).bind (fromText enc) = v := by
  cases v with
  | none => rfl
  | some v => exact henc v

theorem map_fromJsonStr (s : Option String) :
    (s.map (jsonStr : String → List β)).map fromJsonStr = s := by
  cases s with
  | none => rfl
  | some s => exact congrArg some (fromJsonStr_jsonStr s)

omit [ConfigText β] in
theorem Patches.follow {f : ConfigTable β → ConfigTable β}
    {p : String × String → Option (Option (List β))} (hf : Patches f p) {α : Type}
    {decode : Option (List β) → α} {conn : ConfigTable β} {row : String × String} {old new : α}
    (hold : old = decode (conn.lookup row)) (hnew : new = ((p row).map decode).getD old) :
    new = decode ((f conn).lookup row) := by
  rw [hf, hnew, hold]
  cases p row <;> rfl

/-- A cache follows a patch of the table when the fields of the patched rows do. -/
theorem agrees_patched {f : ConfigTable β → ConfigTable β}
    {p : String × String → Option (Option (List β))} {stored stored' : String}
    {s : ConfigStore β} (hf : Patches f p) (h : Agrees stored s) (cache : ConfigCache)
    (hrow : (p ("server", "vessel_uuid")).getD (some (jsonStr stored)) = some (jsonStr stored'))
    (huuid : stored' ≠ "" → cache.vesselUuid = stored')
    (hname : cache.vesselName =
      ((p ("server", "vessel_name")).map fun t => t.map fromJsonStr).getD s.cache.vesselName)
    (hmmsi : cache.vesselMmsi =
      ((p ("server", "vessel_mmsi")).map fun t => t.map fromJsonStr).getD s.cache.vesselMmsi)
    (hpriorities : ∀ k, cache.sourcePriorities.lookup k =
      ((p ("source_priorities", k)).map fun t => t.bind (fromText u16)).getD
        (s.cache.sourcePriorities.lookup k))
    (httls : ∀ k, cache.sourceTtls.lookup k =
      ((p ("source_ttls", k)).map fun t => t.bind (fromText u64)).getD
        (s.cache.sourceTtls.lookup k))
    (hplugins : ∀ k, cache.plugins.lookup k =
      ((p ("plugins", k)).map fun t => t.bind (fromText pluginConfigEntry)).getD
        (s.cache.plugins.lookup k)) :
    Agrees stored' ⟨f s.db, cache⟩ where
  row := by
    rw [hf, h.row]
    exact hrow
  uuid := huuid
  name := hf.follow h.name hname
  mmsi := hf.follow h.mmsi hmmsi
  priorities k := hf.follow (h.priorities k) (hpriorities k)
  ttls k := hf.follow (h.ttls k) (httls k)
  plugins k := hf.follow (h.plugins k) (hplugins k)

theorem agrees_plugin {stored : String} {s : ConfigStore β} (h : Agrees stored s) (id : String)
    {entry : PluginConfigEntry} (hk : Kept entry.config) :
    Agrees stored (Rest.finish (setPlugin s id entry).1 (setPlugin s id entry).2) := by
  refine agrees_patched (patches_upsert "plugins" id (toText pluginConfigEntry entry)) h
    { s.cache with plugins := s.cache.plugins.insert id entry } (by simp) h.uuid (by simp)
    (by simp) (by simp) (by simp) fun k => ?_
  rw [lookup_insert]
  by_cases hk' : k = id
  · simp [hk', fromText_pluginConfigEntry hk]
  · simp [hk']

theorem agrees_alone {stored : String} {s : ConfigStore β} (h : Agrees stored s) {c : Call}
    (hk : Keeps s c) : Agrees (storedUuid stored c) (alone s c) := by
  cases c with
  | setVessel name mmsi =>
    refine agrees_patched (patches_vessel name mmsi) h
      { s.cache with vesselName := name, vesselMmsi := mmsi } (by simp [storedUuid]) h.uuid ?_ ?_
      (by simp) (by simp) (by simp)
    · simpa using (map_fromJsonStr (β := β) name).symm
    · simpa using (map_fromJsonStr (β := β) mmsi).symm
  | setVesselUuid uuid =>
    exact agrees_patched (patches_upsert "server" "vessel_uuid" (jsonStr uuid)) h
      { s.cache with vesselUuid := uuid } (by simp [storedUuid]) (fun _ => rfl) (by simp)
      (by simp) (by simp) (by simp) (by simp)
  | setSourcePriorities w =>
    refine agrees_patched (patches_replace u16 "source_priorities" w) h
      { s.cache with sourcePriorities := w.map } (by simp [storedUuid]) h.uuid (by simp)
      (by simp) (fun k => ?_) (by simp) (by simp)
    simpa using (bind_fromText (β := β) fromText_u16 (w.map.lookup k)).symm
  | setSourceTtls w =>
    refine agrees_patched (patches_replace u64 "source_ttls" w) h
      { s.cache with sourceTtls := w.map } (by simp [storedUuid]) h.uuid (by simp)
      (by simp) (by simp) (fun k => ?_) (by simp)
    simpa using (bind_fromText (β := β) fromText_u64 (w.map.lookup k)).symm
  | setPluginConfig id config =>
    have hkept : Kept (withConfig s id config).config := hk
    exact agrees_plugin h id hkept
  | setPluginEnabled id enabled => exact agrees_plugin h id hk

/-! Runs of setters. -/

/-- A setter finishes before an earlier one only if they are independent, and the configuration
of a plugin is kept. -/
def Careful (s : Deferred.State (ConfigStore β) (Rest β)) (e : Deferred.Event Call) : Prop :=
  Deferred.InOrder Rest.Independent s e ∧
    match e with
    | .call c => Keeps s.shared c
    | .finish _ => True

instance [DecidableEq β] (s : Deferred.State (ConfigStore β) (Rest β)) :
    ∀ e, Decidable (Careful s e)
  | .call c => inferInstanceAs (Decidable (True ∧ Keeps s.shared c))
  | .finish i =>
    inferInstanceAs (Decidable (Deferred.InOrder Rest.Independent s (.finish i) ∧ True))

def start (seed : SeedConfig) (rows : List ((String × String) × List β)) (uuid : String) :
    Deferred.State (ConfigStore β) (Rest β) :=
  ⟨ConfigStore.new ∅ seed rows uuid, []⟩

omit [ConfigText β] in
theorem foldl_finish_plugins (rs : List (Rest β)) (s : ConfigStore β) :
    (rs.foldl Rest.finish s).cache.plugins = s.cache.plugins := by
  induction rs generalizing s with
  | nil => rfl
  | cons r rs ih =>
    rw [List.foldl_cons, ih]
    cases r <;> rfl

theorem keeps_congr {s t : ConfigStore β} (h : s.cache.plugins = t.cache.plugins) {c : Call}
    (hk : Keeps s c) : Keeps t c := by
  cases c with
  | setPluginEnabled id enabled =>
    have hk' : Kept (withEnabled s id enabled).config := hk
    rw [withEnabled, h] at hk'
    exact hk'
  | setPluginConfig id config => exact hk
  | _ => trivial

theorem lookup_upsertAll {ν : Type} (enc : Encoding ν) (conn : ConfigTable β) {ns : String}
    {row : String × String} (hns : row.1 ≠ ns) (entries : List (String × ν)) :
    (upsertAll enc conn ns entries).lookup row = conn.lookup row := by
  induction entries generalizing conn with
  | nil => rfl
  | cons e entries ih =>
    have hne : row ≠ (ns, e.1) := fun h => hns (congrArg Prod.fst h)
    have hstep : (upsert conn ns e.1 (toText enc e.2)).lookup row = conn.lookup row := by
      rw [upsert, lookup_insert, if_neg hne]
    exact (ih _).trans hstep

/-- The seed's uuid is stored, also an empty one. -/
theorem lookup_seed (conn : ConfigTable β) (seed : SeedConfig) :
    (seedFromConfig conn seed).lookup ("server", "vessel_uuid") =
      some (jsonStr seed.vessel.uuid) := by
  have hupsertStr : ∀ (conn : ConfigTable β) (key : String) (s : Option String),
      "vessel_uuid" ≠ key → (upsertStr conn key s).lookup ("server", "vessel_uuid") =
        conn.lookup ("server", "vessel_uuid") := by
    intro conn key s hkey
    cases s with
    | none => rfl
    | some s => simp [upsertStr, upsert, hkey]
  rw [seedFromConfig, lookup_upsertAll _ _ (by decide), lookup_upsertAll _ _ (by decide),
    lookup_upsertAll _ _ (by decide), hupsertStr _ _ _ (by decide), hupsertStr _ _ _ (by decide),
    upsert, lookup_insert, if_pos rfl]

/-- A table with rows is not seeded again. -/
theorem opened_of_lookup {conn : ConfigTable β} {row : String × String} {text : List β}
    (h : conn.lookup row = some text) (seed : SeedConfig) : opened conn seed = conn := by
  have hmem := Finmap.lookup_eq_some_iff.mp h
  have hcard : conn.entries.card ≠ 0 := by
    rw [ne_eq, Multiset.card_eq_zero]
    exact fun he => Multiset.notMem_zero _ (he ▸ hmem)
  rw [opened, if_neg hcard]

theorem agrees_run {seed : SeedConfig} {rows : List ((String × String) × List β)} {uuid : String}
    {es : List (Deferred.Event Call)} (hrows : IterOrder rows (opened ∅ seed))
    (hm : Machine.Meets step Careful (start seed rows uuid) es) :
    Agrees ((Deferred.calls es).foldl storedUuid seed.vessel.uuid)
      (Deferred.settled Rest.finish (Machine.run step (start seed rows uuid) es)) := by
  have hopened : opened (∅ : ConfigTable β) seed = seedFromConfig ∅ seed := if_pos rfl
  have hstart : Agrees seed.vessel.uuid (Deferred.settled Rest.finish (start seed rows uuid)) :=
    agrees_new hrows (hopened ▸ lookup_seed ∅ seed) uuid
  have hcall : ∀ (stored : String) (s : Deferred.State (ConfigStore β) (Rest β)) (c : Call),
      Agrees stored (Deferred.settled Rest.finish s) → Careful s (.call c) →
      Agrees (storedUuid stored c)
        (Deferred.alone Call.begin Rest.finish (Deferred.settled Rest.finish s) c) :=
    fun _ _ _ h hc => agrees_alone h (keeps_congr (foldl_finish_plugins _ _).symm hc.2)
  exact Deferred.settled_inv (fun _ _ h s => finish_comm h s) begin_finish
    (fun _ _ h => h.1) hcall hstart hm

theorem sameAnswers_of_agrees {stored : String} {s t : ConfigStore β} (hs : Agrees stored s)
    (ht : Agrees stored t) (hdb : s.db = t.db) (hne : stored ≠ "") : s.SameAnswers t := by
  have hplugins : s.cache.plugins = t.cache.plugins :=
    Finmap.ext_lookup fun k => (hs.plugins k).trans (hdb ▸ (ht.plugins k).symm)
  exact
    { vesselUuid := (hs.uuid hne).trans (ht.uuid hne).symm
      vesselName := hs.name.trans (hdb ▸ ht.name.symm)
      vesselMmsi := hs.mmsi.trans (hdb ▸ ht.mmsi.symm)
      sourcePriorities :=
        Finmap.ext_lookup fun k => (hs.priorities k).trans (hdb ▸ (ht.priorities k).symm)
      sourceTtls := Finmap.ext_lookup fun k => (hs.ttls k).trans (hdb ▸ (ht.ttls k).symm)
      pluginConfig := fun id => congrArg (·.lookup id) hplugins
      allPluginConfigs := hplugins }

/-- Where no setter overtakes another of the same item and the configurations of plugins are kept,
a restart keeps everything exactly when the last uuid is not empty. -/
theorem restart_iff (seed : SeedConfig) (rows : List ((String × String) × List β)) (uuid : String)
    (es : List (Deferred.Event Call)) (hrows : IterOrder rows (opened ∅ seed))
    (hm : Machine.Meets step Careful (start seed rows uuid) es)
    (hdone : (Machine.run step (start seed rows uuid) es).underWay = []) :
    let running := (Machine.run step (start seed rows uuid) es).shared
    (∀ seed' rows' uuid', IterOrder rows' (opened running.db seed') →
        (ConfigStore.new running.db seed' rows' uuid').SameAnswers running) ↔
      (Deferred.calls es).foldl storedUuid seed.vessel.uuid ≠ "" := by
  intro running
  have hrun : Agrees ((Deferred.calls es).foldl storedUuid seed.vessel.uuid) running := by
    have h := agrees_run hrows hm
    rwa [Deferred.settled, hdone] at h
  have hopened : ∀ seed', opened running.db seed' = running.db := opened_of_lookup hrun.row
  constructor
  · -- an empty uuid is generated anew at every start
    intro h hempty
    obtain ⟨rows', hrows'⟩ := exists_iterOrder running.db
    have hnew : ∀ uuid', "urn:mrn:signalk:uuid:" ++ uuid' = running.vesselUuid := by
      intro uuid'
      have hsame := (h seed rows' uuid' ((hopened seed).symm ▸ hrows')).vesselUuid
      have hload := loadCache_uuid hrows' hrun.row uuid'
      rw [if_pos hempty] at hload
      exact hload.symm.trans hsame
    have htwo := (hnew "").trans (hnew "0").symm
    exact absurd htwo (by decide)
  · intro hne seed' rows' uuid' hrows'
    have hnew := agrees_new (hopened seed' ▸ hrows') hrun.row uuid'
    have hstore : ConfigStore.new running.db seed' rows' uuid' =
        ⟨running.db, loadCache rows' uuid'⟩ := by
      rw [ConfigStore.new, hopened]
    rw [hstore]
    exact sameAnswers_of_agrees hnew hrun rfl hne

end

section
attribute [local instance] ConfigText.whole

theorem restart_iff_seeded :
    let seed : SeedConfig := { SeedConfig.default with vessel := ⟨"a", none, none⟩ }
    let rows : List ((String × String) × List Json) :=
      [(("server", "vessel_uuid"), [.string "a"])]
    let running :=
      (Machine.run step (start seed rows "") [.call (.setVesselUuid "b"), .finish 0]).shared
    ∀ seed' rows' uuid', IterOrder rows' (opened running.db seed') →
      (ConfigStore.new running.db seed' rows' uuid').SameAnswers running :=
  (restart_iff _ _ "" _ (by decide +kernel) (by decide +kernel) (by decide +kernel)).mpr
    (by decide +kernel)

/-- Two setters of the vessel at the same time, and a seed without uuid. -/
theorem setting_forgotten :
    (let rows : List ((String × String) × List Json) :=
      [(("server", "vessel_uuid"), [.string ""])]
    let rows' := (("server", "vessel_name"), [.string "B"]) :: rows
    let running := Machine.run step (start .default rows "1")
      [.call (.setVessel (some "A") none), .call (.setVessel (some "B") none), .finish 1, .finish 0]
    running.underWay = [] ∧ IterOrder rows' running.shared.db ∧
      running.shared.vesselName = some "A" ∧
      (ConfigStore.new running.shared.db .default rows' "2").vesselName = some "B") ∧
    (let rows : List ((String × String) × List Json) :=
      [(("server", "vessel_uuid"), [.string ""])]
    let running := (start .default rows "1").shared
    IterOrder rows running.db ∧
      (ConfigStore.new running.db .default rows "2").vesselUuid ≠ running.vesselUuid) := by
  decide +kernel

end

end SignalK.Config

import SignalK.ConfigStore.Store

/-! What a new store reads from the table against what the running one has in its cache. -/
namespace SignalK.Config
open HashMap

/-- Reading the text of a configuration gives it back. -/
def Kept [FloatText] (config : Json) : Prop := config.depth < 127 ∧ config.reparsed = config

instance [FloatText] (config : Json) : Decidable (Kept config) :=
  inferInstanceAs (Decidable (_ ∧ _))

section
variable {β : Type} [ConfigText β]

/-! What one row says. -/

theorem fromJsonStr_jsonStr (s : String) : fromJsonStr (jsonStr s : List β) = s := by
  have hdepth : (Json.string s).depth < 128 := by
    rw [Json.depth]
    omega
  rw [fromJsonStr, jsonStr, JsonFile.parse_print _ hdepth, Json.reparsed]

theorem fromText_u16 (n : UInt16) : fromText u16 (toText u16 n : List β) = some n := by
  have hdepth : (u16.toJson n).depth < 128 := by
    rw [u16, Json.depth]
    omega
  rw [fromText, toText, JsonFile.parse_print _ hdepth]
  have hlt : n.toUInt64.toNat < 2 ^ 16 := by
    rw [UInt16.toNat_toUInt64]
    exact n.toNat_lt
  simp only [u16, Json.reparsed, Except.toOption, Option.bind_some, if_pos hlt]
  exact congrArg some (UInt16.toUInt16_toUInt64 n)

theorem fromText_u64 (n : UInt64) : fromText u64 (toText u64 n : List β) = some n := by
  have hdepth : (u64.toJson n).depth < 128 := by
    rw [u64, Json.depth]
    omega
  rw [fromText, toText, JsonFile.parse_print _ hdepth]
  simp only [u64, Json.reparsed, Except.toOption, Option.bind_some]

theorem fromText_pluginConfigEntry {entry : PluginConfigEntry} (h : Kept entry.config) :
    fromText pluginConfigEntry (toText pluginConfigEntry entry : List β) = some entry := by
  obtain ⟨enabled, config⟩ := entry
  have hlt : config.depth < 127 := h.1
  have hsame : config.reparsed = config := h.2
  have hjson : pluginConfigEntry.toJson ⟨enabled, config⟩ =
      .object [("config", config), ("enabled", .bool enabled)] := by
    have hord : "config" < "enabled" := by decide
    simp [pluginConfigEntry, Json.ofFields, SortedMap.insert, hord]
  have hdepth : (pluginConfigEntry.toJson ⟨enabled, config⟩).depth < 128 := by
    rw [hjson]
    simp only [Json.depth, Json.depthFields]
    omega
  have hreparsed : (pluginConfigEntry.toJson ⟨enabled, config⟩).reparsed =
      pluginConfigEntry.toJson ⟨enabled, config⟩ := by
    rw [hjson]
    simp only [Json.reparsed, Json.reparsedFields, hsame]
  rw [fromText, toText, JsonFile.parse_print _ hdepth, hreparsed, hjson]
  have hne : "enabled" ≠ "config" := by decide
  simp [pluginConfigEntry, Except.toOption, SortedMap.get, hne]

/-! What the whole table says. -/

/-- A cache holds what the table says; the uuid may have been generated. -/
structure Agrees (stored : String) (s : ConfigStore β) : Prop where
  row : s.db.lookup ("server", "vessel_uuid") = some (jsonStr stored)
  uuid : stored ≠ "" → s.cache.vesselUuid = stored
  name : s.cache.vesselName = (s.db.lookup ("server", "vessel_name")).map fromJsonStr
  mmsi : s.cache.vesselMmsi = (s.db.lookup ("server", "vessel_mmsi")).map fromJsonStr
  priorities : ∀ k, s.cache.sourcePriorities.lookup k =
    (s.db.lookup ("source_priorities", k)).bind (fromText u16)
  ttls : ∀ k, s.cache.sourceTtls.lookup k =
    (s.db.lookup ("source_ttls", k)).bind (fromText u64)
  plugins : ∀ k, s.cache.plugins.lookup k =
    (s.db.lookup ("plugins", k)).bind (fromText pluginConfigEntry)

theorem lookup_insertParsed {ν : Type} (m : HashMap String ν) (a k : String) (v : Option ν) :
    (insertParsed m a v).lookup k = if k = a then v.or (m.lookup k) else m.lookup k := by
  cases v with
  | none => simp [insertParsed]
  | some v => rw [insertParsed, lookup_insert, Option.some_or]

/-- What one row is about. -/
theorem load_row (c : ConfigCache) (row : (String × String) × List β) :
    (loadRow c row).vesselUuid =
        (if row.1 = ("server", "vessel_uuid") then fromJsonStr row.2 else c.vesselUuid) ∧
      (loadRow c row).vesselName =
        (if row.1 = ("server", "vessel_name") then some (fromJsonStr row.2) else c.vesselName) ∧
      (loadRow c row).vesselMmsi =
        (if row.1 = ("server", "vessel_mmsi") then some (fromJsonStr row.2) else c.vesselMmsi) ∧
      (loadRow c row).sourcePriorities =
        (if row.1.1 = "source_priorities" then
          insertParsed c.sourcePriorities row.1.2 (fromText u16 row.2)
        else c.sourcePriorities) ∧
      (loadRow c row).sourceTtls =
        (if row.1.1 = "source_ttls" then
          insertParsed c.sourceTtls row.1.2 (fromText u64 row.2)
        else c.sourceTtls) ∧
      (loadRow c row).plugins =
        (if row.1.1 = "plugins" then
          insertParsed c.plugins row.1.2 (fromText pluginConfigEntry row.2)
        else c.plugins) := by
  obtain ⟨⟨ns, key⟩, v⟩ := row
  simp only [loadRow]
  split_ifs <;> simp_all

/-- A map of the cache has what its own namespace says. -/
theorem load_map {ν : Type} {enc : Encoding ν} {ns : String} {g : ConfigCache → HashMap String ν}
    {rows : List ((String × String) × List β)} {conn : ConfigTable β}
    (ho : IterOrder rows conn) (hempty : g .empty = ∅)
    (hrow : ∀ c (row : (String × String) × List β), g (loadRow c row) =
      if row.1.1 = ns then insertParsed (g c) row.1.2 (fromText enc row.2) else g c)
    (k : String) :
    (g (rows.foldl loadRow .empty)).lookup k = (conn.lookup (ns, k)).bind (fromText enc) := by
  have h := ho.foldl_observed (f := loadRow) (g := fun c => (g c).lookup k)
    (h := fun v => (fromText enc v).map some) (k := (ns, k)) ?_ .empty
  · rw [h, hempty, Finmap.lookup_empty]
    cases conn.lookup (ns, k) with
    | none => rfl
    | some v => cases hv : fromText enc v <;> simp [hv]
  · rintro c ⟨⟨ns', key⟩, v⟩
    dsimp only
    rw [hrow]
    by_cases hns : ns' = ns
    · subst hns
      rw [if_pos rfl, lookup_insertParsed]
      by_cases hkey : key = k
      · subst hkey
        rw [if_pos rfl, if_pos rfl]
        cases fromText enc v <;> rfl
      · have hpair : (ns', key) ≠ (ns', k) := fun he => hkey (Prod.mk.inj he).2
        rw [if_neg (Ne.symm hkey), if_neg hpair]
    · have hpair : (ns', key) ≠ (ns, k) := fun he => hns (Prod.mk.inj he).1
      rw [if_neg hns, if_neg hpair]

/-- An optional text of the cache is what its own row says. -/
theorem load_str {key : String} {g : ConfigCache → Option String}
    {rows : List ((String × String) × List β)} {conn : ConfigTable β}
    (ho : IterOrder rows conn) (hempty : g .empty = none)
    (hrow : ∀ c (row : (String × String) × List β), g (loadRow c row) =
      if row.1 = ("server", key) then some (fromJsonStr row.2) else g c) :
    g (rows.foldl loadRow .empty) = (conn.lookup ("server", key)).map fromJsonStr := by
  have h := ho.foldl_observed (f := loadRow) (g := g)
    (h := fun v => some (some (fromJsonStr v))) (k := ("server", key)) hrow .empty
  rw [h, hempty]
  cases conn.lookup ("server", key) <;> rfl

theorem loadRows_uuid {rows : List ((String × String) × List β)} {conn : ConfigTable β}
    {stored : String} (ho : IterOrder rows conn)
    (hrow : conn.lookup ("server", "vessel_uuid") = some (jsonStr stored)) :
    (rows.foldl loadRow .empty).vesselUuid = stored := by
  have h := ho.foldl_observed (f := loadRow) (g := ConfigCache.vesselUuid)
    (h := fun v => some (fromJsonStr v)) (k := ("server", "vessel_uuid"))
    (fun c row => (load_row c row).1) .empty
  rw [h, hrow, Option.bind_some, Option.getD_some, fromJsonStr_jsonStr]

/-- A uuid that is not there is generated, and not stored. -/
theorem loadCache_uuid {rows : List ((String × String) × List β)} {conn : ConfigTable β}
    {stored : String} (ho : IterOrder rows conn)
    (hrow : conn.lookup ("server", "vessel_uuid") = some (jsonStr stored)) (uuid : String) :
    (loadCache rows uuid).vesselUuid =
      if stored = "" then "urn:mrn:signalk:uuid:" ++ uuid else stored := by
  have hstored := loadRows_uuid ho hrow
  simp only [loadCache, hstored]
  split_ifs
  · rfl
  · exact hstored

theorem agrees_new {rows : List ((String × String) × List β)} {conn : ConfigTable β}
    {stored : String} (ho : IterOrder rows conn)
    (hrow : conn.lookup ("server", "vessel_uuid") = some (jsonStr stored)) (uuid : String) :
    Agrees stored ⟨conn, loadCache rows uuid⟩ := by
  have hfields : ∀ {α : Type} (g : ConfigCache → α),
      (∀ c u, g { c with vesselUuid := u } = g c) →
      g (loadCache rows uuid) = g (rows.foldl loadRow .empty) := by
    intro α g hg
    simp only [loadCache]
    split_ifs
    · exact hg _ _
    · rfl
  refine ⟨hrow, fun hne => ?_, ?_, ?_, fun k => ?_, fun k => ?_, fun k => ?_⟩
  · rw [loadCache_uuid ho hrow, if_neg hne]
  · rw [← load_str (g := (·.vesselName)) ho rfl fun c row => (load_row c row).2.1]
    exact hfields (·.vesselName) fun _ _ => rfl
  · rw [← load_str (g := (·.vesselMmsi)) ho rfl fun c row => (load_row c row).2.2.1]
    exact hfields (·.vesselMmsi) fun _ _ => rfl
  · rw [← load_map (g := (·.sourcePriorities)) ho rfl
      (fun c row => (load_row c row).2.2.2.1) k]
    exact hfields (·.sourcePriorities.lookup k) fun _ _ => rfl
  · rw [← load_map (g := (·.sourceTtls)) ho rfl
      (fun c row => (load_row c row).2.2.2.2.1) k]
    exact hfields (·.sourceTtls.lookup k) fun _ _ => rfl
  · rw [← load_map (g := (·.plugins)) ho rfl
      (fun c row => (load_row c row).2.2.2.2.2) k]
    exact hfields (·.plugins.lookup k) fun _ _ => rfl

end
end SignalK.Config

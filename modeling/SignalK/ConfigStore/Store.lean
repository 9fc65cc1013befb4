import SignalK.Api.ApplicationData
import SignalK.Lib.Deferred
import SignalK.Lib.Walk

/-! The configuration that can change at run time: a table of texts in the database and a cache
of the values. -/
namespace SignalK.Config

open HashMap (Walk)

structure PluginConfigEntry where
  enabled : Bool
  config : Json
  deriving DecidableEq

def defaultPluginConfig : Json := .object []

structure PluginConfig where
  id : String
  enabled : Bool
  config : Json

structure VesselSettings where
  uuid : String
  name : Option String
  mmsi : Option String

structure SeedConfig where
  vessel : VesselSettings
  sourcePriorities : Walk String UInt16
  sourceTtls : Walk String UInt64
  plugins : List PluginConfig

def SeedConfig.default : SeedConfig where
  vessel := ⟨"", none, none⟩
  sourcePriorities := Walk.empty String UInt16
  sourceTtls := Walk.empty String UInt64
  plugins := []

/-! The values as JSON. -/

structure Encoding (ν : Type) where
  toJson : ν → Json
  ofJson : Json → Option ν

def u16 : Encoding UInt16 where
  toJson n := .number (.posInt n.toUInt64)
  ofJson
    | .number (.posInt n) => if n.toNat < 2 ^ 16 then some n.toUInt16 else none
    | _ => none

def u64 : Encoding UInt64 where
  toJson n := .number (.posInt n)
  ofJson
    | .number (.posInt n) => some n
    | _ => none

/-- The text has the fields in the order of the structure, which reading it does not depend on. -/
def pluginConfigEntry : Encoding PluginConfigEntry where
  toJson entry := .ofFields [("enabled", .bool entry.enabled), ("config", entry.config)]
  ofJson
    | .object fields =>
      match SortedMap.get "enabled" fields with
      | some (.bool enabled) =>
        some ⟨enabled, (SortedMap.get "config" fields).getD defaultPluginConfig⟩
      | _ => none
    | .array [.bool enabled] => some ⟨enabled, defaultPluginConfig⟩
    | .array [.bool enabled, config] => some ⟨enabled, config⟩
    | _ => none

/-- Texts of the value column. -/
class ConfigText (β : Type) extends JsonFile β where
  chars : List β → String

@[reducible] def ConfigText.whole : ConfigText Json where
  toJsonFile := JsonFile.whole
  chars _ := ""

/-- The rows by namespace and key, apart from the times of their updates. -/
abbrev ConfigTable (β : Type) := HashMap (String × String) (List β)

structure ConfigCache where
  vesselUuid : String
  vesselName : Option String
  vesselMmsi : Option String
  sourcePriorities : HashMap String UInt16
  sourceTtls : HashMap String UInt64
  plugins : HashMap String PluginConfigEntry

structure ConfigStore (β : Type) where
  db : ConfigTable β
  cache : ConfigCache

section
variable {β : Type} [ConfigText β]

def toText {ν : Type} (enc : Encoding ν) (v : ν) : List β := JsonFile.print (enc.toJson v)

def fromText {ν : Type} (enc : Encoding ν) (text : List β) : Option ν :=
  (JsonFile.parse text).toOption.bind enc.ofJson

/-- Wrap a string as a JSON string value for storage. -/
def jsonStr (s : String) : List β := JsonFile.print (.string s)

/-- Parse a JSON string value back to a plain string. -/
def fromJsonStr (text : List β) : String :=
  match JsonFile.parse text with
  | .ok (.string s) => s
  | _ => ConfigText.chars text

omit [ConfigText β] in
def upsert (conn : ConfigTable β) (ns key : String) (value : List β) : ConfigTable β :=
  conn.insert (ns, key) value

omit [ConfigText β] in
def delete (conn : ConfigTable β) (ns key : String) : ConfigTable β := conn.erase (ns, key)

omit [ConfigText β] in
def deleteNamespace (conn : ConfigTable β) (ns : String) : ConfigTable β :=
  conn.retain fun row _ => row.1 ≠ ns

/-- `for (key, val) in &map`. -/
def upsertAll {ν : Type} (enc : Encoding ν) (conn : ConfigTable β) (ns : String)
    (entries : List (String × ν)) : ConfigTable β :=
  entries.foldl (fun conn e => upsert conn ns e.1 (toText enc e.2)) conn

def upsertStr (conn : ConfigTable β) (key : String) : Option String → ConfigTable β
  | some s => upsert conn "server" key (jsonStr s)
  | none => conn

/-- Seed initial config values from the SeedConfig. -/
def seedFromConfig (conn : ConfigTable β) (config : SeedConfig) : ConfigTable β :=
  let conn := upsert conn "server" "vessel_uuid" (jsonStr config.vessel.uuid)
  let conn := upsertStr conn "vessel_name" config.vessel.name
  let conn := upsertStr conn "vessel_mmsi" config.vessel.mmsi
  let conn := upsertAll u16 conn "source_priorities" config.sourcePriorities.entries
  let conn := upsertAll u64 conn "source_ttls" config.sourceTtls.entries
  upsertAll pluginConfigEntry conn "plugins"
    (config.plugins.map fun pc => (pc.id, ⟨pc.enabled, pc.config⟩))

def insertParsed {ν : Type} (m : HashMap String ν) (key : String) : Option ν → HashMap String ν
  | some v => m.insert key v
  | none => m

def loadRow (cache : ConfigCache) (row : (String × String) × List β) : ConfigCache :=
  let ns := row.1.1
  let key := row.1.2
  let value := row.2
  if ns = "server" then
    if key = "vessel_uuid" then { cache with vesselUuid := fromJsonStr value }
    else if key = "vessel_name" then { cache with vesselName := some (fromJsonStr value) }
    else if key = "vessel_mmsi" then { cache with vesselMmsi := some (fromJsonStr value) }
    else cache
  else if ns = "source_priorities" then
    { cache with
      sourcePriorities := insertParsed cache.sourcePriorities key (fromText u16 value) }
  else if ns = "source_ttls" then
    { cache with sourceTtls := insertParsed cache.sourceTtls key (fromText u64 value) }
  else if ns = "plugins" then
    { cache with plugins := insertParsed cache.plugins key (fromText pluginConfigEntry value) }
  else cache

def ConfigCache.empty : ConfigCache := ⟨"", none, none, ∅, ∅, ∅⟩

/-- Load the full cache from the rows, with a new uuid where there is none. -/
def loadCache (rows : List ((String × String) × List β)) (uuid : String) : ConfigCache :=
  let cache := rows.foldl loadRow ConfigCache.empty
  if cache.vesselUuid = "" then { cache with vesselUuid := "urn:mrn:signalk:uuid:" ++ uuid }
  else cache

/-- The table of a new store: a table without rows is seeded. -/
def opened (conn : ConfigTable β) (config : SeedConfig) : ConfigTable β :=
  if conn.entries.card = 0 then seedFromConfig conn config else conn

/-- The store over a table, read in some order of its rows. -/
def ConfigStore.new (conn : ConfigTable β) (config : SeedConfig)
    (rows : List ((String × String) × List β)) (uuid : String) : ConfigStore β where
  db := opened conn config
  cache := loadCache rows uuid

end

namespace ConfigStore
variable {β : Type}

/-! Getters. -/

def vesselUuid (s : ConfigStore β) : String := s.cache.vesselUuid
def vesselName (s : ConfigStore β) : Option String := s.cache.vesselName
def vesselMmsi (s : ConfigStore β) : Option String := s.cache.vesselMmsi
def sourcePriorities (s : ConfigStore β) : HashMap String UInt16 := s.cache.sourcePriorities
def sourceTtls (s : ConfigStore β) : HashMap String UInt64 := s.cache.sourceTtls
def pluginConfig (s : ConfigStore β) (id : String) : Option PluginConfigEntry :=
  s.cache.plugins.lookup id
def allPluginConfigs (s : ConfigStore β) : HashMap String PluginConfigEntry := s.cache.plugins

/-- Every getter gives the same. -/
structure SameAnswers (s t : ConfigStore β) : Prop where
  vesselUuid : s.vesselUuid = t.vesselUuid
  vesselName : s.vesselName = t.vesselName
  vesselMmsi : s.vesselMmsi = t.vesselMmsi
  sourcePriorities : s.sourcePriorities = t.sourcePriorities
  sourceTtls : s.sourceTtls = t.sourceTtls
  pluginConfig : ∀ id, s.pluginConfig id = t.pluginConfig id
  allPluginConfigs : s.allPluginConfigs = t.allPluginConfigs

end ConfigStore

/-! Setters, each in two steps: what it does under the lock that it takes first, and what is then
left to do under the other. -/

/-- What a setter does under its second lock. -/
inductive Rest (β : Type) where
  | vessel (name mmsi : Option String)
  | vesselUuid (uuid : String)
  | sourcePriorities (priorities : HashMap String UInt16)
  | sourceTtls (ttls : HashMap String UInt64)
  | plugin (id : String) (serialized : List β)
  deriving DecidableEq

def Rest.finish {β : Type} (s : ConfigStore β) : Rest β → ConfigStore β
  | .vessel name mmsi =>
    { s with cache := { s.cache with vesselName := name, vesselMmsi := mmsi } }
  | .vesselUuid uuid => { s with cache := { s.cache with vesselUuid := uuid } }
  | .sourcePriorities priorities =>
    { s with cache := { s.cache with sourcePriorities := priorities } }
  | .sourceTtls ttls => { s with cache := { s.cache with sourceTtls := ttls } }
  | .plugin id serialized => { s with db := upsert s.db "plugins" id serialized }

section
variable {β : Type} [ConfigText β]

def setStr (conn : ConfigTable β) (key : String) : Option String → ConfigTable β
  | some s => upsert conn "server" key (jsonStr s)
  | none => delete conn "server" key

def setVessel (s : ConfigStore β) (name mmsi : Option String) : ConfigStore β × Rest β :=
  let conn := setStr (setStr s.db "vessel_name" name) "vessel_mmsi" mmsi
  ({ s with db := conn }, .vessel name mmsi)

def setVesselUuid (s : ConfigStore β) (uuid : String) : ConfigStore β × Rest β :=
  ({ s with db := upsert s.db "server" "vessel_uuid" (jsonStr uuid) }, .vesselUuid uuid)

def setSourcePriorities (s : ConfigStore β) (priorities : Walk String UInt16) :
    ConfigStore β × Rest β :=
  let conn := deleteNamespace s.db "source_priorities"
  ({ s with db := upsertAll u16 conn "source_priorities" priorities.entries },
    .sourcePriorities priorities.map)

def setSourceTtls (s : ConfigStore β) (ttls : Walk String UInt64) : ConfigStore β × Rest β :=
  let conn := deleteNamespace s.db "source_ttls"
  ({ s with db := upsertAll u64 conn "source_ttls" ttls.entries }, .sourceTtls ttls.map)

/-- The cache first, and then the table. -/
def setPlugin (s : ConfigStore β) (id : String) (entry : PluginConfigEntry) :
    ConfigStore β × Rest β :=
  ({ s with cache := { s.cache with plugins := s.cache.plugins.insert id entry } },
    .plugin id (toText pluginConfigEntry entry))

omit [ConfigText β] in
def withConfig (s : ConfigStore β) (id : String) (config : Json) : PluginConfigEntry :=
  { (s.cache.plugins.lookup id).getD ⟨true, .object []⟩ with config := config }

def setPluginConfig (s : ConfigStore β) (id : String) (config : Json) : ConfigStore β × Rest β :=
  setPlugin s id (withConfig s id config)

omit [ConfigText β] in
def withEnabled (s : ConfigStore β) (id : String) (enabled : Bool) : PluginConfigEntry :=
  { (s.cache.plugins.lookup id).getD ⟨enabled, .object []⟩ with enabled := enabled }

def setPluginEnabled (s : ConfigStore β) (id : String) (enabled : Bool) :
    ConfigStore β × Rest β :=
  setPlugin s id (withEnabled s id enabled)

inductive Call where
  | setVessel (name mmsi : Option String)
  | setVesselUuid (uuid : String)
  | setSourcePriorities (priorities : Walk String UInt16)
  | setSourceTtls (ttls : Walk String UInt64)
  | setPluginConfig (id : String) (config : Json)
  | setPluginEnabled (id : String) (enabled : Bool)

def Call.begin (s : ConfigStore β) : Call → ConfigStore β × Rest β
  | .setVessel name mmsi => Config.setVessel s name mmsi
  | .setVesselUuid uuid => Config.setVesselUuid s uuid
  | .setSourcePriorities priorities => Config.setSourcePriorities s priorities
  | .setSourceTtls ttls => Config.setSourceTtls s ttls
  | .setPluginConfig id config => Config.setPluginConfig s id config
  | .setPluginEnabled id enabled => Config.setPluginEnabled s id enabled

/-- A setter takes its first lock, or one that is between its locks takes the second. -/
def step : Deferred.State (ConfigStore β) (Rest β) → Deferred.Event Call →
    Deferred.State (ConfigStore β) (Rest β) × List Empty :=
  Deferred.step Call.begin Rest.finish

end

end SignalK.Config

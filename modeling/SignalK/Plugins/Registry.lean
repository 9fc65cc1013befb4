import SignalK.ConfigStore.Store
import SignalK.Plugins.Manager

/-! The registry of the plugins of all tiers, and the requests of the admin API that start and
stop plugins. -/
namespace SignalK.Plugins

/-- Where the plugin runs. -/
inductive PluginTier where
  | rust | bridge | standalone
  deriving DecidableEq

structure PluginInfo where
  id : String
  name : String
  description : String
  version : String
  tier : PluginTier
  status : String
  enabled : Bool
  keywords : List String
  hasWebapp : Bool
  webappUrl : Option String
  schema : Option Json
  lastErrorTime : Option String
  deriving DecidableEq

/-- Plugin info reported by the bridge. -/
structure BridgePluginInfo where
  id : String
  name : String
  version : String
  description : String
  hasWebapp : Bool
  deriving DecidableEq

abbrev PluginRegistry := HashMap String PluginInfo

namespace PluginRegistry

/-- A Tier 1 plugin, registered or updated, where `old` is its entry so far. -/
def tier1 (old : Option PluginInfo) (now id name description version status : String)
    (enabled : Bool) : PluginInfo where
  id := id
  name := name
  description := description
  version := version
  tier := .rust
  status := status
  enabled := enabled
  keywords := ["signalk-node-server-plugin"]
  hasWebapp := false
  webappUrl := none
  schema := none
  -- Preserve existing error timestamp when transitioning away from error
  lastErrorTime :=
    if Text.startsWith status "error" then some now else old.bind (·.lastErrorTime)

def registerTier1 (r : PluginRegistry) (now id name description version status : String)
    (enabled : Bool) : PluginRegistry :=
  r.insert id (tier1 (r.lookup id) now id name description version status enabled)

def registerTier2 (r : PluginRegistry) (info : BridgePluginInfo) : PluginRegistry :=
  r.insert info.id
    { id := info.id
      name := info.name
      description := info.description
      version := info.version
      tier := .bridge
      status := "running"
      enabled := true
      keywords := ["signalk-node-server-plugin"]
      hasWebapp := info.hasWebapp
      webappUrl := none
      schema := none
      lastErrorTime := none }

/-- `get_mut`, and what is then done. -/
def modify (r : PluginRegistry) (id : String) (f : PluginInfo → PluginInfo) : PluginRegistry :=
  match r.lookup id with
  | some info => r.insert id (f info)
  | none => r

def updateStatus (r : PluginRegistry) (now id status : String) : PluginRegistry :=
  r.modify id fun info =>
    { info with
      lastErrorTime := if Text.startsWith status "error" then some now else info.lastErrorTime
      status := status
      enabled := !Text.startsWith status "stopped" && !Text.startsWith status "error" }

def setWebappUrl (r : PluginRegistry) (id url : String) : PluginRegistry :=
  r.modify id fun info => { info with hasWebapp := true, webappUrl := some url }

theorem lookup_modify (r : PluginRegistry) (a id : String) (f : PluginInfo → PluginInfo) :
    (r.modify a f).lookup id = if id = a then (r.lookup id).map f else r.lookup id := by
  rw [modify]
  cases h : r.lookup a with
  | some info =>
    simp only [HashMap.lookup_insert]
    split_ifs with hid
    · rw [hid, h, Option.map_some]
    · rfl
  | none =>
    split_ifs with hid
    · rw [hid, h, Option.map_none]
    · rfl

end PluginRegistry

/-- What the code of a plugin says about itself. -/
structure PluginCode (P : Type) where
  metadata : P → PluginMetadata
  schema : P → Option Json

/-- A placeholder has no schema. -/
def Boxed.schema {P : Type} (schema : P → Option Json) : Boxed P → Option Json
  | .plugin p => schema p
  | .placeholder _ => none

/-- The status as the registry has it, and whether that counts as enabled. -/
def statusStr : PluginStatus → String × Bool
  | .stopped => ("stopped", false)
  | .starting => ("starting", true)
  | .running msg => ("running: " ++ msg, true)
  | .stopping => ("stopping", true)
  | .error msg => ("error: " ++ msg, false)

/-- What the requests go by. -/
structure ServerState (P H β : Type) where
  pluginManager : PluginManager P H
  pluginRegistry : PluginRegistry
  configStore : Config.ConfigStore β

/-- The time of a call, and the order in which it goes through the plugins. -/
structure Circumstances (P : Type) where
  now : String
  walk : HashMap.Iteration String (PluginEntry P)

/-- An error with its status and message, or 204. -/
abbrev Answer := Except (Nat × String) Unit

section
variable {P H β : Type} (code : PluginCode P) (c : Circumstances P)

/-- One plugin of `sync_tier1_status`. -/
def syncEntry (registry : PluginRegistry) (entry : PluginEntry P) : PluginRegistry :=
  let m := entry.plugin.metadata code.metadata
  let status := statusStr entry.status
  registry.registerTier1 c.now m.id m.name m.description m.version status.1 status.2

def syncTier1Status (registry : PluginRegistry) (mgr : PluginManager P H) : PluginRegistry :=
  (c.walk.entries mgr.plugins).foldl (fun registry e => syncEntry code c registry e.2) registry

/-- One plugin of `statuses_with_schema`. -/
def captureSchema (registry : PluginRegistry) (entry : PluginEntry P) : PluginRegistry :=
  match entry.plugin.schema code.schema with
  | some schema =>
    registry.modify (entry.plugin.metadata code.metadata).id fun info =>
      { info with schema := some schema }
  | none => registry

namespace ServerState

def synced (s : ServerState P H β) : ServerState P H β :=
  { s with pluginRegistry := syncTier1Status code c s.pluginRegistry s.pluginManager }

/-- `populate_registry_from_manager` -/
def populate (s : ServerState P H β) : ServerState P H β :=
  let s := s.synced code c
  { s with
    pluginRegistry := (c.walk.entries s.pluginManager.plugins).foldl
      (fun registry e => captureSchema code registry e.2) s.pluginRegistry }

/-- `set_plugin_enabled`, undisturbed. -/
def setPluginEnabled [Config.ConfigText β] (s : ServerState P H β) (pluginId : String)
    (enabled : Bool) : ServerState P H β :=
  let out := Config.setPluginEnabled s.configStore pluginId enabled
  { s with configStore := out.2.finish out.1 }

def readPluginConfig (s : ServerState P H β) (pluginId : String) : Option Json :=
  (s.configStore.pluginConfig pluginId).map (·.config)

def notFound (pluginId : String) : Answer := .error (404, "Plugin not found: " ++ pluginId)

def standalone : Answer := .error (400, "Cannot control standalone plugins")

def lifecycleFailed (e : String) : Answer := .error (502, "Bridge lifecycle failed: " ++ e)

/-- `start` is how the start of each plugin with a configuration would go now. -/
def restartTier1 (s : ServerState P H β) (pluginId : String) (stop : P → P)
    (start : Json → P → StartRun P H) : ServerState P H β × Answer :=
  let config := (s.readPluginConfig pluginId).getD (.object [])
  let stopped := s.pluginManager.stopPlugin pluginId stop
  match stopped.2 with
  | .error e =>
    ({ s with pluginManager := stopped.1 }, .error (500, "Failed to stop plugin: " ++ e.text))
  | .ok () =>
    let started := stopped.1.startPlugin pluginId (start config)
    let s := { s with pluginManager := started.1 }.synced code c
    match started.2 with
    | .error e => (s, .error (500, "Failed to start plugin: " ++ e.text))
    | .ok () => (s, .ok ())

/-- `bridge` is what the bridge makes of the command. -/
def restartPlugin (s : ServerState P H β) (pluginId : String) (stop : P → P)
    (start : Json → P → StartRun P H) (bridge : Except String Unit) :
    ServerState P H β × Answer :=
  match s.pluginRegistry.lookup pluginId with
  | none => (s, notFound pluginId)
  | some info =>
    match info.tier with
    | .rust => s.restartTier1 code c pluginId stop start
    | .bridge =>
      match bridge with
      | .error e => (s, lifecycleFailed e)
      | .ok () => (s, .ok ())
    | .standalone => (s, standalone)

variable [Config.ConfigText β]

def enableTier1 (s : ServerState P H β) (pluginId : String) (start : Json → P → StartRun P H) :
    ServerState P H β × Answer :=
  let s := s.setPluginEnabled pluginId true
  let config := (s.readPluginConfig pluginId).getD (.object [])
  let started := s.pluginManager.startPlugin pluginId (start config)
  let s := { s with pluginManager := started.1 }.synced code c
  match started.2 with
  | .error e => (s, .error (500, "Failed to start plugin: " ++ e.text))
  | .ok () => (s, .ok ())

def enablePlugin (s : ServerState P H β) (pluginId : String) (start : Json → P → StartRun P H)
    (bridge : Except String Unit) : ServerState P H β × Answer :=
  match s.pluginRegistry.lookup pluginId with
  | none => (s, notFound pluginId)
  | some info =>
    match info.tier with
    | .rust => s.enableTier1 code c pluginId start
    | .bridge =>
      match bridge with
      | .error e => (s, lifecycleFailed e)
      | .ok () =>
        ({ s with pluginRegistry := s.pluginRegistry.updateStatus c.now pluginId "running" },
          .ok ())
    | .standalone => (s, standalone)

def disableTier1 (s : ServerState P H β) (pluginId : String) (stop : P → P) :
    ServerState P H β × Answer :=
  let s := s.setPluginEnabled pluginId false
  let stopped := s.pluginManager.stopPlugin pluginId stop
  let s := { s with pluginManager := stopped.1 }.synced code c
  match stopped.2 with
  | .error e => (s, .error (500, "Failed to stop plugin: " ++ e.text))
  | .ok () => (s, .ok ())

def disablePlugin (s : ServerState P H β) (pluginId : String) (stop : P → P)
    (bridge : Except String Unit) : ServerState P H β × Answer :=
  match s.pluginRegistry.lookup pluginId with
  | none => (s, notFound pluginId)
  | some info =>
    match info.tier with
    | .rust => s.disableTier1 code c pluginId stop
    | .bridge =>
      match bridge with
      | .error e => (s, lifecycleFailed e)
      | .ok () =>
        ({ s with pluginRegistry := s.pluginRegistry.updateStatus c.now pluginId "stopped" },
          .ok ())
    | .standalone => (s, standalone)

end ServerState

/-! What the calls do to the three parts of the state. -/

/-- Every plugin stands under its own id. -/
def Named (mgr : PluginManager P H) : Prop :=
  ∀ id entry, mgr.plugins.lookup id = some entry →
    (entry.plugin.metadata code.metadata).id = id

/-- What the registry has for a plugin once it has been synced. -/
def syncedInfo (entry : PluginEntry P) (old : Option PluginInfo) : PluginInfo :=
  let m := entry.plugin.metadata code.metadata
  let status := statusStr entry.status
  PluginRegistry.tier1 old c.now m.id m.name m.description m.version status.1 status.2

variable {code c} {mgr : PluginManager P H}

theorem lookup_syncTier1Status (hnamed : Named code mgr) (registry : PluginRegistry)
    (id : String) : (syncTier1Status code c registry mgr).lookup id =
      (mgr.plugins.lookup id).elim (registry.lookup id) fun entry =>
        some (syncedInfo code c entry (registry.lookup id)) := by
  refine (c.walk.order mgr.plugins).lookup_foldl
    (g := fun registry e => syncEntry code c registry e.2)
    (f := fun entry old => some (syncedInfo code c entry old)) (fun m e he k => ?_) registry id
  have hid := hnamed e.1 e.2 (((c.walk.order mgr.plugins).mem_iff e.1 e.2).mp he)
  rw [syncEntry, PluginRegistry.registerTier1, HashMap.lookup_insert, hid]
  split_ifs with hk
  · rw [hk, syncedInfo, hid]
  · rfl

/-- With the schema that the plugin has now, if it has one. -/
def captured (code : PluginCode P) (entry : PluginEntry P) (info : PluginInfo) : PluginInfo :=
  match entry.plugin.schema code.schema with
  | some schema => { info with schema := some schema }
  | none => info

theorem lookup_populate (hnamed : Named code mgr) (registry : PluginRegistry)
    (configStore : Config.ConfigStore β) (id : String) :
    ((⟨mgr, registry, configStore⟩ : ServerState P H β).populate code c).pluginRegistry.lookup id =
      (mgr.plugins.lookup id).elim (registry.lookup id) fun entry =>
        some (captured code entry (syncedInfo code c entry (registry.lookup id))) := by
  have hcapture := (c.walk.order mgr.plugins).lookup_foldl
    (g := fun registry e => captureSchema code registry e.2)
    (f := fun entry old => old.map (captured code entry)) (fun m e he k => ?_)
    (syncTier1Status code c registry mgr) id
  · refine hcapture.trans ?_
    rw [lookup_syncTier1Status hnamed]
    cases mgr.plugins.lookup id <;> rfl
  · have hid := hnamed e.1 e.2 (((c.walk.order mgr.plugins).mem_iff e.1 e.2).mp he)
    have hsame : ∀ old : Option PluginInfo, old.map (fun info => info) = old := by
      intro old
      cases old <;> rfl
    unfold captureSchema captured
    cases e.2.plugin.schema code.schema with
    | some schema => simp only [PluginRegistry.lookup_modify, hid]
    | none => simp only [hsame, ite_self]

/-- A start gives the plugin back under its own id. -/
def KeepsId (code : PluginCode P) (start : P → StartRun P H) : Prop :=
  ∀ p p', (start p).ending = .returned p' → (code.metadata p').id = (code.metadata p).id

/-- The same plugins, each under its own id. -/
structure SamePlugins (code : PluginCode P) (mgr mgr' : PluginManager P H) : Prop where
  named : Named code mgr'
  mem_iff : ∀ k, k ∈ mgr'.plugins ↔ k ∈ mgr.plugins

theorem SamePlugins.trans {mgr' mgr'' : PluginManager P H} (h : SamePlugins code mgr mgr')
    (h' : SamePlugins code mgr' mgr'') : SamePlugins code mgr mgr'' :=
  ⟨h'.named, fun k => (h'.mem_iff k).trans (h.mem_iff k)⟩

theorem samePlugins_insert (hnamed : Named code mgr) {mgr' : PluginManager P H} {id : String}
    {old entry : PluginEntry P} (hold : mgr.plugins.lookup id = some old)
    (h : (entry.plugin.metadata code.metadata).id = id)
    (hinsert : mgr'.plugins = mgr.plugins.insert id entry) : SamePlugins code mgr mgr' where
  named := by
    intro k e he
    rw [hinsert, HashMap.lookup_insert] at he
    split_ifs at he with hk
    · rw [hk, ← Option.some.inj he, h]
    · exact hnamed k e he
  mem_iff := by
    intro k
    rw [hinsert, Finmap.mem_insert]
    refine ⟨fun hmem => hmem.elim (fun hk => ?_) fun hk => hk, .inr⟩
    rw [hk]
    exact Finmap.mem_of_lookup_eq_some hold

theorem samePlugins_stop (hnamed : Named code mgr) {stop : P → P}
    (hstop : ∀ p, (code.metadata (stop p)).id = (code.metadata p).id) (id : String) :
    SamePlugins code mgr (mgr.stopPlugin id stop).1 := by
  rw [PluginManager.stopPlugin]
  cases hid : mgr.plugins.lookup id with
  | none => exact ⟨hnamed, fun k => Iff.rfl⟩
  | some entry =>
    dsimp only
    split_ifs
    · exact ⟨hnamed, fun k => Iff.rfl⟩
    · have hname := hnamed id entry hid
      refine samePlugins_insert hnamed hid ?_ rfl
      cases hp : entry.plugin with
      | plugin p =>
        rw [hp] at hname
        exact (hstop p).trans hname
      | placeholder id' =>
        rw [hp] at hname
        exact hname

theorem samePlugins_start (hnamed : Named code mgr) {start : P → StartRun P H}
    (hstart : KeepsId code start) (id : String) :
    SamePlugins code mgr (mgr.startPlugin id start).1 := by
  rw [PluginManager.startPlugin]
  cases hid : mgr.plugins.lookup id with
  | none => exact ⟨hnamed, fun k => Iff.rfl⟩
  | some entry =>
    dsimp only
    split_ifs
    · exact ⟨hnamed, fun k => Iff.rfl⟩
    · have hname := hnamed id entry hid
      cases hend : (entry.plugin.start start).ending.result id with
      | error e =>
        refine samePlugins_insert hnamed hid ?_ rfl
        rfl
      | ok p' =>
        refine samePlugins_insert hnamed hid ?_ rfl
        cases hp : entry.plugin with
        | plugin p =>
          rw [hp] at hname hend
          have hreturned : (start p).ending = .returned p' := by
            cases hrun : (start p).ending <;> simp_all [Boxed.start, StartEnd.result]
          exact (hstart p p' hreturned).trans hname
        | placeholder id' =>
          rw [hp] at hend
          cases hend

end

end SignalK.Plugins

import Mathlib.Logic.Function.Basic
import SignalK.Plugins.Registry

/-! The registry beside the plugin manager and beside what was set at the start, over runs of
the calls that change any of them. -/
namespace SignalK.Plugins

inductive AdminCall (P H : Type) where
  | populate
  | setWebappUrl (pluginId url : String)
  | bridgePlugins (report : List BridgePluginInfo)
  | enablePlugin (pluginId : String) (start : Json → P → StartRun P H)
      (bridge : Except String Unit)
  | disablePlugin (pluginId : String) (stop : P → P) (bridge : Except String Unit)
  | restartPlugin (pluginId : String) (stop : P → P) (start : Json → P → StartRun P H)
      (bridge : Except String Unit)

namespace AdminCall
variable {P H β : Type}

def apply [Config.ConfigText β] (code : PluginCode P) (c : Circumstances P)
    (s : ServerState P H β) : AdminCall P H → ServerState P H β × Answer
  | .populate => (s.populate code c, .ok ())
  | .setWebappUrl pluginId url =>
    ({ s with pluginRegistry := s.pluginRegistry.setWebappUrl pluginId url }, .ok ())
  | .bridgePlugins report =>
    ({ s with pluginRegistry := report.foldl PluginRegistry.registerTier2 s.pluginRegistry },
      .ok ())
  | .enablePlugin pluginId start bridge => s.enablePlugin code c pluginId start bridge
  | .disablePlugin pluginId stop bridge => s.disablePlugin code c pluginId stop bridge
  | .restartPlugin pluginId stop start bridge => s.restartPlugin code c pluginId stop start bridge

/-- The plugins that a call is about. -/
def addressed : AdminCall P H → List String
  | .populate => []
  | .setWebappUrl pluginId _ => [pluginId]
  | .bridgePlugins report => report.map (·.id)
  | .enablePlugin pluginId _ _ => [pluginId]
  | .disablePlugin pluginId _ _ => [pluginId]
  | .restartPlugin pluginId _ _ _ => [pluginId]

/-- The bridge has plugins of its own, and no plugin changes its id. -/
def Legal (code : PluginCode P) (mgr : PluginManager P H) : AdminCall P H → Prop
  | .populate => True
  | .setWebappUrl _ _ => True
  | .bridgePlugins report => ∀ info ∈ report, info.id ∉ mgr.plugins
  | .enablePlugin _ start _ => ∀ config, KeepsId code (start config)
  | .disablePlugin _ stop _ => ∀ p, (code.metadata (stop p)).id = (code.metadata p).id
  | .restartPlugin _ stop start _ =>
    (∀ p, (code.metadata (stop p)).id = (code.metadata p).id) ∧ ∀ config, KeepsId code (start config)

end AdminCall

/-- What has been set: schemas whenever the registry was populated, and the URLs of webapps. -/
structure Intended where
  populated : Bool
  schema : String → Option Json
  webappUrl : String → Option String

section
variable {P H β : Type}

def Intended.after (g : Intended) (code : PluginCode P) (s : ServerState P H β) :
    AdminCall P H → Intended
  | .populate =>
    { g with
      populated := true
      schema := fun id =>
        ((s.pluginManager.boxed id).bind (·.schema code.schema)).or (g.schema id) }
  | .setWebappUrl pluginId url =>
    if pluginId ∈ s.pluginRegistry then
      { g with webappUrl := Function.update g.webappUrl pluginId (some url) }
    else g
  | _ => g

/-- Once the registry is populated every plugin is in it; status and flag are those of the
manager, and the rest is what was set. -/
structure Mirrors (s : ServerState P H β) (g : Intended) : Prop where
  listed : g.populated = true → ∀ id ∈ s.pluginManager.plugins,
    ∃ info, s.pluginRegistry.lookup id = some info ∧ info.tier = .rust
  same : ∀ id info, s.pluginRegistry.lookup id = some info → info.tier = .rust →
    ∃ entry, s.pluginManager.plugins.lookup id = some entry ∧
      (info.status, info.enabled) = statusStr entry.status ∧ info.schema = g.schema id ∧
      info.hasWebapp = (g.webappUrl id).isSome ∧ info.webappUrl = g.webappUrl id

/-- The entry of another tier, if it is one. -/
def PluginRegistry.other (r : PluginRegistry) (id : String) : Option PluginInfo :=
  (r.lookup id).filter (·.tier ≠ .rust)

/-- The persisted flag of a plugin. -/
def ServerState.flag (s : ServerState P H β) (id : String) : Option Bool :=
  (s.configStore.pluginConfig id).map (·.enabled)

/-- The state with what has been set, and what the last call found, was and answered. -/
structure Watched (P H β : Type) where
  server : ServerState P H β
  intended : Intended
  last : Option (ServerState P H β × AdminCall P H × Answer)

namespace Watched

def start (s : ServerState P H β) : Watched P H β :=
  ⟨s, ⟨false, fun _ => none, fun _ => none⟩, none⟩

def step [Config.ConfigText β] (code : PluginCode P) (w : Watched P H β)
    (e : Circumstances P × AdminCall P H) : Watched P H β × List Answer :=
  let out := e.2.apply code e.1 w.server
  (⟨out.1, w.intended.after code w.server e.2, some (w.server, e.2, out.2)⟩, [out.2])

/-- The last call left the other tiers alone apart from what it was about, and no flag changed
if it replied with an error. -/
structure Good (w : Watched P H β) : Prop where
  mirrors : Mirrors w.server w.intended
  others : ∀ before call answer, w.last = some (before, call, answer) → ∀ id ∉ call.addressed,
    w.server.pluginRegistry.other id = before.pluginRegistry.other id
  flags : ∀ before call e, w.last = some (before, call, .error e) → ∀ id,
    w.server.flag id = before.flag id

end Watched

/-- No Tier 1 plugin has anything in the registry that a sync loses. -/
def Bare (r : PluginRegistry) : Prop :=
  ∀ id info, r.lookup id = some info → info.tier = .rust →
    info.schema = none ∧ info.hasWebapp = false ∧ info.webappUrl = none

/-- The plugin does not run and would not start. -/
def StartFails (mgr : PluginManager P H) (pluginId : String) (start : P → StartRun P H) : Prop :=
  ∃ entry e, mgr.plugins.lookup pluginId = some entry ∧ entry.status.isRunning = false ∧
    (entry.plugin.start start).ending.result pluginId = .error e

/-- The call syncs only where there is nothing to lose, and persists the flag of a plugin that
does not start only if it is set already. -/
def AdminCall.Careful (code : PluginCode P) (s : ServerState P H β) : AdminCall P H → Prop
  | .populate => ∀ id info entry, s.pluginRegistry.lookup id = some info → info.tier = .rust →
      s.pluginManager.plugins.lookup id = some entry →
      (entry.plugin.schema code.schema = none → info.schema = none) ∧
        info.hasWebapp = false ∧ info.webappUrl = none
  | .setWebappUrl _ _ => True
  | .bridgePlugins _ => True
  | .enablePlugin pluginId start _ => ∀ info, s.pluginRegistry.lookup pluginId = some info →
      info.tier = .rust → Bare s.pluginRegistry ∧
        (StartFails s.pluginManager pluginId
            (start ((s.readPluginConfig pluginId).getD (.object []))) →
          s.flag pluginId = some true)
  | .disablePlugin pluginId _ _ => ∀ info, s.pluginRegistry.lookup pluginId = some info →
      info.tier = .rust → Bare s.pluginRegistry
  | .restartPlugin pluginId _ _ _ => ∀ info, s.pluginRegistry.lookup pluginId = some info →
      info.tier = .rust → Bare s.pluginRegistry

/-- What holds besides in every run. -/
structure Regular (code : PluginCode P) (mgr : PluginManager P H) (s : ServerState P H β)
    (g : Intended) : Prop where
  plugins : SamePlugins code mgr s.pluginManager
  apart : ∀ id info, s.pluginRegistry.lookup id = some info → info.tier ≠ .rust →
    id ∉ s.pluginManager.plugins
  unset : ∀ id, s.pluginRegistry.lookup id = none → g.schema id = none ∧ g.webappUrl id = none

variable {code : PluginCode P} {c : Circumstances P} {mgr : PluginManager P H}
  {s : ServerState P H β} {g : Intended}

theorem Regular.named (h : Regular code mgr s g) : Named code s.pluginManager := h.plugins.named

/-- A plugin of the manager has an entry of Tier 1, if any. -/
theorem Regular.rust (h : Regular code mgr s g) {id : String} {info : PluginInfo}
    (hid : id ∈ s.pluginManager.plugins) (hinfo : s.pluginRegistry.lookup id = some info) :
    info.tier = .rust := by
  by_contra hother
  exact h.apart id info hinfo hother hid

/-- A registry in which every plugin of the manager has been registered again mirrors the
manager as far as the schemas are right and no webapp was set. -/
theorem mirrors_rebuilt_iff (hm : Mirrors s g) {s' : ServerState P H β}
    (hsame : SamePlugins code s.pluginManager s'.pluginManager) {g' : Intended}
    (hurl : g'.webappUrl = g.webappUrl)
    {rebuilt : PluginEntry P → Option PluginInfo → PluginInfo}
    (htier : ∀ entry old, (rebuilt entry old).tier = .rust)
    (hstatus : ∀ entry old,
      ((rebuilt entry old).status, (rebuilt entry old).enabled) = statusStr entry.status)
    (hbare : ∀ entry old, (rebuilt entry old).hasWebapp = false ∧
      (rebuilt entry old).webappUrl = none)
    (hlookup : ∀ id, s'.pluginRegistry.lookup id =
      (s'.pluginManager.plugins.lookup id).elim (s.pluginRegistry.lookup id) fun entry =>
        some (rebuilt entry (s.pluginRegistry.lookup id))) :
    Mirrors s' g' ↔ ∀ id entry, s'.pluginManager.plugins.lookup id = some entry →
      (rebuilt entry (s.pluginRegistry.lookup id)).schema = g'.schema id ∧
        g.webappUrl id = none := by
  have hpresent : ∀ id entry, s'.pluginManager.plugins.lookup id = some entry →
      s'.pluginRegistry.lookup id = some (rebuilt entry (s.pluginRegistry.lookup id)) := by
    intro id entry hentry
    rw [hlookup, hentry, Option.elim_some]
  constructor
  · intro hmirrors id entry hentry
    obtain ⟨entry', -, -, hschema, -, hwebapp⟩ :=
      hmirrors.same id _ (hpresent id entry hentry) (htier _ _)
    rw [(hbare _ _).2, hurl] at hwebapp
    exact ⟨hschema, hwebapp.symm⟩
  · intro hkept
    refine ⟨fun _ id hid => ?_, fun id info hinfo hrust => ?_⟩
    · obtain ⟨entry, hentry⟩ := Finmap.mem_iff.mp hid
      exact ⟨_, hpresent id entry hentry, htier _ _⟩
    · cases hentry : s'.pluginManager.plugins.lookup id with
      | none =>
        rw [hlookup, hentry, Option.elim_none] at hinfo
        obtain ⟨entry, hold, -⟩ := hm.same id info hinfo hrust
        have hmem := (hsame.mem_iff id).mpr (Finmap.mem_of_lookup_eq_some hold)
        obtain ⟨entry', hentry'⟩ := Finmap.mem_iff.mp hmem
        rw [hentry] at hentry'
        cases hentry'
      | some entry =>
        obtain ⟨hschema, hwebapp⟩ := hkept id entry hentry
        have heq := (hpresent id entry hentry).symm.trans hinfo
        rw [← Option.some.inj heq]
        refine ⟨entry, rfl, hstatus _ _, hschema, ?_, ?_⟩
        · rw [(hbare _ _).1, hurl, hwebapp, Option.isSome_none]
        · rw [(hbare _ _).2, hurl, hwebapp]

/-- Where nothing can be lost nothing has been set. -/
theorem bare_iff (h : Regular code mgr s g) (hm : Mirrors s g) :
    Bare s.pluginRegistry ↔ ∀ id ∈ s.pluginManager.plugins,
      g.schema id = none ∧ g.webappUrl id = none := by
  constructor
  · intro hbare id hid
    cases hinfo : s.pluginRegistry.lookup id with
    | none => exact h.unset id hinfo
    | some info =>
      have hrust := h.rust hid hinfo
      obtain ⟨entry, -, -, hschema, -, hwebapp⟩ := hm.same id info hinfo hrust
      obtain ⟨hnone, -, hurl⟩ := hbare id info hinfo hrust
      exact ⟨hschema.symm.trans hnone, hwebapp.symm.trans hurl⟩
  · intro hunset id info hinfo hrust
    obtain ⟨entry, hentry, -, hschema, hhas, hwebapp⟩ := hm.same id info hinfo hrust
    obtain ⟨hnone, hurl⟩ := hunset id (Finmap.mem_of_lookup_eq_some hentry)
    rw [hurl] at hhas hwebapp
    exact ⟨hschema.trans hnone, hhas, hwebapp⟩

theorem lookup_synced {s' : ServerState P H β}
    (hsame : SamePlugins code s.pluginManager s'.pluginManager)
    (hregistry : s'.pluginRegistry = s.pluginRegistry) (id : String) :
    (s'.synced code c).pluginRegistry.lookup id =
      ((s'.synced code c).pluginManager.plugins.lookup id).elim (s.pluginRegistry.lookup id)
        fun entry => some (syncedInfo code c entry (s.pluginRegistry.lookup id)) := by
  rw [← hregistry]
  exact lookup_syncTier1Status hsame.named s'.pluginRegistry id

/-- A sync with the same plugins keeps to what was set if there was nothing to lose. -/
theorem mirrors_synced_iff (h : Regular code mgr s g) (hm : Mirrors s g)
    {s' : ServerState P H β}
    (hsame : SamePlugins code s.pluginManager s'.pluginManager)
    (hregistry : s'.pluginRegistry = s.pluginRegistry) :
    Mirrors (s'.synced code c) g ↔ Bare s.pluginRegistry := by
  have hsynced : SamePlugins code s.pluginManager (s'.synced code c).pluginManager := hsame
  rw [bare_iff h hm, mirrors_rebuilt_iff hm hsynced rfl (fun _ _ => rfl)
    (fun _ _ => rfl) (fun _ _ => ⟨rfl, rfl⟩) (lookup_synced hsame hregistry)]
  constructor
  · intro hkept id hid
    obtain ⟨entry, hentry⟩ := Finmap.mem_iff.mp ((hsame.mem_iff id).mpr hid)
    obtain ⟨hschema, hwebapp⟩ := hkept id entry hentry
    exact ⟨hschema.symm, hwebapp⟩
  · intro hunset id entry hentry
    have hid := (hsame.mem_iff id).mp (Finmap.mem_of_lookup_eq_some hentry)
    exact ⟨(hunset id hid).1.symm, (hunset id hid).2⟩

theorem PluginRegistry.other_eq_none {r : PluginRegistry} {id : String}
    (h : ∀ info, r.lookup id = some info → info.tier = .rust) : r.other id = none := by
  rw [other]
  cases hinfo : r.lookup id with
  | none => rfl
  | some info => simp [Option.filter, h info hinfo]

theorem PluginRegistry.other_congr {r r' : PluginRegistry} {id : String}
    (h : r'.lookup id = r.lookup id) : r'.other id = r.other id := by
  rw [other, other, h]

/-- A registry in which only plugins of the manager have been registered again has the other
tiers as before. -/
theorem other_rebuilt (h : Regular code mgr s g) {s' : ServerState P H β}
    (hsame : SamePlugins code s.pluginManager s'.pluginManager)
    {rebuilt : PluginEntry P → Option PluginInfo → PluginInfo}
    (htier : ∀ entry old, (rebuilt entry old).tier = .rust)
    (hlookup : ∀ id, s'.pluginRegistry.lookup id =
      (s'.pluginManager.plugins.lookup id).elim (s.pluginRegistry.lookup id) fun entry =>
        some (rebuilt entry (s.pluginRegistry.lookup id))) (id : String) :
    s'.pluginRegistry.other id = s.pluginRegistry.other id := by
  cases hentry : s'.pluginManager.plugins.lookup id with
  | none =>
    apply PluginRegistry.other_congr
    rw [hlookup, hentry, Option.elim_none]
  | some entry =>
    have hid := (hsame.mem_iff id).mp (Finmap.mem_of_lookup_eq_some hentry)
    rw [PluginRegistry.other_eq_none fun info hinfo => h.rust hid hinfo]
    apply PluginRegistry.other_eq_none
    intro info hinfo
    rw [hlookup, hentry, Option.elim_some] at hinfo
    rw [← Option.some.inj hinfo, htier]

/-- What is regular stays so when only plugins of the manager are registered again. -/
theorem regular_rebuilt (h : Regular code mgr s g) {s' : ServerState P H β}
    (hsame : SamePlugins code s.pluginManager s'.pluginManager) {g' : Intended}
    (hurl : g'.webappUrl = g.webappUrl)
    (hschema : ∀ id ∉ s.pluginManager.plugins, g'.schema id = g.schema id)
    {rebuilt : PluginEntry P → Option PluginInfo → PluginInfo}
    (htier : ∀ entry old, (rebuilt entry old).tier = .rust)
    (hlookup : ∀ id, s'.pluginRegistry.lookup id =
      (s'.pluginManager.plugins.lookup id).elim (s.pluginRegistry.lookup id) fun entry =>
        some (rebuilt entry (s.pluginRegistry.lookup id))) : Regular code mgr s' g' where
  plugins := h.plugins.trans hsame
  apart := by
    intro id info hinfo hother hid
    obtain ⟨entry, hentry⟩ := Finmap.mem_iff.mp hid
    rw [hlookup, hentry, Option.elim_some] at hinfo
    rw [← Option.some.inj hinfo, htier] at hother
    exact hother rfl
  unset := by
    intro id hnone
    cases hentry : s'.pluginManager.plugins.lookup id with
    | none =>
      rw [hlookup, hentry, Option.elim_none] at hnone
      have hid : id ∉ s.pluginManager.plugins := by
        intro hid
        obtain ⟨entry, hsome⟩ := Finmap.mem_iff.mp ((hsame.mem_iff id).mpr hid)
        rw [hentry] at hsome
        cases hsome
      rw [hurl, hschema id hid]
      exact h.unset id hnone
    | some entry =>
      rw [hlookup, hentry, Option.elim_some] at hnone
      cases hnone

/-! The flag, and the answers of the manager. -/

theorem flag_setPluginEnabled [Config.ConfigText β] (s : ServerState P H β) (pluginId : String)
    (enabled : Bool) (id : String) : (s.setPluginEnabled pluginId enabled).flag id =
      if id = pluginId then some enabled else s.flag id := by
  change ((s.configStore.cache.plugins.insert pluginId
    (Config.withEnabled s.configStore pluginId enabled)).lookup id).map (·.enabled) = _
  rw [HashMap.lookup_insert]
  split_ifs <;> rfl

theorem config_setPluginEnabled [Config.ConfigText β] (s : ServerState P H β)
    (pluginId : String) (enabled : Bool) :
    ((s.setPluginEnabled pluginId enabled).readPluginConfig pluginId).getD (.object []) =
      (s.readPluginConfig pluginId).getD (.object []) := by
  change (((s.configStore.cache.plugins.insert pluginId
    (Config.withEnabled s.configStore pluginId enabled)).lookup pluginId).map (·.config)).getD
      (.object []) = ((s.configStore.cache.plugins.lookup pluginId).map (·.config)).getD (.object [])
  rw [HashMap.lookup_insert, if_pos rfl, Config.withEnabled]
  cases s.configStore.cache.plugins.lookup pluginId <;> rfl

theorem stopPlugin_ok {m : PluginManager P H} {id : String} (hid : id ∈ m.plugins)
    (stop : P → P) : (m.stopPlugin id stop).2 = .ok () := by
  obtain ⟨entry, hentry⟩ := Finmap.mem_iff.mp hid
  rw [PluginManager.stopPlugin, hentry]
  dsimp only
  split_ifs <;> rfl

theorem startPlugin_error_iff {m : PluginManager P H} {id : String} (hid : id ∈ m.plugins)
    (start : P → StartRun P H) :
    (∃ e, (m.startPlugin id start).2 = .error e) ↔ StartFails m id start := by
  obtain ⟨entry, hentry⟩ := Finmap.mem_iff.mp hid
  have hfails : StartFails m id start ↔ entry.status.isRunning = false ∧
      ∃ e, (entry.plugin.start start).ending.result id = .error e := by
    constructor
    · intro h
      obtain ⟨entry', e, hentry', hrun, hend⟩ := h
      rw [hentry] at hentry'
      cases hentry'
      exact ⟨hrun, e, hend⟩
    · intro h
      obtain ⟨hrun, e, hend⟩ := h
      exact ⟨entry, e, hentry, hrun, hend⟩
  rw [hfails, PluginManager.startPlugin, hentry]
  cases hrun : entry.status.isRunning with
  | true => simp [hrun]
  | false =>
    cases hend : (entry.plugin.start start).ending.result id with
    | ok p => simp [hrun, hend]
    | error e => simp [hrun, hend]

/-! What one call leads to. -/

/-- The state is regular after a call, the other tiers are left alone, and the rest is as it
should be exactly under a condition. -/
structure Outcome (code : PluginCode P) (mgr : PluginManager P H) (g : Intended)
    (s s' : ServerState P H β) (addressed : List String) (answer : Answer) (cond : Prop) :
    Prop where
  regular : Regular code mgr s' g
  others : ∀ id ∉ addressed, s'.pluginRegistry.other id = s.pluginRegistry.other id
  good_iff : (Mirrors s' g ∧ ∀ e, answer = .error e → ∀ id, s'.flag id = s.flag id) ↔ cond

theorem outcome_unchanged (h : Regular code mgr s g) (hm : Mirrors s g) (addressed : List String)
    (answer : Answer) : Outcome code mgr g s s addressed answer True where
  regular := h
  others := fun _ _ => rfl
  good_iff := iff_true_intro ⟨hm, fun _ _ _ => rfl⟩

theorem Outcome.congr {g : Intended} {s s' : ServerState P H β} {addressed : List String}
    {answer : Answer} {cond cond' : Prop} (h : Outcome code mgr g s s' addressed answer cond)
    (hcond : cond ↔ cond') : Outcome code mgr g s s' addressed answer cond' :=
  ⟨h.regular, h.others, h.good_iff.trans hcond⟩

theorem outcome_synced (h : Regular code mgr s g) (hm : Mirrors s g) {s' : ServerState P H β}
    (hsame : SamePlugins code s.pluginManager s'.pluginManager)
    (hregistry : s'.pluginRegistry = s.pluginRegistry) (addressed : List String)
    {answer : Answer} {cond : Prop}
    (hflag : (∀ e, answer = .error e → ∀ id, s'.flag id = s.flag id) ↔ cond) :
    Outcome code mgr g s (s'.synced code c) addressed answer (Bare s.pluginRegistry ∧ cond) where
  regular := by
    have hsynced : SamePlugins code s.pluginManager (s'.synced code c).pluginManager := hsame
    refine regular_rebuilt h hsynced rfl (fun _ _ => rfl) ?_ (lookup_synced hsame hregistry)
    exact fun _ _ => rfl
  others := by
    intro id _
    have hsynced : SamePlugins code s.pluginManager (s'.synced code c).pluginManager := hsame
    refine other_rebuilt h hsynced ?_ (lookup_synced hsame hregistry) id
    exact fun _ _ => rfl
  good_iff := and_congr (mirrors_synced_iff h hm hsame hregistry) hflag

/-- A change of one entry of another tier, which stays one. -/
theorem outcome_other (h : Regular code mgr s g) (hm : Mirrors s g) {registry : PluginRegistry}
    {addressed : List String} (haddressed : ∀ id ∈ addressed, id ∉ s.pluginManager.plugins)
    (hsame : ∀ id ∉ addressed, registry.lookup id = s.pluginRegistry.lookup id)
    (hother : ∀ id ∈ addressed, ∀ info, registry.lookup id = some info → info.tier ≠ .rust)
    (hkept : ∀ id ∈ addressed, registry.lookup id = none → s.pluginRegistry.lookup id = none) :
    Outcome code mgr g s { s with pluginRegistry := registry } addressed (.ok ()) True where
  regular := by
    refine ⟨h.plugins, fun id info hinfo htier => ?_, fun id hnone => ?_⟩
    · by_cases hid : id ∈ addressed
      · exact haddressed id hid
      · exact h.apart id info ((hsame id hid).symm.trans hinfo) htier
    · by_cases hid : id ∈ addressed
      · exact h.unset id (hkept id hid hnone)
      · exact h.unset id ((hsame id hid).symm.trans hnone)
  others := fun id hid => PluginRegistry.other_congr (hsame id hid)
  good_iff := by
    refine iff_true_intro ⟨⟨fun hpop id hid => ?_, fun id info hinfo htier => ?_⟩,
      fun _ _ _ => rfl⟩
    · have hnot : id ∉ addressed := fun hmem => haddressed id hmem hid
      obtain ⟨info, hinfo, htier⟩ := hm.listed hpop id hid
      exact ⟨info, (hsame id hnot).trans hinfo, htier⟩
    · have hnot : id ∉ addressed := fun hmem => hother id hmem info hinfo htier
      exact hm.same id info ((hsame id hnot).symm.trans hinfo) htier

theorem outcome_populate (h : Regular code mgr s g) (hm : Mirrors s g) :
    Outcome code mgr (g.after code s (.populate : AdminCall P H)) s (s.populate code c) []
      (.ok ()) (AdminCall.Careful code s (.populate : AdminCall P H)) := by
  have hsame : SamePlugins code s.pluginManager (s.populate code c).pluginManager :=
    ⟨h.named, fun _ => Iff.rfl⟩
  have hlookup := lookup_populate (c := c) h.named s.pluginRegistry s.configStore
  have htier : ∀ (entry : PluginEntry P) (old : Option PluginInfo),
      (captured code entry (syncedInfo code c entry old)).tier = .rust := by
    intro entry old
    unfold captured
    cases entry.plugin.schema code.schema <;> rfl
  have hschema : ∀ (entry : PluginEntry P) (old : Option PluginInfo),
      (captured code entry (syncedInfo code c entry old)).schema =
        entry.plugin.schema code.schema := by
    intro entry old
    unfold captured
    cases entry.plugin.schema code.schema <;> rfl
  have hrest : ∀ (entry : PluginEntry P) (old : Option PluginInfo),
      ((captured code entry (syncedInfo code c entry old)).status,
        (captured code entry (syncedInfo code c entry old)).enabled) = statusStr entry.status ∧
      (captured code entry (syncedInfo code c entry old)).hasWebapp = false ∧
      (captured code entry (syncedInfo code c entry old)).webappUrl = none := by
    intro entry old
    unfold captured
    cases entry.plugin.schema code.schema <;> exact ⟨rfl, rfl, rfl⟩
  have hafter : ∀ id entry, s.pluginManager.plugins.lookup id = some entry →
      (g.after code s (.populate : AdminCall P H)).schema id =
        (entry.plugin.schema code.schema).or (g.schema id) := by
    intro id entry hentry
    simp only [Intended.after, PluginManager.boxed, hentry, Option.map_some, Option.bind_some]
  refine ⟨regular_rebuilt h hsame rfl (fun id hid => ?_) htier hlookup,
    fun id _ => other_rebuilt h hsame htier hlookup id, ?_⟩
  · have hnone := Finmap.lookup_eq_none.mpr hid
    simp only [Intended.after, PluginManager.boxed, hnone, Option.map_none, Option.bind_none,
      Option.none_or]
  · have hok : ∀ e, (Except.ok () : Answer) = .error e → ∀ id,
        (s.populate code c).flag id = s.flag id := fun _ _ _ => rfl
    have hurl : (g.after code s (.populate : AdminCall P H)).webappUrl = g.webappUrl := rfl
    rw [and_iff_left hok, mirrors_rebuilt_iff hm hsame hurl htier
      (fun entry old => (hrest entry old).1) (fun entry old => (hrest entry old).2) hlookup]
    constructor
    · intro hkept id info entry hinfo hrust hentry
      obtain ⟨hor, hurl⟩ := hkept id entry hentry
      obtain ⟨-, -, -, hold, hhas, hwebapp⟩ := hm.same id info hinfo hrust
      rw [hschema, hafter id entry hentry] at hor
      rw [hurl] at hhas hwebapp
      refine ⟨fun hnone => ?_, hhas, hwebapp⟩
      rw [hnone, Option.none_or] at hor
      exact hold.trans hor.symm
    · intro hcareful id entry hentry
      rw [hschema, hafter id entry hentry]
      cases hinfo : s.pluginRegistry.lookup id with
      | none =>
        obtain ⟨hnone, hurl⟩ := h.unset id hinfo
        rw [hnone, Option.or_none]
        exact ⟨rfl, hurl⟩
      | some info =>
        have hrust := h.rust (Finmap.mem_of_lookup_eq_some hentry) hinfo
        obtain ⟨-, -, -, hold, -, hwebapp⟩ := hm.same id info hinfo hrust
        obtain ⟨hnone, -, hurl⟩ := hcareful id info entry hinfo hrust hentry
        refine ⟨?_, hwebapp.symm.trans hurl⟩
        cases hnow : entry.plugin.schema code.schema with
        | some schema => rfl
        | none => rw [Option.none_or, ← hold, hnone hnow]

theorem outcome_setWebappUrl (h : Regular code mgr s g) (hm : Mirrors s g)
    (pluginId url : String) :
    Outcome code mgr (g.after code s (.setWebappUrl pluginId url : AdminCall P H)) s
      { s with pluginRegistry := s.pluginRegistry.setWebappUrl pluginId url } [pluginId]
      (.ok ()) True := by
  have hlookup := fun id => s.pluginRegistry.lookup_modify pluginId id
    fun info => { info with hasWebapp := true, webappUrl := some url }
  cases hinfo : s.pluginRegistry.lookup pluginId with
  | none =>
    have hregistry : s.pluginRegistry.setWebappUrl pluginId url = s.pluginRegistry := by
      rw [PluginRegistry.setWebappUrl, PluginRegistry.modify, hinfo]
    rw [hregistry, Intended.after, if_neg (Finmap.lookup_eq_none.mp hinfo)]
    exact outcome_unchanged h hm [pluginId] (.ok ())
  | some info =>
    rw [Intended.after, if_pos (Finmap.mem_of_lookup_eq_some hinfo)]
    have hset : (s.pluginRegistry.setWebappUrl pluginId url).lookup pluginId =
        some { info with hasWebapp := true, webappUrl := some url } := by
      rw [PluginRegistry.setWebappUrl, hlookup, if_pos rfl, hinfo, Option.map_some]
    have hrest : ∀ id, id ≠ pluginId →
        (s.pluginRegistry.setWebappUrl pluginId url).lookup id = s.pluginRegistry.lookup id := by
      intro id hid
      rw [PluginRegistry.setWebappUrl, hlookup, if_neg hid]
    refine ⟨⟨h.plugins, fun id info' hinfo' htier => ?_, fun id hnone => ?_⟩,
      fun id hid => PluginRegistry.other_congr (hrest id fun heq => hid (by simp [heq])),
      iff_true_intro ⟨⟨fun hpop id hid => ?_, fun id info' hinfo' htier => ?_⟩,
        fun _ _ _ => rfl⟩⟩
    · by_cases hid : id = pluginId
      · subst hid
        rw [hset] at hinfo'
        rw [← Option.some.inj hinfo'] at htier
        exact h.apart id info hinfo htier
      · rw [hrest id hid] at hinfo'
        exact h.apart id info' hinfo' htier
    · by_cases hid : id = pluginId
      · rw [hid, hset] at hnone
        cases hnone
      · rw [hrest id hid] at hnone
        dsimp only
        rw [Function.update_of_ne hid]
        exact h.unset id hnone
    · obtain ⟨info', hinfo', htier⟩ := hm.listed hpop id hid
      by_cases hid : id = pluginId
      · subst hid
        rw [hinfo] at hinfo'
        rw [← Option.some.inj hinfo'] at htier
        exact ⟨_, hset, htier⟩
      · exact ⟨info', (hrest id hid).trans hinfo', htier⟩
    · by_cases hid : id = pluginId
      · subst hid
        rw [hset] at hinfo'
        rw [← Option.some.inj hinfo'] at htier ⊢
        obtain ⟨entry, hentry, hstatus, hschema, -, -⟩ := hm.same id info hinfo htier
        dsimp only
        rw [Function.update_self]
        exact ⟨entry, hentry, hstatus, hschema, rfl, rfl⟩
      · rw [hrest id hid] at hinfo'
        dsimp only
        rw [Function.update_of_ne hid]
        exact hm.same id info' hinfo' htier

theorem lookup_registerTier2 (report : List BridgePluginInfo) (r : PluginRegistry) (id : String) :
    (id ∉ report.map (·.id) → (report.foldl PluginRegistry.registerTier2 r).lookup id = r.lookup id) ∧
    (id ∈ report.map (·.id) → ∃ info,
      (report.foldl PluginRegistry.registerTier2 r).lookup id = some info ∧ info.tier = .bridge) := by
  induction report using List.reverseRecOn with
  | nil => simp
  | append_singleton report e ih =>
    rw [List.foldl_append, List.foldl_cons, List.foldl_nil, PluginRegistry.registerTier2,
      HashMap.lookup_insert, List.map_append, List.mem_append, List.map_singleton,
      List.mem_singleton]
    by_cases hid : id = e.id
    · rw [if_pos hid]
      exact ⟨fun hnot => absurd (.inr hid) hnot, fun _ => ⟨_, rfl, rfl⟩⟩
    · rw [if_neg hid, or_iff_left hid]
      exact ih

theorem outcome_bridgePlugins (h : Regular code mgr s g) (hm : Mirrors s g)
    {report : List BridgePluginInfo} (hreport : ∀ info ∈ report, info.id ∉ mgr.plugins) :
    Outcome code mgr g s
      { s with pluginRegistry := report.foldl PluginRegistry.registerTier2 s.pluginRegistry }
      (report.map (·.id)) (.ok ()) True := by
  have hlookup := lookup_registerTier2 report s.pluginRegistry
  refine outcome_other h hm (fun id hid => ?_) (fun id => (hlookup id).1)
    (fun id hid info hinfo => ?_) fun id hid hnone => ?_
  · obtain ⟨info, hinfo, rfl⟩ := List.mem_map.mp hid
    rw [h.plugins.mem_iff]
    exact hreport info hinfo
  · obtain ⟨info', hinfo', htier⟩ := (hlookup id).2 hid
    rw [hinfo'] at hinfo
    rw [← Option.some.inj hinfo, htier]
    decide
  · obtain ⟨info', hinfo', -⟩ := (hlookup id).2 hid
    rw [hinfo'] at hnone
    cases hnone

theorem outcome_updateStatus (h : Regular code mgr s g) (hm : Mirrors s g) {pluginId : String}
    {info : PluginInfo} (hinfo : s.pluginRegistry.lookup pluginId = some info)
    (htier : info.tier ≠ .rust) (now status : String) :
    Outcome code mgr g s
      { s with pluginRegistry := s.pluginRegistry.updateStatus now pluginId status } [pluginId]
      (.ok ()) True := by
  have hlookup : ∀ id, (s.pluginRegistry.updateStatus now pluginId status).lookup id = _ :=
    fun id => s.pluginRegistry.lookup_modify pluginId id _
  refine outcome_other h hm (fun id hid => ?_) (fun id hid => ?_) (fun id hid info' hinfo' => ?_)
    fun id hid hnone => ?_
  · rw [List.mem_singleton.mp hid]
    exact h.apart pluginId info hinfo htier
  · rw [hlookup, if_neg (by simpa using hid)]
  · rw [List.mem_singleton.mp hid, hlookup, if_pos rfl, hinfo, Option.map_some] at hinfo'
    rw [← Option.some.inj hinfo']
    exact htier
  · rw [List.mem_singleton.mp hid, hlookup, if_pos rfl, hinfo, Option.map_some] at hnone
    cases hnone

/-- A registry without plugins has nothing to mirror. -/
theorem regular_start (hnamed : Named code s.pluginManager) (hempty : s.pluginRegistry = ∅) :
    Regular code s.pluginManager (Watched.start s).server (Watched.start s).intended := by
  refine ⟨⟨hnamed, fun k => Iff.rfl⟩, fun id info hinfo => ?_, fun id _ => ⟨rfl, rfl⟩⟩
  have hnone : s.pluginRegistry.lookup id = some info := hinfo
  rw [hempty] at hnone
  cases hnone

theorem good_start (hempty : s.pluginRegistry = ∅) : (Watched.start s).Good := by
  refine ⟨⟨fun hpop => ?_, fun id info hinfo => ?_⟩, fun _ _ _ h => ?_, fun _ _ _ h => ?_⟩
  · cases hpop
  · have hnone : s.pluginRegistry.lookup id = some info := hinfo
    rw [hempty] at hnone
    cases hnone
  · cases h
  · cases h

/-! The requests. -/

section
variable {pluginId : String} {stop : P → P} {start : Json → P → StartRun P H}

theorem outcome_restartTier1 (h : Regular code mgr s g) (hm : Mirrors s g)
    (hstop : ∀ p, (code.metadata (stop p)).id = (code.metadata p).id)
    (hstart : ∀ config, KeepsId code (start config)) (hid : pluginId ∈ s.pluginManager.plugins) :
    Outcome code mgr g s (s.restartTier1 code c pluginId stop start).1 [pluginId]
      (s.restartTier1 code c pluginId stop start).2 (Bare s.pluginRegistry) := by
  have hstopped := samePlugins_stop h.named hstop pluginId
  have hstarted := hstopped.trans (samePlugins_start hstopped.named
    (hstart ((s.readPluginConfig pluginId).getD (.object []))) pluginId)
  have hsynced : (s.restartTier1 code c pluginId stop start).1 =
      ServerState.synced code c { s with
        pluginManager := ((s.pluginManager.stopPlugin pluginId stop).1.startPlugin pluginId
          (start ((s.readPluginConfig pluginId).getD (.object [])))).1 } := by
    simp only [ServerState.restartTier1, stopPlugin_ok hid]
    split <;> rfl
  rw [hsynced]
  refine (outcome_synced h hm hstarted (by rfl) [pluginId] ?_).congr (and_iff_left trivial)
  exact iff_true_intro fun _ _ _ => rfl

variable [Config.ConfigText β]

theorem outcome_disableTier1 (h : Regular code mgr s g) (hm : Mirrors s g)
    (hstop : ∀ p, (code.metadata (stop p)).id = (code.metadata p).id)
    (hid : pluginId ∈ s.pluginManager.plugins) :
    Outcome code mgr g s (s.disableTier1 code c pluginId stop).1 [pluginId]
      (s.disableTier1 code c pluginId stop).2 (Bare s.pluginRegistry) := by
  have hstopped := samePlugins_stop h.named hstop pluginId
  have hok : (s.disableTier1 code c pluginId stop).2 = .ok () := by
    have hanswer := stopPlugin_ok hid stop
    unfold ServerState.disableTier1
    dsimp only [ServerState.setPluginEnabled]
    rw [hanswer]
  have hsynced : (s.disableTier1 code c pluginId stop).1 =
      ServerState.synced code c { s.setPluginEnabled pluginId false with
        pluginManager := (s.pluginManager.stopPlugin pluginId stop).1 } := by
    unfold ServerState.disableTier1
    dsimp only
    split <;> rfl
  rw [hsynced, hok]
  refine (outcome_synced h hm hstopped (by rfl) [pluginId] ?_).congr (and_iff_left trivial)
  refine iff_true_intro fun e he => ?_
  cases he

theorem outcome_enableTier1 (h : Regular code mgr s g) (hm : Mirrors s g)
    (hstart : ∀ config, KeepsId code (start config)) (hid : pluginId ∈ s.pluginManager.plugins) :
    Outcome code mgr g s (s.enableTier1 code c pluginId start).1 [pluginId]
      (s.enableTier1 code c pluginId start).2 (Bare s.pluginRegistry ∧
        (StartFails s.pluginManager pluginId
            (start ((s.readPluginConfig pluginId).getD (.object []))) →
          s.flag pluginId = some true)) := by
  have hconfig := config_setPluginEnabled s pluginId true
  have hstarted := samePlugins_start h.named
    (hstart ((s.readPluginConfig pluginId).getD (.object []))) pluginId
  have hfails := startPlugin_error_iff hid
    (start ((s.readPluginConfig pluginId).getD (.object [])))
  have hsynced : (s.enableTier1 code c pluginId start).1 =
      ServerState.synced code c { s.setPluginEnabled pluginId true with
        pluginManager := (s.pluginManager.startPlugin pluginId
          (start ((s.readPluginConfig pluginId).getD (.object [])))).1 } := by
    unfold ServerState.enableTier1
    dsimp only
    rw [hconfig]
    split <;> rfl
  have hanswer : (∃ e, (s.enableTier1 code c pluginId start).2 = .error e) ↔
      ∃ e, (s.pluginManager.startPlugin pluginId
        (start ((s.readPluginConfig pluginId).getD (.object [])))).2 = .error e := by
    unfold ServerState.enableTier1
    dsimp only
    rw [hconfig]
    have hmgr : (s.setPluginEnabled pluginId true).pluginManager = s.pluginManager := rfl
    rw [hmgr]
    cases (s.pluginManager.startPlugin pluginId
      (start ((s.readPluginConfig pluginId).getD (.object [])))).2 with
    | error e => simp
    | ok u => simp
  rw [hsynced]
  refine outcome_synced h hm hstarted (by rfl) [pluginId] ?_
  have hflag : ∀ id, (s.setPluginEnabled pluginId true).flag id =
      if id = pluginId then some true else s.flag id := flag_setPluginEnabled s pluginId true
  constructor
  · intro hkept hfail
    obtain ⟨e, he⟩ := hanswer.mpr (hfails.mpr hfail)
    have hsame := (hflag pluginId).symm.trans (hkept e he pluginId)
    rw [if_pos rfl] at hsame
    exact hsame.symm
  · intro hset e he id
    refine (hflag id).trans ?_
    split_ifs with hpid
    · rw [hpid, hset (hfails.mp (hanswer.mp ⟨e, he⟩))]
    · rfl

/-- Every call. -/
theorem outcome_apply (h : Regular code mgr s g) (hm : Mirrors s g) {call : AdminCall P H}
    (hlegal : call.Legal code mgr) :
    Outcome code mgr (g.after code s call) s (call.apply code c s).1 call.addressed
      (call.apply code c s).2 (call.Careful code s) := by
  have hmanager : ∀ id info, s.pluginRegistry.lookup id = some info → info.tier = .rust →
      id ∈ s.pluginManager.plugins := by
    intro id info hinfo hrust
    obtain ⟨entry, hentry, -⟩ := hm.same id info hinfo hrust
    exact Finmap.mem_of_lookup_eq_some hentry
  cases call with
  | populate => exact outcome_populate h hm
  | setWebappUrl id url => exact outcome_setWebappUrl h hm id url
  | bridgePlugins report => exact outcome_bridgePlugins h hm hlegal
  | enablePlugin id start bridge =>
    simp only [AdminCall.apply, AdminCall.Careful, ServerState.enablePlugin, Intended.after]
    cases hinfo : s.pluginRegistry.lookup id with
    | none => exact (outcome_unchanged h hm [id] _).congr (by simp)
    | some info =>
      simp only [Option.some.injEq, forall_eq']
      cases htier : info.tier with
      | rust =>
        exact (outcome_enableTier1 h hm hlegal (hmanager id info hinfo htier)).congr (by simp)
      | bridge =>
        cases bridge with
        | error e => exact (outcome_unchanged h hm [id] _).congr (by simp)
        | ok u =>
          exact (outcome_updateStatus h hm hinfo (by simp [htier]) c.now "running").congr (by simp)
      | standalone => exact (outcome_unchanged h hm [id] _).congr (by simp)
  | disablePlugin id stop bridge =>
    simp only [AdminCall.apply, AdminCall.Careful, ServerState.disablePlugin, Intended.after]
    cases hinfo : s.pluginRegistry.lookup id with
    | none => exact (outcome_unchanged h hm [id] _).congr (by simp)
    | some info =>
      simp only [Option.some.injEq, forall_eq']
      cases htier : info.tier with
      | rust =>
        exact (outcome_disableTier1 h hm hlegal (hmanager id info hinfo htier)).congr (by simp)
      | bridge =>
        cases bridge with
        | error e => exact (outcome_unchanged h hm [id] _).congr (by simp)
        | ok u =>
          exact (outcome_updateStatus h hm hinfo (by simp [htier]) c.now "stopped").congr (by simp)
      | standalone => exact (outcome_unchanged h hm [id] _).congr (by simp)
  | restartPlugin id stop start bridge =>
    simp only [AdminCall.apply, AdminCall.Careful, ServerState.restartPlugin, Intended.after]
    cases hinfo : s.pluginRegistry.lookup id with
    | none => exact (outcome_unchanged h hm [id] _).congr (by simp)
    | some info =>
      simp only [Option.some.injEq, forall_eq']
      cases htier : info.tier with
      | rust =>
        exact (outcome_restartTier1 h hm hlegal.1 hlegal.2
          (hmanager id info hinfo htier)).congr (by simp)
      | bridge =>
        cases bridge with
        | error e => exact (outcome_unchanged h hm [id] _).congr (by simp)
        | ok u => exact (outcome_unchanged h hm [id] _).congr (by simp)
      | standalone => exact (outcome_unchanged h hm [id] _).congr (by simp)

/-- A call keeps to what was set, to the other tiers and to the flags exactly if it is
careful. -/
theorem good_step_iff {w : Watched P H β} {e : Circumstances P × AdminCall P H}
    (h : Regular code mgr w.server w.intended) (hlegal : e.2.Legal code mgr) (hgood : w.Good) :
    (w.step code e).1.Good ↔ e.2.Careful code w.server := by
  obtain ⟨c, call⟩ := e
  have hout := outcome_apply (c := c) h hgood.mirrors hlegal
  rw [← hout.good_iff]
  constructor
  · intro hafter
    refine ⟨hafter.mirrors, fun e he => ?_⟩
    refine hafter.flags w.server call e ?_
    rw [← he]
    rfl
  · intro hkept
    refine ⟨hkept.1, fun before call' answer hlast => ?_, fun before call' e hlast => ?_⟩
    · cases hlast
      exact hout.others
    · simp only [Watched.step, Option.some.injEq, Prod.mk.injEq] at hlast
      obtain ⟨rfl, rfl, hanswer⟩ := hlast
      exact hkept.2 e hanswer

theorem regular_step {w : Watched P H β} {e : Circumstances P × AdminCall P H}
    (h : Regular code mgr w.server w.intended) (hlegal : e.2.Legal code mgr) (hgood : w.Good) :
    Regular code mgr (w.step code e).1.server (w.step code e).1.intended :=
  (outcome_apply h hgood.mirrors hlegal).regular

/-- Over a whole run the registry mirrors the manager, and flags stay where calls fail, exactly
if every call is careful. -/
theorem registry_mirrors_iff (code : PluginCode P) (s : ServerState P H β)
    (hnamed : Named code s.pluginManager) (hempty : s.pluginRegistry = ∅)
    (events : List (Circumstances P × AdminCall P H))
    (hlegal : ∀ e ∈ events, e.2.Legal code s.pluginManager) :
    (∀ fs, fs <+: events → (Machine.run (Watched.step code) (Watched.start s) fs).Good) ↔
      Machine.Meets (Watched.step code) (fun w e => e.2.Careful code w.server) (Watched.start s)
        events := by
  have hinv : ∀ (w : Watched P H β) (e : Circumstances P × AdminCall P H),
      Regular code s.pluginManager w.server w.intended → e.2.Legal code s.pluginManager →
      w.Good → (w.step code e).1.Good →
        Regular code s.pluginManager (w.step code e).1.server (w.step code e).1.intended :=
    fun w e hregular hl hg _ => regular_step hregular hl hg
  have hgood : ∀ (w : Watched P H β) (e : Circumstances P × AdminCall P H),
      Regular code s.pluginManager w.server w.intended → e.2.Legal code s.pluginManager →
      w.Good → ((w.step code e).1.Good ↔ e.2.Careful code w.server) :=
    fun w e hregular hl hg => good_step_iff hregular hl hg
  exact Machine.always_iff_meets hinv hgood (regular_start hnamed hempty) (good_start hempty) hlegal

end

end

/-! A plugin with a schema that is stopped. -/

section
local instance : Config.ConfigText Json := Config.ConfigText.whole

abbrev pilotCode : PluginCode Unit where
  metadata := pilotMetadata
  schema _ := some (.object [])

abbrev pilotServer : ServerState Unit String Json where
  pluginManager := pilotManager
  pluginRegistry := ∅
  configStore := ⟨∅, Config.ConfigCache.empty⟩

abbrev pilotEntry : PluginEntry Unit := ⟨.plugin (), .stopped, none⟩

abbrev atNoon : Circumstances Unit :=
  ⟨"2024-06-01T12:00:00Z", ⟨HashMap.ascending, HashMap.ascending_order⟩⟩

/-- The registry is populated, and then the plugin is disabled. -/
def populatedThenDisabled : List (Circumstances Unit × AdminCall Unit String) :=
  [(atNoon, .populate), (atNoon, .disablePlugin "pilot" id (.ok ()))]

theorem lookup_pilot (id : String) : pilotServer.pluginManager.plugins.lookup id =
    if id = "pilot" then some pilotEntry else none := by
  change ((∅ : HashMap String (PluginEntry Unit)).insert "pilot" pilotEntry).lookup id = _
  rw [HashMap.lookup_insert, Finmap.lookup_empty]

theorem named_pilot : Named pilotCode pilotServer.pluginManager := by
  intro id entry hentry
  rw [lookup_pilot] at hentry
  split_ifs at hentry with hid
  rw [← Option.some.inj hentry, hid]
  rfl

theorem legal_populatedThenDisabled :
    ∀ e ∈ populatedThenDisabled, e.2.Legal pilotCode pilotServer.pluginManager := by
  intro e he
  simp only [populatedThenDisabled, List.mem_cons, List.not_mem_nil, or_false] at he
  cases he with
  | inl he =>
    rw [he]
    trivial
  | inr he =>
    rw [he]
    exact fun p => rfl

theorem registry_loses_schema : ¬ ∀ (code : PluginCode Unit) (s : ServerState Unit String Json)
    (events : List (Circumstances Unit × AdminCall Unit String)),
    Named code s.pluginManager → s.pluginRegistry = ∅ →
    (∀ e ∈ events, e.2.Legal code s.pluginManager) →
    ∀ fs, fs <+: events → (Machine.run (Watched.step code) (Watched.start s) fs).Good := by
  intro h
  have hgood := h pilotCode pilotServer populatedThenDisabled named_pilot rfl
    legal_populatedThenDisabled
  have hone := hgood [(atNoon, .populate)] ⟨[(atNoon, .disablePlugin "pilot" id (.ok ()))], rfl⟩
  have htwo := hgood _ List.prefix_rfl
  have hregular := regular_step (e := (atNoon, .populate)) (regular_start named_pilot rfl) trivial
    (good_start (s := pilotServer) rfl)
  have hcareful := (good_step_iff (e := (atNoon, .disablePlugin "pilot" id (.ok ()))) hregular
    (fun p => rfl) hone).mp htwo
  have hinfo := lookup_populate (c := atNoon) named_pilot pilotServer.pluginRegistry
    pilotServer.configStore "pilot"
  rw [lookup_pilot, if_pos rfl, Option.elim_some] at hinfo
  have hbare := hcareful _ hinfo rfl "pilot" _ hinfo rfl
  cases hbare.1

theorem registry_mirrors_iff_pilot :
    (∀ fs, fs <+: populatedThenDisabled →
        (Machine.run (Watched.step pilotCode) (Watched.start pilotServer) fs).Good) ↔
      Machine.Meets (Watched.step pilotCode) (fun w e => e.2.Careful pilotCode w.server)
        (Watched.start pilotServer) populatedThenDisabled :=
  registry_mirrors_iff pilotCode pilotServer named_pilot rfl populatedThenDisabled
    legal_populatedThenDisabled

end

end SignalK.Plugins

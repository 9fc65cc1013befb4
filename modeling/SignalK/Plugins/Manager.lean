import SignalK.Plugins.Registries

/-! Starting and stopping plugins. How a plugin's own code behaves is open: a start
makes some calls on its context and then returns, fails or panics, and a plugin that
does not return is lost. -/
namespace SignalK

/-- The `Display` of an error. -/
def PluginError.text : PluginError → String
  | .config message => "invalid configuration: " ++ message
  | .io message => "I/O error: " ++ message
  | .json message => "JSON error: " ++ message
  | .runtime message => "runtime error: " ++ message
  | .invalidState message => "invalid state: " ++ message
  | .registration message => "registration rejected: " ++ message
  | .notFound message => "not found: " ++ message
  | .badRequest message => "bad request: " ++ message
  | .other message => message

namespace Plugins

structure PluginMetadata where
  id : String
  name : String
  description : String
  version : String
  deriving DecidableEq

inductive PluginStatus where
  | stopped
  | starting
  | running (message : String)
  | error (message : String)
  | stopping
  deriving DecidableEq

def PluginStatus.isRunning : PluginStatus → Bool
  | .running _ => true
  | _ => false

/-- What stands in an entry: a plugin, or what is put in its place while it starts. -/
inductive Boxed (P : Type) where
  | plugin (p : P)
  | placeholder (id : String)
  deriving DecidableEq

/-- How the task that runs a start ends. -/
inductive StartEnd (P : Type) where
  | returned (plugin : P)
  | failed (error : PluginError)
  | panicked
  | aborted (joinError : String)

/-- One run of a plugin's start. -/
structure StartRun (P H : Type) where
  calls : List (Call H)
  ending : StartEnd P

/-- `guarded`. -/
def StartEnd.result {P : Type} (pluginId : String) : StartEnd P → Except PluginError P
  | .returned plugin => .ok plugin
  | .failed error => .error error
  | .panicked => .error (.runtime ("plugin '" ++ pluginId ++ "' panicked"))
  | .aborted joinError =>
    .error (.runtime ("plugin '" ++ pluginId ++ "' task failed: " ++ joinError))

structure PluginEntry (P : Type) where
  plugin : Boxed P
  status : PluginStatus
  context : Option RustPluginContext

structure PluginManager (P H : Type) where
  plugins : HashMap String (PluginEntry P)
  registries : Registries H
  nextSerial : Nat

section
variable {P H : Type}

namespace Boxed

def metadata (metadata : P → PluginMetadata) : Boxed P → PluginMetadata
  | .plugin p => metadata p
  | .placeholder id => ⟨id, "placeholder", "", "0.0.0"⟩

/-- Starting what stands in an entry. -/
def start (start : P → StartRun P H) : Boxed P → StartRun P H
  | .plugin p => start p
  | .placeholder _ => ⟨[], .failed (.runtime "placeholder plugin cannot be started")⟩

def stop (stop : P → P) : Boxed P → Boxed P
  | .plugin p => .plugin (stop p)
  | .placeholder id => .placeholder id

end Boxed

namespace PluginManager

def unknown (pluginId : String) : PluginError :=
  .runtime ("Unknown plugin: " ++ pluginId)

def setEntry (m : PluginManager P H) (pluginId : String) (entry : PluginEntry P) :
    PluginManager P H :=
  { m with plugins := m.plugins.insert pluginId entry }

/-- `register`, before anything is started. -/
def register (m : PluginManager P H) (metadata : P → PluginMetadata) (plugin : P) :
    PluginManager P H :=
  m.setEntry (metadata plugin).id
    { plugin := .plugin plugin, status := .stopped, context := none }

/-- `start_plugin`, where `start` is how the start of each plugin would go now. -/
def startPlugin (m : PluginManager P H) (pluginId : String) (start : P → StartRun P H) :
    PluginManager P H × Except PluginError Unit :=
  match m.plugins.lookup pluginId with
  | none => (m, .error (unknown pluginId))
  | some entry =>
    if entry.status.isRunning then (m, .ok ())
    else
      let run := entry.plugin.start start
      let out := (RustPluginContext.new m.nextSerial pluginId).calls m.registries run.calls
      let m := { m with registries := out.1, nextSerial := m.nextSerial + 1 }
      match run.ending.result pluginId with
      | .ok plugin =>
        (m.setEntry pluginId
          { plugin := .plugin plugin, status := .running "Started", context := some out.2 }, .ok ())
      | .error e =>
        (m.setEntry pluginId
          { plugin := .placeholder pluginId, status := .error e.text, context := none }, .error e)

/-- `stop_plugin`; what `stop` answers is only logged. -/
def stopPlugin (m : PluginManager P H) (pluginId : String) (stop : P → P) :
    PluginManager P H × Except PluginError Unit :=
  match m.plugins.lookup pluginId with
  | none => (m, .error (unknown pluginId))
  | some entry =>
    if entry.status = .stopped then (m, .ok ())
    else
      ({ m with registries := m.registries.stopped pluginId entry.context }.setEntry pluginId
        { plugin := entry.plugin.stop stop, status := .stopped, context := none }, .ok ())

/-- A call that a running plugin makes on its context. -/
def callPlugin (m : PluginManager P H) (pluginId : String) (call : Call H) :
    PluginManager P H :=
  match m.plugins.lookup pluginId with
  | none => m
  | some entry =>
    match entry.context with
    | none => m
    | some context =>
      let out := context.call m.registries call
      { m with registries := out.1 }.setEntry pluginId { entry with context := some out.2 }

/-- What stands in the entry of a plugin. -/
def boxed (m : PluginManager P H) (pluginId : String) : Option (Boxed P) :=
  (m.plugins.lookup pluginId).map (·.plugin)

/-- After a start that failed nothing of the plugin is registered, its metadata are its
own and a later start would run it again. -/
structure Restored (metadata : P → PluginMetadata) (before after : PluginManager P H)
    (pluginId : String) : Prop where
  clean : (after.registries.entries pluginId).Clean
  tasks : (after.registries.entries pluginId).tasks = []
  metadata : (after.boxed pluginId).map (·.metadata metadata) =
    (before.boxed pluginId).map (·.metadata metadata)
  restarts : ∀ start : P → StartRun P H,
    (after.boxed pluginId).map (·.start start) = (before.boxed pluginId).map (·.start start)

theorem startPlugin_failed {m : PluginManager P H} {pluginId : String} {entry : PluginEntry P}
    {start : P → StartRun P H} {e : PluginError} (he : m.plugins.lookup pluginId = some entry)
    (hf : (m.startPlugin pluginId start).2 = .error e) :
    (m.startPlugin pluginId start).1.plugins.lookup pluginId =
        some ⟨.placeholder pluginId, .error e.text, none⟩ ∧
      (m.startPlugin pluginId start).1.registries =
        ((RustPluginContext.new m.nextSerial pluginId).calls m.registries
          (entry.plugin.start start).calls).1 := by
  by_cases hr : entry.status.isRunning = true
  · simp [startPlugin, he, hr] at hf
  · simp only [startPlugin, he, if_neg hr] at hf ⊢
    cases hend : (entry.plugin.start start).ending.result pluginId with
    | ok plugin =>
      simp only [hend] at hf
      cases hf
    | error e' =>
      simp only [hend, Except.error.injEq] at hf
      simp [setEntry, hf]

/-- Whatever a start registered before it failed stays registered, and the plugin is
never given back: a later start runs the placeholder. -/
theorem failed_start_not_restored (metadata : P → PluginMetadata) (m : PluginManager P H)
    (pluginId : String) (plugin : P) (start : P → StartRun P H) (e : PluginError)
    (hp : m.boxed pluginId = some (.plugin plugin))
    (hf : (m.startPlugin pluginId start).2 = .error e) :
    ¬ Restored metadata m (m.startPlugin pluginId start).1 pluginId ∧
      (m.startPlugin pluginId start).1.registries =
        ((RustPluginContext.new m.nextSerial pluginId).calls m.registries (start plugin).calls).1 ∧
      ∀ again : P → StartRun P H,
        ((m.startPlugin pluginId start).1.startPlugin pluginId again).2 =
          .error (.runtime "placeholder plugin cannot be started") := by
  obtain ⟨entry, hentry, hbox⟩ := Option.map_eq_some_iff.mp hp
  obtain ⟨hafter, hregistries⟩ := startPlugin_failed hentry hf
  rw [hbox] at hregistries
  refine ⟨fun h => ?_, hregistries, fun again => ?_⟩
  · have hstart := h.restarts fun p => ⟨[], .returned p⟩
    rw [hp, boxed, hafter] at hstart
    simp [Boxed.start] at hstart
  · rw [startPlugin, hafter]
    simp [PluginStatus.isRunning, Boxed.start, StartEnd.result]

/-- A server without anything registered. -/
def new : PluginManager P H where
  plugins := ∅
  registries := {
    routeTable := ∅
    putHandlerRegistry := ∅
    putHandlers := ∅
    pluginRoutes := ∅
    deltaFilter := []
    webappRegistry := []
    autopilotManager := some ⟨∅, none⟩
    resourceProviders := some ⟨∅, ∅⟩
    tasks := [] }
  nextSerial := 0

end PluginManager
end

section

abbrev pilotMetadata : Unit → PluginMetadata := fun _ => ⟨"pilot", "Pilot", "Steers", "1.0.0"⟩

abbrev pilotManager : PluginManager Unit String := PluginManager.new.register pilotMetadata ()

/-- A start that asks for its target path and for the heading, then finds its
configuration wanting. -/
abbrev misconfigured : Unit → StartRun Unit String := fun _ =>
  ⟨[.registerPutHandler "vessels.self" "steering.autopilot.target" "set target",
      .subscribe (SubscriptionSpec.selfVessel []) "on heading"], .failed (.config "no device")⟩

/-- The handler and the subscription outlive the failed start, and the entry has the
placeholder's metadata. -/
theorem misconfigured_not_restored :
    let after := (pilotManager.startPlugin "pilot" misconfigured).1
    (after.registries.entries "pilot").putPath "steering.autopilot.target" = true ∧
      (after.registries.entries "pilot").tasks.length = 1 ∧
      (after.boxed "pilot").map (·.metadata pilotMetadata) =
        some ⟨"pilot", "placeholder", "", "0.0.0"⟩ ∧
      ¬ PluginManager.Restored pilotMetadata pilotManager after "pilot" := by
  intro after
  have htasks : (after.registries.entries "pilot").tasks.length = 1 := by decide +kernel
  refine ⟨by decide +kernel, htasks, by decide +kernel, fun h => ?_⟩
  rw [h.tasks] at htasks
  cases htasks

theorem failed_start_not_restored_misconfigured :
    ¬ PluginManager.Restored pilotMetadata pilotManager
      (pilotManager.startPlugin "pilot" misconfigured).1 "pilot" :=
  (PluginManager.failed_start_not_restored pilotMetadata pilotManager "pilot" () misconfigured
    (.config "no device") (by decide +kernel) (by decide +kernel)).1

end

end Plugins
end SignalK

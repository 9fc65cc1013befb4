import SignalK.Course.Resolve
import SignalK.Lib.HashMap
import SignalK.Plugins.Host

/-! The shared registries that plugins fill through their context, and what of them
belongs to one plugin. Handlers, callbacks and providers are values of a type `H` that
the registries only hand around. -/
namespace SignalK.Plugins
variable {H : Type}

structure RegisteredRoute (H : Type) where
  method : String
  path : String
  handler : H
  deriving DecidableEq

inductive WebappSource where
  | npmPackage
  | rustPlugin (pluginId : String)
  | bridgePlugin (pluginId : String)
  deriving DecidableEq

structure WebAppInfo where
  name : String
  version : String
  displayName : Option String
  description : Option String
  keywords : List String
  url : String
  publicDir : String
  source : Option WebappSource
  deriving DecidableEq

structure WebAppRegistration where
  displayName : String
  description : Option String
  publicDir : String

structure ProviderEntry (H : Type) where
  provider : H
  pluginName : String
  deriving DecidableEq

structure AutopilotManager (H : Type) where
  /-- device → provider -/
  providers : HashMap String (ProviderEntry H)
  defaultId : Option String

structure ResourceProviderRegistry (H : Type) where
  /-- resource type → providers in the order they are asked -/
  providers : HashMap String (List (String × H))
  /-- resource type → plugin that creates -/
  defaultCreateProvider : HashMap String String

/-- A live subscription task, with the context it was spawned through. -/
structure Task (H : Type) where
  context : Nat
  pluginId : String
  handle : Nat
  spec : SubscriptionSpec
  callback : H

structure Registries (H : Type) where
  /-- plugin → routes -/
  routeTable : HashMap String (List (RegisteredRoute H))
  /-- path → plugin and handler -/
  putHandlerRegistry : HashMap String (String × H)
  /-- path → plugin, shared with the bridge -/
  putHandlers : HashMap String String
  /-- plugin → base URL -/
  pluginRoutes : HashMap String String
  deltaFilter : List (String × H)
  webappRegistry : List WebAppInfo
  autopilotManager : Option (AutopilotManager H)
  resourceProviders : Option (ResourceProviderRegistry H)
  tasks : List (Task H)

def AutopilotManager.register (m : AutopilotManager H) (deviceId : String) (provider : H)
    (pluginName : String) : AutopilotManager H where
  providers := m.providers.insert deviceId ⟨provider, pluginName⟩
  defaultId := if m.providers.keys = ∅ then some deviceId else m.defaultId

/-- Replace the plugin's provider in place, or add it at the end. -/
def ResourceProviderRegistry.place (pluginId : String) (provider : H) :
    List (String × H) → List (String × H)
  | [] => [(pluginId, provider)]
  | e :: list =>
    if e.1 = pluginId then (e.1, provider) :: list else e :: place pluginId provider list

def ResourceProviderRegistry.register (r : ResourceProviderRegistry H)
    (resourceType pluginId : String) (provider : H) : ResourceProviderRegistry H :=
  { r with
    providers := r.providers.alter resourceType [] (place pluginId provider) }

def ResourceProviderRegistry.unregister (r : ResourceProviderRegistry H) (pluginId : String) :
    ResourceProviderRegistry H where
  providers := r.providers.mapValues fun _ list => list.filter (·.1 ≠ pluginId)
  defaultCreateProvider := r.defaultCreateProvider.retain fun _ v => decide (v ≠ pluginId)

/-- `WebappRegistry::register`: names are not duplicated. -/
def registerWebapp (entries : List WebAppInfo) (info : WebAppInfo) : List WebAppInfo :=
  entries.filter (·.name ≠ info.name) ++ [info]

/-- The part of `RustPluginContext` that is its own; the serial number tells one context
from another. -/
structure RustPluginContext where
  serial : Nat
  pluginId : String
  subHandles : List Nat
  nextSubId : Nat
  deriving DecidableEq

def RustPluginContext.new (serial : Nat) (pluginId : String) : RustPluginContext where
  serial := serial
  pluginId := pluginId
  subHandles := []
  nextSubId := 1

/-- The calls of a context that register something or take it back. -/
inductive Call (H : Type) where
  | subscribe (spec : SubscriptionSpec) (callback : H)
  | unsubscribe (handle : Nat)
  | registerPutHandler (context path : String) (handler : H)
  | registerRoutes (routes : List (RegisteredRoute H))
  | registerWebapp (info : WebAppRegistration)
  | registerDeltaInputHandler (handler : H)
  | registerAutopilotProvider (deviceId : String) (provider : H)
  | registerResourceProvider (resourceType : String) (provider : H)

/-- The webapp that a plugin registers is named after it. -/
def pluginWebapp (pluginId : String) (info : WebAppRegistration) : WebAppInfo where
  name := pluginId
  version := ""
  displayName := some info.displayName
  description := info.description
  keywords := ["signalk-webapp"]
  url := "/@signalk/" ++ pluginId
  publicDir := info.publicDir
  source := some (.rustPlugin pluginId)

/-- A task is aborted through the handle that its context holds. -/
def RustPluginContext.aborts (c : RustPluginContext) (t : Task H) : Bool :=
  decide (t.context = c.serial ∧ t.handle ∈ c.subHandles)

/-- What a call does to the registries and the context. -/
def RustPluginContext.call (r : Registries H) (c : RustPluginContext) :
    Call H → Registries H × RustPluginContext
  | .subscribe spec callback =>
    ({ r with tasks := r.tasks ++ [⟨c.serial, c.pluginId, c.nextSubId, spec, callback⟩] },
      { c with subHandles := c.nextSubId :: c.subHandles, nextSubId := c.nextSubId + 1 })
  | .unsubscribe handle =>
    if handle ∈ c.subHandles then
      ({ r with
          tasks := r.tasks.filter fun t => decide (¬ (t.context = c.serial ∧ t.handle = handle)) },
        { c with subHandles := c.subHandles.filter (· ≠ handle) })
    else (r, c)
  | .registerPutHandler _ path handler =>
    ({ r with
        putHandlerRegistry := r.putHandlerRegistry.insert path (c.pluginId, handler)
        putHandlers := r.putHandlers.insert path c.pluginId }, c)
  | .registerRoutes routes =>
    ({ r with
        routeTable := r.routeTable.insert c.pluginId routes
        pluginRoutes := r.pluginRoutes.insert c.pluginId ("/plugins/" ++ c.pluginId) }, c)
  | .registerWebapp info =>
    ({ r with
        webappRegistry := Plugins.registerWebapp r.webappRegistry (pluginWebapp c.pluginId info) },
      c)
  | .registerDeltaInputHandler handler =>
    ({ r with deltaFilter := r.deltaFilter ++ [(c.pluginId, handler)] }, c)
  | .registerAutopilotProvider deviceId provider =>
    ({ r with
        autopilotManager := r.autopilotManager.map (·.register deviceId provider c.pluginId) }, c)
  | .registerResourceProvider resourceType provider =>
    ({ r with
        resourceProviders :=
          r.resourceProviders.map (·.register resourceType c.pluginId provider) }, c)

/-- What the call answers: a subscription its handle, a registration with a registry that
the server has not set an error. -/
def RustPluginContext.answer (r : Registries H) (c : RustPluginContext) :
    Call H → Except PluginError (Option Nat)
  | .subscribe .. => .ok (some c.nextSubId)
  | .registerAutopilotProvider .. =>
    if r.autopilotManager.isSome then .ok none
    else .error (.runtime "register_autopilot_provider: no AutopilotManager available")
  | .registerResourceProvider .. =>
    if r.resourceProviders.isSome then .ok none
    else .error
      (.runtime "register_resource_provider: no ResourceProviderRegistry available")
  | _ => .ok none

def RustPluginContext.calls (r : Registries H) (c : RustPluginContext) :
    List (Call H) → Registries H × RustPluginContext
  | [] => (r, c)
  | call :: rest =>
    let (r, c) := c.call r call
    c.calls r rest

/-- What stopping a plugin removes: its live context's subscriptions, its routes, PUT
handlers, filters and resource providers. -/
def Registries.stopped (r : Registries H) (pluginId : String)
    (context : Option RustPluginContext) : Registries H :=
  { r with
    tasks := r.tasks.filter fun t => !context.any (·.aborts t)
    routeTable := r.routeTable.erase pluginId
    putHandlerRegistry := r.putHandlerRegistry.retain fun _ e => decide (e.1 ≠ pluginId)
    deltaFilter := r.deltaFilter.filter (·.1 ≠ pluginId)
    resourceProviders := r.resourceProviders.map (·.unregister pluginId)
    putHandlers := r.putHandlers.retain fun _ p => decide (p ≠ pluginId)
    pluginRoutes := r.pluginRoutes.erase pluginId }

/-! What one plugin has in the registries. -/

@[ext] structure Entries (H : Type) where
  routes : Option (List (RegisteredRoute H))
  putHandler : String → Option H
  putPath : String → Bool
  pluginRoute : Option String
  filters : List H
  resources : String → List H
  createDefault : String → Bool
  webapps : List WebAppInfo
  autopilot : String → Option H
  tasks : List (Task H)

def Registries.entries (r : Registries H) (p : String) : Entries H where
  routes := r.routeTable.lookup p
  putHandler path := ((r.putHandlerRegistry.lookup path).filter fun e => decide (e.1 = p)).map (·.2)
  putPath path := decide (r.putHandlers.lookup path = some p)
  pluginRoute := r.pluginRoutes.lookup p
  filters := (r.deltaFilter.filter (·.1 = p)).map (·.2)
  resources type :=
    (((r.resourceProviders.bind (·.providers.lookup type)).getD []).filter (·.1 = p)).map (·.2)
  createDefault type :=
    decide (r.resourceProviders.bind (·.defaultCreateProvider.lookup type) = some p)
  webapps := r.webappRegistry.filter fun w => decide (w.source = some (.rustPlugin p))
  autopilot device :=
    ((r.autopilotManager.bind (·.providers.lookup device)).filter
      fun e => decide (e.pluginName = p)).map (·.provider)
  tasks := r.tasks.filter (·.pluginId = p)

namespace Entries

/-- Nothing but, at most, webapps, autopilot providers and subscriptions. -/
def leftover (webapps : List WebAppInfo) (autopilot : String → Option H) (tasks : List (Task H)) :
    Entries H where
  routes := none
  putHandler _ := none
  putPath _ := false
  pluginRoute := none
  filters := []
  resources _ := []
  createDefault _ := false
  webapps := webapps
  autopilot := autopilot
  tasks := tasks

def none : Entries H := leftover [] (fun _ => Option.none) []

/-- Nothing in the registries that stopping a plugin sees to. -/
def Clean (e : Entries H) : Prop :=
  e = leftover e.webapps e.autopilot e.tasks

theorem clean_iff (e : Entries H) :
    e.Clean ↔ e.routes = Option.none ∧ e.putHandler = (fun _ => Option.none) ∧
      e.putPath = (fun _ => false) ∧ e.pluginRoute = Option.none ∧ e.filters = [] ∧
      e.resources = (fun _ => []) ∧ e.createDefault = fun _ => false := by
  rw [Clean, Entries.ext_iff]
  simp [leftover]

end Entries

theorem ResourceProviderRegistry.filter_place {q p : String} (h : q ≠ p) (provider : H)
    (list : List (String × H)) :
    (place p provider list).filter (·.1 = q) = list.filter (·.1 = q) := by
  induction list with
  | nil => simp [place, h.symm]
  | cons e list ih =>
    by_cases he : e.1 = p
    · simp [place, he, h.symm]
    · simp only [place, if_neg he, List.filter_cons, ih]

/-- A call adds nothing that another plugin's stop would have to remove. -/
theorem Entries.Clean.call {r : Registries H} {q : String} (h : (r.entries q).Clean)
    {c : RustPluginContext} (hq : q ≠ c.pluginId) (call : Call H) :
    ((c.call r call).1.entries q).Clean := by
  rw [Entries.clean_iff] at h ⊢
  cases call with
  | subscribe spec callback => exact h
  | unsubscribe handle =>
    by_cases hh : handle ∈ c.subHandles
    · simp only [RustPluginContext.call, if_pos hh]
      exact h
    · simp only [RustPluginContext.call, if_neg hh]
      exact h
  | registerWebapp info => exact h
  | registerAutopilotProvider deviceId provider => exact h
  | registerRoutes routes =>
    obtain ⟨hroutes, hput, hpath, hroute, hrest⟩ := h
    refine ⟨?_, hput, hpath, ?_, hrest⟩
    · exact (Finmap.lookup_insert_of_ne _ hq).trans hroutes
    · exact (Finmap.lookup_insert_of_ne _ hq).trans hroute
  | registerPutHandler context path handler =>
    obtain ⟨hroutes, hput, hpath, hrest⟩ := h
    refine ⟨hroutes, funext fun x => ?_, funext fun x => ?_, hrest⟩
    · have hx := congrFun hput x
      simp only [Registries.entries, RustPluginContext.call, HashMap.lookup_insert] at hx ⊢
      split_ifs
      · simp [hq.symm]
      · exact hx
    · have hx := congrFun hpath x
      simp only [Registries.entries, RustPluginContext.call, HashMap.lookup_insert] at hx ⊢
      split_ifs
      · simp [hq.symm]
      · exact hx
  | registerDeltaInputHandler handler =>
    obtain ⟨hroutes, hput, hpath, hroute, hfilters, hrest⟩ := h
    refine ⟨hroutes, hput, hpath, hroute, ?_, hrest⟩
    simp only [Registries.entries, RustPluginContext.call, List.filter_append] at hfilters ⊢
    simpa [hq.symm] using hfilters
  | registerResourceProvider resourceType provider =>
    obtain ⟨hroutes, hput, hpath, hroute, hfilters, hres, hdef⟩ := h
    refine ⟨hroutes, hput, hpath, hroute, hfilters, funext fun x => ?_, funext fun x => ?_⟩
    · have hx := congrFun hres x
      cases hr : r.resourceProviders with
      | none => simp [Registries.entries, RustPluginContext.call, hr]
      | some reg =>
        simp only [Registries.entries, RustPluginContext.call, hr, Option.map_some,
          Option.bind_some, ResourceProviderRegistry.register, HashMap.lookup_alter] at hx ⊢
        split_ifs with htype
        · rw [Option.getD_some, ResourceProviderRegistry.filter_place hq, ← htype]
          exact hx
        · exact hx
    · have hx := congrFun hdef x
      cases hr : r.resourceProviders with
      | none => simp [Registries.entries, RustPluginContext.call, hr]
      | some reg =>
        simpa only [Registries.entries, RustPluginContext.call, hr, Option.map_some,
          Option.bind_some, ResourceProviderRegistry.register] using hx

theorem Registries.filter_unregister (l : List (String × H)) {p q : String} :
    ((l.filter (·.1 ≠ p)).filter (·.1 = q)) = if q = p then [] else l.filter (·.1 = q) := by
  rw [List.filter_filter]
  split_ifs with hq
  · rw [List.filter_eq_nil_iff]
    intro e _
    simp [hq]
  · refine List.filter_congr fun e _ => ?_
    by_cases he : e.1 = q
    · simp [he, hq]
    · simp [he]

/-- What a plugin still has once it is stopped. -/
theorem Registries.entries_stopped_self (r : Registries H) (p : String)
    (context : Option RustPluginContext) :
    (r.stopped p context).entries p =
      .leftover (r.entries p).webapps (r.entries p).autopilot
        ((r.entries p).tasks.filter fun t => !context.any (·.aborts t)) := by
  apply Entries.ext
  case routes => simp [entries, stopped, Entries.leftover]
  case putHandler =>
    funext path
    simp only [entries, stopped, Entries.leftover, HashMap.lookup_retain]
    cases r.putHandlerRegistry.lookup path <;> simp [Option.filter]
    split_ifs <;> simp_all
  case putPath =>
    funext path
    simp only [entries, stopped, Entries.leftover, HashMap.lookup_retain]
    cases r.putHandlers.lookup path <;> simp [Option.filter]
  case pluginRoute => simp [entries, stopped, Entries.leftover]
  case filters =>
    simp only [entries, stopped, Entries.leftover, filter_unregister, if_true, List.map_nil]
  case resources =>
    funext type
    simp only [entries, stopped, Entries.leftover]
    cases r.resourceProviders with
    | none => rfl
    | some reg =>
      simp only [Option.map_some, Option.bind_some, ResourceProviderRegistry.unregister,
        HashMap.lookup_mapValues]
      cases reg.providers.lookup type with
      | none => rfl
      | some list =>
        simp only [Option.map_some, Option.getD_some, filter_unregister, if_true, List.map_nil]
  case createDefault =>
    funext type
    simp only [entries, stopped, Entries.leftover]
    apply decide_eq_false
    cases r.resourceProviders with
    | none => simp
    | some reg =>
      simp only [Option.map_some, Option.bind_some, ResourceProviderRegistry.unregister,
        HashMap.lookup_retain]
      cases reg.defaultCreateProvider.lookup type <;> simp [Option.filter]
  case webapps => rfl
  case autopilot => rfl
  case tasks =>
    simp only [entries, stopped, Entries.leftover, List.filter_filter, Bool.and_comm]

/-- Stopping one plugin leaves the others what they have. -/
theorem Registries.entries_stopped_other (r : Registries H) {p q : String} (hq : q ≠ p)
    {context : Option RustPluginContext}
    (ht : ∀ t ∈ r.tasks, context.any (·.aborts t) = true → t.pluginId = p) :
    (r.stopped p context).entries q = r.entries q := by
  apply Entries.ext
  case routes => exact Finmap.lookup_erase_ne hq
  case putHandler =>
    funext path
    simp only [entries, stopped, HashMap.lookup_retain]
    cases r.putHandlerRegistry.lookup path with
    | none => rfl
    | some e =>
      by_cases he : e.1 = p
      · simp [Option.filter, he, hq.symm]
      · simp [Option.filter, he]
  case putPath =>
    funext path
    simp only [entries, stopped, HashMap.lookup_retain]
    cases r.putHandlers.lookup path with
    | none => rfl
    | some e => by_cases he : e = q <;> simp [Option.filter, he, hq]
  case pluginRoute => exact Finmap.lookup_erase_ne hq
  case filters => simp only [entries, stopped, filter_unregister, if_neg hq]
  case resources =>
    funext type
    simp only [entries, stopped]
    cases r.resourceProviders with
    | none => rfl
    | some reg =>
      simp only [Option.map_some, Option.bind_some, ResourceProviderRegistry.unregister,
        HashMap.lookup_mapValues]
      cases reg.providers.lookup type with
      | none => rfl
      | some list => simp only [Option.map_some, Option.getD_some, filter_unregister, if_neg hq]
  case createDefault =>
    funext type
    simp only [entries, stopped]
    apply decide_eq_decide.mpr
    cases r.resourceProviders with
    | none => rfl
    | some reg =>
      simp only [Option.map_some, Option.bind_some, ResourceProviderRegistry.unregister,
        HashMap.lookup_retain]
      cases reg.defaultCreateProvider.lookup type with
      | none => rfl
      | some e => by_cases he : e = q <;> simp [Option.filter, he, hq]
  case webapps => rfl
  case autopilot => rfl
  case tasks =>
    simp only [entries, stopped, List.filter_filter]
    refine List.filter_congr fun t hmem => ?_
    cases ha : context.any (·.aborts t) with
    | false => simp
    | true =>
      have hown := ht t hmem ha
      simp [hown, hq.symm]

end SignalK.Plugins

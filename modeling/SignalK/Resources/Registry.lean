import SignalK.Course.Resolve
import SignalK.Lib.HashMap
import SignalK.Lib.Merge

/-! The registry that routes resource requests to providers, with the file provider as the last. -/
namespace SignalK.Resources

structure ResourceQueryParams where
  distance : Option ℚ
  limit : Option Nat
  bbox : Option String
  provider : Option String

/-- How providers answer, and what their operations do to the data that all of them keep. -/
structure Providers (π σ : Type) where
  list : π → String → ResourceQueryParams → σ → Except PluginError Json
  get : π → String → String → σ → Except PluginError (Option Json)
  create : π → String → Json → σ → Except PluginError String × σ
  update : π → String → String → Json → σ → Except PluginError Unit × σ
  delete : π → String → String → σ → Except PluginError Unit × σ

structure ResourceProviderRegistry (π : Type) where
  /-- By resource type, in order of registration. -/
  providers : HashMap String (List (String × π))
  defaultCreateProvider : HashMap String String
  fileProvider : π

def isNotFound : PluginError → Bool
  | .notFound _ => true
  | _ => false

namespace ResourceProviderRegistry
variable {π σ : Type} (r : ResourceProviderRegistry π) (b : Providers π σ) (resourceType : String)

def registered : List (String × π) := (r.providers.lookup resourceType).getD []

def findProvider (pluginId : String) : Except PluginError π :=
  if pluginId = "file-provider" then .ok r.fileProvider
  else
    match (r.registered resourceType).find? (·.1 = pluginId) with
    | some (_, p) => .ok p
    | none => .error (.notFound
        ("Provider '" ++ pluginId ++ "' not registered for '" ++ resourceType ++ "'"))

/-- First-found wins; an answer that is no object is left out. -/
def merge (merged : List (String × Json)) : Except PluginError Json → List (String × Json)
  | .ok (.object map) => SortedMap.mergeInto merged map
  | _ => merged

def applyLimit (limit : Option Nat) (merged : List (String × Json)) : List (String × Json) :=
  match limit with
  | some limit => if merged.length > limit then merged.take limit else merged
  | none => merged

/-- List resources, merging results from all providers. -/
def list (query : ResourceQueryParams) (s : σ) : Except PluginError Json :=
  match query.provider with
  | some target => do
    let provider ← r.findProvider resourceType target
    b.list provider resourceType query s
  | none =>
    let merged := (r.registered resourceType).foldl
      (fun merged e => merge merged (b.list e.2 resourceType query s)) []
    let merged := merge merged (b.list r.fileProvider resourceType query s)
    .ok (.object (applyLimit query.limit merged))

def pollGet (id : String) (s : σ) : List (String × π) → Except PluginError (Option Json)
  | [] => b.get r.fileProvider resourceType id s
  | (_, p) :: list =>
    match b.get p resourceType id s with
    | .ok (some v) => .ok (some v)
    | .ok none => pollGet id s list
    | .error e => if isNotFound e then pollGet id s list else .error e

/-- Get a single resource by ID, polling all providers. -/
def get (id : String) (provider : Option String) (s : σ) : Except PluginError (Option Json) :=
  match provider with
  | some target => do
    let provider ← r.findProvider resourceType target
    b.get provider resourceType id s
  | none => r.pollGet b resourceType id s (r.registered resourceType)

/-- Create a new resource, routing to the default provider. -/
def create (value : Json) (provider : Option String) (s : σ) : Except PluginError String × σ :=
  match provider with
  | some target =>
    match r.findProvider resourceType target with
    | .ok p => b.create p resourceType value s
    | .error e => (.error e, s)
  | none =>
    match r.defaultCreateProvider.lookup resourceType with
    | some defaultId =>
      match (r.registered resourceType).find? (·.1 = defaultId) with
      | some (_, p) => b.create p resourceType value s
      | none => b.create r.fileProvider resourceType value s
    | none => b.create r.fileProvider resourceType value s

/-- The loop of `update` and of `delete`: the first answer that is not "not found" counts. -/
def poll (op : π → σ → Except PluginError Unit × σ) :
    List (String × π) → σ → Except PluginError Unit × σ
  | [], s => op r.fileProvider s
  | (_, p) :: list, s =>
    match op p s with
    | (.ok (), s) => (.ok (), s)
    | (.error e, s) => if isNotFound e then poll op list s else (.error e, s)

/-- An operation on one provider, or on all in turn. -/
def targeted (op : π → σ → Except PluginError Unit × σ) (provider : Option String) (s : σ) :
    Except PluginError Unit × σ :=
  match provider with
  | some target =>
    match r.findProvider resourceType target with
    | .ok p => op p s
    | .error e => (.error e, s)
  | none => r.poll op (r.registered resourceType) s

/-- Update a resource by ID, polling providers until one succeeds. -/
def update (id : String) (value : Json) (provider : Option String) (s : σ) :
    Except PluginError Unit × σ :=
  r.targeted resourceType (fun p => b.update p resourceType id value) provider s

/-- Delete a resource by ID, polling providers until one succeeds. -/
def delete (id : String) (provider : Option String) (s : σ) : Except PluginError Unit × σ :=
  r.targeted resourceType (fun p => b.delete p resourceType id) provider s

/-- The providers in the order in which they are polled. -/
def polled : List π := (r.registered resourceType).map Prod.snd ++ [r.fileProvider]

end ResourceProviderRegistry

end SignalK.Resources

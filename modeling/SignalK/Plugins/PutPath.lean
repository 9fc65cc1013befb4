import SignalK.Lib.FirstMatch
import SignalK.Plugins.Bridge
import SignalK.Types.Meta
import SignalK.Types.Notification

/-! PUT requests as the server answers them: metadata, a handler of its own process, a handler
of the bridge. Both registries are hash maps that are searched for a pattern of the path. -/
namespace SignalK

/-! Metadata as it is read from a request. -/

namespace ZoneState

def ofName : String → Option ZoneState
  | "nominal" => some .nominal
  | "alert" => some .alert
  | "warn" => some .warn
  | "alarm" => some .alarm
  | "emergency" => some .emergency
  | _ => none

end ZoneState

def Zone.fromFields (field : String → Option Json) : Option Zone := do
  let lower ← Json.optional Json.asF64 (field "lower")
  let upper ← Json.optional Json.asF64 (field "upper")
  let state ← (field "state").bind (Json.unitVariant ZoneState.ofName)
  let message ← Json.optional Json.asStr (field "message")
  return ⟨lower, upper, state, message⟩

def Zone.fromValue (j : Json) : Option Zone :=
  (Json.structFields ["lower", "upper", "state", "message"] 4 j).bind Zone.fromFields

def DisplayUnits.fromFields (field : String → Option Json) : Option DisplayUnits := do
  let category ← (field "category").bind Json.asStr
  let targetUnit ← (field "targetUnit").bind Json.asStr
  let formula ← (field "formula").bind Json.asStr
  let inverseFormula ← (field "inverseFormula").bind Json.asStr
  let symbol ← (field "symbol").bind Json.asStr
  let displayFormat ← Json.optional Json.asStr (field "displayFormat")
  return ⟨category, targetUnit, formula, inverseFormula, symbol, displayFormat⟩

def DisplayUnits.fromValue (j : Json) : Option DisplayUnits :=
  (Json.structFields
    ["category", "targetUnit", "formula", "inverseFormula", "symbol", "displayFormat"] 6 j).bind
    DisplayUnits.fromFields

namespace Metadata

/-- Absent zones are none. -/
def zonesOf (field : Option Json) : Option (List Zone) :=
  match field with
  | none => some []
  | some j => Json.asList Zone.fromValue j

def fromFields (field : String → Option Json) : Option Metadata := do
  let description ← Json.optional Json.asStr (field "description")
  let units ← Json.optional Json.asStr (field "units")
  let displayName ← Json.optional Json.asStr (field "displayName")
  let longName ← Json.optional Json.asStr (field "longName")
  let timeout ← Json.optional Json.asF64 (field "timeout")
  let minValue ← Json.optional Json.asF64 (field "minValue")
  let maxValue ← Json.optional Json.asF64 (field "maxValue")
  let zones ← zonesOf (field "zones")
  let displayUnits ← Json.optional DisplayUnits.fromValue (field "displayUnits")
  return {
    description := description
    units := units
    displayName := displayName
    longName := longName
    timeout := timeout
    minValue := minValue
    maxValue := maxValue
    zones := zones
    displayUnits := displayUnits }

/-- An array has to reach to its last field. -/
def fromValue (j : Json) : Option Metadata :=
  (Json.structFields ["description", "units", "displayName", "longName", "timeout", "minValue",
    "maxValue", "zones", "displayUnits"] 9 j).bind fromFields

end Metadata

namespace Plugins

structure PutCommand where
  path : String
  value : Json
  source : Option String
  requestId : String
  deriving DecidableEq

/-- What a request leads to, with the texts of the answers 400 and 404. -/
inductive PutEffect (H : Type) where
  | badRequest (message : String)
  | setMetadata (path : String) (metadata : Metadata)
  | handler (handler : H) (cmd : PutCommand)
  | bridge (pluginId bridgePath : String) (payload : Json)
  | notFound (message : String)
  deriving DecidableEq

section
variable {H : Type} (decodeError : Json → String)

/-- `PutHandlerRegistry::find` -/
def findHandler (registry : List (String × String × H)) (path : String) : Option (String × H) :=
  (registry.find? fun e => matchesPattern e.1 path).map (·.2)

/-- The search of `put_path` in the handlers of the bridge. -/
def findPlugin (putHandlers : List (String × String)) (path : String) : Option String :=
  (putHandlers.find? fun e => matchesPattern e.1 path).map (·.2)

def pathParts (urlPath : String) : List String :=
  (Text.split '/' urlPath).filter fun s => decide (s ≠ "")

/-- `path ends with /meta` -/
def isMeta (urlPath : String) : Prop :=
  (pathParts urlPath).getLast? = some "meta"

instance (urlPath : String) : Decidable (isMeta urlPath) :=
  inferInstanceAs (Decidable (_ = _))

/-- `put_path`, up to the answer of a handler; the registries are visited in some order. -/
def putRequest (registry : List (String × String × H)) (putHandlers : List (String × String))
    (requestId urlPath : String) (body : Json) : PutEffect H :=
  let skPath := urlToSkPath urlPath
  if isMeta urlPath then
    match Text.stripSuffix skPath ".meta" with
    | none => .badRequest "Invalid meta path"
    | some dataPath =>
      match Metadata.fromValue body with
      | none => .badRequest ("Invalid metadata: " ++ decodeError body)
      | some metadata => .setMetadata dataPath metadata
  else
    match findHandler registry skPath with
    | some (_, handler) => .handler handler ⟨skPath, putValue body, none, requestId⟩
    | none =>
      match findPlugin putHandlers skPath with
      | some pluginId =>
        .bridge pluginId (bridgePath pluginId skPath) (putPayload requestId (putValue body))
      | none => .notFound ("No handler registered for path: " ++ skPath)

end

namespace PutEffect
variable {H : Type}

/-- A handler is invoked, or metadata changes. -/
def Acts : PutEffect H → Prop
  | .setMetadata .. => True
  | .handler .. => True
  | .bridge .. => True
  | .badRequest _ => False
  | .notFound _ => False

instance (e : PutEffect H) : Decidable e.Acts :=
  match e with
  | .setMetadata .. => .isTrue trivial
  | .handler .. => .isTrue trivial
  | .bridge .. => .isTrue trivial
  | .badRequest _ => .isFalse id
  | .notFound _ => .isFalse id

/-- Whatever handler is invoked was registered for the path itself. -/
def Exact (registry : HashMap String (String × H)) (putHandlers : HashMap String String)
    (path : String) : PutEffect H → Prop
  | .handler h _ => ∃ pluginId, registry.lookup path = some (pluginId, h)
  | .bridge pluginId _ _ => putHandlers.lookup path = some pluginId
  | _ => True

end PutEffect

/-- `PUT /signalk/v1/api/vessels/<id>/<path>` -/
def vesselUrl (id path : String) : String :=
  "vessels/" ++ id ++ "/" ++ path

theorem pathParts_vesselUrl {id : String} (hne : id ≠ "") (hslash : '/' ∉ id.toList)
    (path : String) : pathParts (vesselUrl id path) = "vessels" :: id :: pathParts path := by
  have hvessels : Text.split '/' "vessels" = ["vessels"] := by decide
  have hid : Text.split '/' id = [id] := by
    rw [Text.split, List.splitOn_eq_singleton hslash, List.map_cons, List.map_nil,
      String.ofList_toList]
  have hurl : vesselUrl id path = "vessels" ++ "/" ++ (id ++ "/" ++ path) := by
    rw [vesselUrl, show "vessels/" = "vessels" ++ "/" from rfl]
    simp only [String.append_assoc]
  have hsplit : Text.split '/' (vesselUrl id path) = "vessels" :: id :: Text.split '/' path := by
    have houter := Text.split_append_separator '/' "vessels" (id ++ "/" ++ path)
    have hinner := Text.split_append_separator '/' id path
    rw [hid] at hinner
    rw [hvessels] at houter
    rw [hurl]
    exact houter.trans (congrArg (["vessels"] ++ ·) hinner)
  rw [pathParts, hsplit, List.filter_cons_of_pos (by decide),
    List.filter_cons_of_pos (by simpa using hne), pathParts]

/-- The vessel segment is dropped: a path below a vessel has the same effect whichever vessel
it is. -/
theorem putRequest_vessel {H : Type} (decodeError : Json → String)
    (registry : List (String × String × H)) (putHandlers : List (String × String))
    {id id' : String} (hne : id ≠ "") (hslash : '/' ∉ id.toList) (hne' : id' ≠ "")
    (hslash' : '/' ∉ id'.toList) {path : String} (hpath : pathParts path ≠ [])
    (requestId : String) (body : Json) :
    putRequest decodeError registry putHandlers requestId (vesselUrl id path) body =
      putRequest decodeError registry putHandlers requestId (vesselUrl id' path) body := by
  have hparts := pathParts_vesselUrl hne hslash path
  have hparts' := pathParts_vesselUrl hne' hslash' path
  have hskPath : urlToSkPath (vesselUrl id path) = urlToSkPath (vesselUrl id' path) := by
    rw [pathParts] at hparts hparts'
    simp only [urlToSkPath, hparts, hparts', if_true]
  have hmeta : isMeta (vesselUrl id path) ↔ isMeta (vesselUrl id' path) := by
    have hlast : ∀ a b : String, (a :: b :: pathParts path).getLast? =
        (pathParts path).getLast? := by
      intro a b
      obtain ⟨part, parts, hcons⟩ := List.exists_cons_of_ne_nil hpath
      rw [hcons, List.getLast?_cons_cons, List.getLast?_cons_cons]
    rw [isMeta, isMeta, hparts, hparts', hlast, hlast]
  simp only [putRequest, hskPath, hmeta]

/-- Without handlers of the server's own process the bridge gets what it gets of `putPath`. -/
theorem putRequest_bridge {H : Type} (decodeError : Json → String)
    (putHandlers : List (String × String)) (requestId urlPath : String) (body : Json)
    (pluginId url : String) (payload : Json) :
    putRequest decodeError ([] : List (String × String × H)) putHandlers requestId urlPath body =
        .bridge pluginId url payload ↔
      putPath putHandlers requestId urlPath body = .forward pluginId url payload := by
  by_cases hmeta : isMeta urlPath
  · have hlast : ((Text.split '/' urlPath).filter fun s => decide (s ≠ "")).getLast? =
        some "meta" := hmeta
    rw [putRequest, putPath, if_pos hmeta, if_pos hlast]
    cases Text.stripSuffix (urlToSkPath urlPath) ".meta" with
    | none => simp
    | some dataPath => cases Metadata.fromValue body <;> simp
  · have hlast : ((Text.split '/' urlPath).filter fun s => decide (s ≠ "")).getLast? ≠
        some "meta" := hmeta
    rw [putRequest, putPath, if_neg hmeta, if_neg hlast]
    simp only [findHandler, findPlugin, List.find?_nil, Option.map_none]
    cases putHandlers.find? fun e => matchesPattern e.1 (urlToSkPath urlPath) <;> simp

/-- The own vessel, by either name. -/
def Denotes (selfUri id : String) : Prop :=
  id = "self" ∨ id = selfUri

instance (selfUri id : String) : Decidable (Denotes selfUri id) :=
  inferInstanceAs (Decidable (_ ∨ _))

section
variable {H : Type} (decodeError : Json → String) (selfUri : String)
  (registry : HashMap String (String × H)) (putHandlers : HashMap String String)

/-- Requests act on the own vessel alone, whatever the order in which the registries are
visited; and they come to the same handler in every order, to one for the path itself if there
is one. -/
structure PutSafe (requestId id path : String) (body : Json) : Prop where
  own : ∀ o₁ o₂, HashMap.IterOrder o₁ registry → HashMap.IterOrder o₂ putHandlers →
    (putRequest decodeError o₁ o₂ requestId (vesselUrl id path) body).Acts → Denotes selfUri id
  settled : ∀ o₁ o₁' o₂ o₂', HashMap.IterOrder o₁ registry → HashMap.IterOrder o₁' registry →
    HashMap.IterOrder o₂ putHandlers → HashMap.IterOrder o₂' putHandlers →
    putRequest decodeError o₁ o₂ requestId (vesselUrl id path) body =
      putRequest decodeError o₁' o₂' requestId (vesselUrl id path) body
  exact : ∀ o₁ o₂, HashMap.IterOrder o₁ registry → HashMap.IterOrder o₂ putHandlers →
    registry.lookup (urlToSkPath (vesselUrl id path)) ≠ none ∨
      putHandlers.lookup (urlToSkPath (vesselUrl id path)) ≠ none →
    (putRequest decodeError o₁ o₂ requestId (vesselUrl id path) body).Exact registry putHandlers
      (urlToSkPath (vesselUrl id path))

/-- Some pattern of a registry matches the path. -/
def Matched {ν : Type} (m : HashMap String ν) (path : String) : Prop :=
  ∃ pattern v, m.lookup pattern = some v ∧ matchesPattern pattern path = true

/-- All patterns that match the path have the same. -/
def Alike {ν μ : Type} (m : HashMap String ν) (f : ν → μ) (path : String) : Prop :=
  ∀ k v k' v', m.lookup k = some v → m.lookup k' = some v' → matchesPattern k path = true →
    matchesPattern k' path = true → f v = f v'

/-- Nothing to be done: no data path or no metadata, or no pattern for the path. -/
def Inert (urlPath : String) (body : Json) : Prop :=
  if isMeta urlPath then
    Text.stripSuffix (urlToSkPath urlPath) ".meta" = none ∨ Metadata.fromValue body = none
  else ¬ Matched registry (urlToSkPath urlPath) ∧ ¬ Matched putHandlers (urlToSkPath urlPath)

/-- The patterns of the registry that comes into question agree on a handler, and no handler
of the bridge that has the path itself stands behind. -/
def Unambiguous (path : String) : Prop :=
  Alike registry Prod.snd path ∧
    (Matched registry path → putHandlers.lookup path ≠ none → registry.lookup path ≠ none) ∧
    (¬ Matched registry path → Alike putHandlers id path)

theorem matched_of_lookup {ν : Type} {m : HashMap String ν} {path : String}
    (h : m.lookup path ≠ none) : Matched m path := by
  obtain ⟨v, hv⟩ := Option.ne_none_iff_exists'.mp h
  exact ⟨path, v, hv, matchesParts_self _⟩

theorem matched_iff {ν : Type} {m : HashMap String ν} {path : String} {o : List (String × ν)}
    (ho : HashMap.IterOrder o m) :
    (o.find? fun e => matchesPattern e.1 path) ≠ none ↔ Matched m path := by
  rw [ne_eq, HashMap.IterOrder.find?_eq_none_iff (p := fun k => matchesPattern k path) ho]
  constructor
  · intro h
    by_contra hno
    refine h fun k v hk => Bool.eq_false_iff.mpr fun hmatch => hno ⟨k, v, hk, hmatch⟩
  · rintro ⟨k, v, hk, hmatch⟩ h
    rw [h k v hk] at hmatch
    cases hmatch

/-- Away from metadata the effect is that of the first handler, or of the first plugin. -/
theorem putRequest_eq {urlPath : String} (h : ¬ isMeta urlPath)
    (o₁ : List (String × String × H)) (o₂ : List (String × String)) (requestId : String)
    (body : Json) : putRequest decodeError o₁ o₂ requestId urlPath body =
      ((o₁.find? fun e => matchesPattern e.1 (urlToSkPath urlPath)).map fun e => e.2.2).elim
        (((o₂.find? fun e => matchesPattern e.1 (urlToSkPath urlPath)).map fun e => e.2).elim
          (.notFound ("No handler registered for path: " ++ urlToSkPath urlPath))
          fun pluginId => .bridge pluginId (bridgePath pluginId (urlToSkPath urlPath))
            (putPayload requestId (putValue body)))
        fun h => .handler h ⟨urlToSkPath urlPath, putValue body, none, requestId⟩ := by
  rw [putRequest]
  simp only [if_neg h, findHandler, findPlugin]
  cases o₁.find? fun e => matchesPattern e.1 (urlToSkPath urlPath) with
  | some e => rfl
  | none =>
    cases o₂.find? fun e => matchesPattern e.1 (urlToSkPath urlPath) <;> rfl

theorem acts_iff {o₁ : List (String × String × H)} {o₂ : List (String × String)}
    (ho₁ : HashMap.IterOrder o₁ registry) (ho₂ : HashMap.IterOrder o₂ putHandlers)
    (requestId urlPath : String) (body : Json) :
    (putRequest decodeError o₁ o₂ requestId urlPath body).Acts ↔
      ¬ Inert registry putHandlers urlPath body := by
  rw [Inert]
  by_cases hmeta : isMeta urlPath
  · rw [putRequest, if_pos hmeta, if_pos hmeta]
    cases Text.stripSuffix (urlToSkPath urlPath) ".meta" with
    | none => simp [PutEffect.Acts]
    | some dataPath => cases Metadata.fromValue body <;> simp [PutEffect.Acts]
  · rw [putRequest_eq decodeError hmeta, if_neg hmeta, ← matched_iff ho₁, ← matched_iff ho₂]
    cases o₁.find? fun e => matchesPattern e.1 (urlToSkPath urlPath) with
    | some e => simp [PutEffect.Acts]
    | none =>
      cases o₂.find? fun e => matchesPattern e.1 (urlToSkPath urlPath) <;>
        simp [PutEffect.Acts]

theorem handler_of_same {x x' : Option H} {cmd : PutCommand} {y : PutEffect H}
    (hy : ∀ h cmd, y ≠ .handler h cmd)
    (h : x.elim y (fun a => .handler a cmd) = x'.elim y fun a => .handler a cmd) : x = x' := by
  cases x with
  | none =>
    cases x' with
    | none => rfl
    | some a => exact (hy a cmd h).elim
  | some a =>
    cases x' with
    | none => exact (hy a cmd h.symm).elim
    | some b => exact congrArg some (PutEffect.handler.inj h).1

theorem plugin_of_same {x x' : Option String} {message : String} {url : String → String}
    {payload : Json} (h : (x.elim (.notFound message) fun p => .bridge p (url p) payload :
      PutEffect H) = x'.elim (.notFound message) fun p => .bridge p (url p) payload) : x = x' := by
  cases x with
  | none =>
    cases x' with
    | none => rfl
    | some p => cases h
  | some p =>
    cases x' with
    | none => cases h
    | some p' => exact congrArg some (PutEffect.bridge.inj h).1

/-- Where a request is not for metadata, its effect is the same in every order exactly when
the patterns agree. -/
theorem settled_iff {urlPath : String} (hmeta : ¬ isMeta urlPath) (requestId : String)
    (body : Json) :
    (∀ o₁ o₁' o₂ o₂', HashMap.IterOrder o₁ registry → HashMap.IterOrder o₁' registry →
      HashMap.IterOrder o₂ putHandlers → HashMap.IterOrder o₂' putHandlers →
      putRequest decodeError o₁ o₂ requestId urlPath body =
        putRequest decodeError o₁' o₂' requestId urlPath body) ↔
    Alike registry Prod.snd (urlToSkPath urlPath) ∧
      (¬ Matched registry (urlToSkPath urlPath) → Alike putHandlers id (urlToSkPath urlPath)) := by
  have hregistry := HashMap.find?_alike_iff (m := registry)
    (p := fun k => matchesPattern k (urlToSkPath urlPath)) Prod.snd
  have hbridge := HashMap.find?_alike_iff (m := putHandlers)
    (p := fun k => matchesPattern k (urlToSkPath urlPath)) id
  rw [Alike, Alike, ← hregistry, ← hbridge]
  constructor
  · intro h
    constructor
    · intro l l' hl hl'
      obtain ⟨o₂, ho₂⟩ := HashMap.exists_iterOrder putHandlers
      have hsame := h l l' o₂ o₂ hl hl' ho₂ ho₂
      rw [putRequest_eq decodeError hmeta, putRequest_eq decodeError hmeta] at hsame
      refine handler_of_same (fun h cmd => ?_) hsame
      cases (o₂.find? fun e => matchesPattern e.1 (urlToSkPath urlPath)).map fun e => e.2 <;> simp
    · intro hno l l' hl hl'
      obtain ⟨o₁, ho₁⟩ := HashMap.exists_iterOrder registry
      have hnone : (o₁.find? fun e => matchesPattern e.1 (urlToSkPath urlPath)) = none :=
        not_not.mp fun hsome => hno ((matched_iff ho₁).mp hsome)
      have hsame := h o₁ o₁ l l' ho₁ ho₁ hl hl'
      rw [putRequest_eq decodeError hmeta, putRequest_eq decodeError hmeta, hnone] at hsame
      exact plugin_of_same hsame
  · rintro ⟨halike, hrest⟩ o₁ o₁' o₂ o₂' ho₁ ho₁' ho₂ ho₂'
    rw [putRequest_eq decodeError hmeta, putRequest_eq decodeError hmeta, halike o₁ o₁' ho₁ ho₁']
    cases hfind : o₁'.find? fun e => matchesPattern e.1 (urlToSkPath urlPath) with
    | some e => rfl
    | none =>
      have hno : ¬ Matched registry (urlToSkPath urlPath) :=
        fun hmatched => (matched_iff ho₁').mpr hmatched hfind
      have hplugin := hrest hno o₂ o₂' ho₂ ho₂'
      simp only [id_eq] at hplugin
      rw [hplugin]

/-- Given that the patterns agree, a handler for the path itself is invoked if there is one,
unless it is behind another registry. -/
theorem exact_iff {urlPath : String} (hmeta : ¬ isMeta urlPath)
    (halike : Alike registry Prod.snd (urlToSkPath urlPath))
    (hrest : ¬ Matched registry (urlToSkPath urlPath) →
      Alike putHandlers id (urlToSkPath urlPath)) (requestId : String) (body : Json) :
    (∀ o₁ o₂, HashMap.IterOrder o₁ registry → HashMap.IterOrder o₂ putHandlers →
      registry.lookup (urlToSkPath urlPath) ≠ none ∨
        putHandlers.lookup (urlToSkPath urlPath) ≠ none →
      (putRequest decodeError o₁ o₂ requestId urlPath body).Exact registry putHandlers
        (urlToSkPath urlPath)) ↔
    (Matched registry (urlToSkPath urlPath) → putHandlers.lookup (urlToSkPath urlPath) ≠ none →
      registry.lookup (urlToSkPath urlPath) ≠ none) := by
  have hself : matchesPattern (urlToSkPath urlPath) (urlToSkPath urlPath) = true :=
    matchesParts_self _
  constructor
  · intro h hmatched hbehind
    obtain ⟨o₁, ho₁⟩ := HashMap.exists_iterOrder registry
    obtain ⟨o₂, ho₂⟩ := HashMap.exists_iterOrder putHandlers
    have hexact := h o₁ o₂ ho₁ ho₂ (.inr hbehind)
    obtain ⟨e, he⟩ := Option.ne_none_iff_exists'.mp ((matched_iff ho₁).mpr hmatched)
    rw [putRequest_eq decodeError hmeta, he] at hexact
    obtain ⟨pluginId, hlookup⟩ := hexact
    rw [hlookup]
    exact Option.some_ne_none _
  · intro h o₁ o₂ ho₁ ho₂ hsome
    rw [putRequest_eq decodeError hmeta]
    cases hfind : o₁.find? fun e => matchesPattern e.1 (urlToSkPath urlPath) with
    | some e =>
      obtain ⟨hk, hmatch⟩ := HashMap.IterOrder.lookup_of_find?
        (p := fun k => matchesPattern k (urlToSkPath urlPath)) ho₁ hfind
      have hfirst : registry.lookup (urlToSkPath urlPath) ≠ none :=
        hsome.elim (fun h => h) fun hbehind => h ⟨e.1, e.2, hk, hmatch⟩ hbehind
      obtain ⟨⟨pluginId, handler⟩, hlookup⟩ := Option.ne_none_iff_exists'.mp hfirst
      have hsame : e.2.2 = handler := halike _ _ _ _ hk hlookup hmatch hself
      exact ⟨pluginId, hlookup.trans (congrArg (fun h => some (pluginId, h)) hsame.symm)⟩
    | none =>
      have hno : ¬ Matched registry (urlToSkPath urlPath) :=
        fun hmatched => (matched_iff ho₁).mpr hmatched hfind
      have hbehind : putHandlers.lookup (urlToSkPath urlPath) ≠ none :=
        hsome.elim (fun hfirst => (hno (matched_of_lookup hfirst)).elim) fun h => h
      obtain ⟨pluginId, hlookup⟩ := Option.ne_none_iff_exists'.mp hbehind
      cases hplugin : o₂.find? fun e => matchesPattern e.1 (urlToSkPath urlPath) with
      | none => trivial
      | some e =>
        obtain ⟨hk, hmatch⟩ := HashMap.IterOrder.lookup_of_find?
          (p := fun k => matchesPattern k (urlToSkPath urlPath)) ho₂ hplugin
        have hsame : e.2 = pluginId := hrest hno _ _ _ _ hk hlookup hmatch hself
        exact hlookup.trans (congrArg some hsame.symm)

/-- Requests are safe exactly where they are for the own vessel or nothing is to be done, and
the patterns that match the path leave no choice. -/
theorem putSafe_iff (requestId id path : String) (body : Json) :
    PutSafe decodeError selfUri registry putHandlers requestId id path body ↔
      (Denotes selfUri id ∨ Inert registry putHandlers (vesselUrl id path) body) ∧
        (isMeta (vesselUrl id path) ∨
          Unambiguous registry putHandlers (urlToSkPath (vesselUrl id path))) := by
  have hown : (∀ o₁ o₂, HashMap.IterOrder o₁ registry → HashMap.IterOrder o₂ putHandlers →
      (putRequest decodeError o₁ o₂ requestId (vesselUrl id path) body).Acts →
        Denotes selfUri id) ↔
      (Denotes selfUri id ∨ Inert registry putHandlers (vesselUrl id path) body) := by
    constructor
    · intro h
      obtain ⟨o₁, ho₁⟩ := HashMap.exists_iterOrder registry
      obtain ⟨o₂, ho₂⟩ := HashMap.exists_iterOrder putHandlers
      by_contra hno
      rw [not_or] at hno
      exact hno.1 (h o₁ o₂ ho₁ ho₂
        ((acts_iff decodeError registry putHandlers ho₁ ho₂ _ _ _).mpr hno.2))
    · rintro (h | h) o₁ o₂ ho₁ ho₂ hacts
      · exact h
      · exact ((acts_iff decodeError registry putHandlers ho₁ ho₂ _ _ _).mp hacts h).elim
  by_cases hmeta : isMeta (vesselUrl id path)
  · have hsame : ∀ o₁ o₁' o₂ o₂',
        putRequest decodeError o₁ o₂ requestId (vesselUrl id path) body =
          (putRequest decodeError o₁' o₂' requestId (vesselUrl id path) body : PutEffect H) := by
      intro o₁ o₁' o₂ o₂'
      rw [putRequest, putRequest, if_pos hmeta, if_pos hmeta]
    have hexact : ∀ o₁ o₂, (putRequest decodeError o₁ o₂ requestId (vesselUrl id path)
        body).Exact registry putHandlers (urlToSkPath (vesselUrl id path)) := by
      intro o₁ o₂
      rw [putRequest, if_pos hmeta]
      cases Text.stripSuffix (urlToSkPath (vesselUrl id path)) ".meta" with
      | none => trivial
      | some dataPath => cases Metadata.fromValue body <;> trivial
    constructor
    · exact fun h => ⟨hown.mp h.own, .inl hmeta⟩
    · exact fun h => ⟨hown.mpr h.1, fun _ _ _ _ _ _ _ _ => hsame _ _ _ _,
        fun _ _ _ _ _ => hexact _ _⟩
  · have hsettled := settled_iff decodeError registry putHandlers hmeta requestId body
    constructor
    · intro h
      obtain ⟨halike, hrest⟩ := hsettled.mp h.settled
      refine ⟨hown.mp h.own, .inr ⟨halike, ?_, hrest⟩⟩
      exact (exact_iff decodeError registry putHandlers hmeta halike hrest requestId body).mp
        h.exact
    · rintro ⟨hid, hpatterns⟩
      obtain ⟨halike, hbehind, hrest⟩ := hpatterns.resolve_left hmeta
      refine ⟨hown.mpr hid, hsettled.mpr ⟨halike, hrest⟩, ?_⟩
      exact (exact_iff decodeError registry putHandlers hmeta halike hrest requestId body).mpr
        hbehind

end

/-- A command for another ship moves the own one's rudder; and of two handlers for a path the
one for all paths of the autopilot may come before the one for this path. -/
theorem put_misdirected :
    ¬ PutSafe (fun _ => "") "urn:mrn:signalk:uuid:1"
        (HashMap.collect [("steering.autopilot.state", ("pilot", true))]) ∅ "1"
        "urn:mrn:imo:mmsi:211000000" "steering/autopilot/state" (.string "auto") ∧
      ¬ PutSafe (fun _ => "") "urn:mrn:signalk:uuid:1"
        (HashMap.collect [("steering.autopilot.state", ("pilot", true)),
          ("steering.autopilot.*", ("logger", false))]) ∅ "1"
        "self" "steering/autopilot/state" (.string "auto") := by
  constructor
  · intro h
    have hdenotes := h.own [("steering.autopilot.state", ("pilot", true))] [] (by decide)
      (by decide) (by decide +kernel)
    exact absurd hdenotes (by decide)
  · intro h
    have hexact := h.exact [("steering.autopilot.*", ("logger", false)),
      ("steering.autopilot.state", ("pilot", true))] [] (by decide) (by decide)
      (.inl (by decide +kernel))
    have hcalled : (putRequest (fun _ => "") [("steering.autopilot.*", ("logger", false)),
        ("steering.autopilot.state", ("pilot", true))] [] "1"
        (vesselUrl "self" "steering/autopilot/state") (.string "auto") : PutEffect Bool) =
        .handler false ⟨"steering.autopilot.state", .string "auto", none, "1"⟩ := by
      decide +kernel
    rw [hcalled] at hexact
    obtain ⟨pluginId, hlookup⟩ := hexact
    have hown : (HashMap.collect [("steering.autopilot.state", ("pilot", true)),
        ("steering.autopilot.*", ("logger", false))]).lookup
        (urlToSkPath (vesselUrl "self" "steering/autopilot/state")) = some ("pilot", true) := by
      decide +kernel
    cases hown.symm.trans hlookup

end Plugins
end SignalK

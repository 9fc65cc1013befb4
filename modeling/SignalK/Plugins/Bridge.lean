import Mathlib.Data.List.TakeWhile
import SignalK.Lib.OrderedMap
import SignalK.Plugins.Remote
import SignalK.Types.Path

/-! PUT requests for the plugins in the bridge, a process of another language: the server
picks a plugin by its patterns and puts plugin and path into a URL, the bridge takes them out
again and picks a handler. -/
namespace SignalK

namespace Number

/-- The number itself. -/
def exact : Number → ℚ
  | .posInt n => (n.toNat : ℚ)
  | .negInt n => (n.toInt : ℚ)
  | .float x => x

end Number

namespace Json

mutual
/-- The document with every number read by `f`. -/
def mapNumbers (f : Number → ℚ) : Json → Json
  | number n => number (.float (f n))
  | array items => array (mapItems f items)
  | object fields => object (mapFields f fields)
  | null => null
  | bool b => bool b
  | string s => string s

def mapItems (f : Number → ℚ) : List Json → List Json
  | [] => []
  | j :: items => mapNumbers f j :: mapItems f items

def mapFields (f : Number → ℚ) : List (String × Json) → List (String × Json)
  | [] => []
  | (key, j) :: fields => (key, mapNumbers f j) :: mapFields f fields
end

mutual
/-- No number is an integer that is none of a double's values. -/
def doubles : Json → Bool
  | number n => decide (n.asF64 = n.exact)
  | array items => doublesItems items
  | object fields => doublesFields fields
  | null => true
  | bool _ => true
  | string _ => true

def doublesItems : List Json → Bool
  | [] => true
  | j :: items => doubles j && doublesItems items

def doublesFields : List (String × Json) → Bool
  | [] => true
  | (_, j) :: fields => doubles j && doublesFields fields
end

mutual
/-- Where the numbers of a program are doubles, such documents alone are read as they are. -/
theorem mapNumbers_eq_iff :
    ∀ j : Json, mapNumbers Number.asF64 j = mapNumbers Number.exact j ↔ doubles j = true
  | number n => by simp [mapNumbers, doubles]
  | array items => by
    have hitems := mapItems_eq_iff items
    simp [mapNumbers, doubles, hitems]
  | object fields => by
    have hfields := mapFields_eq_iff fields
    simp [mapNumbers, doubles, hfields]
  | null => by simp [mapNumbers, doubles]
  | bool b => by simp [mapNumbers, doubles]
  | string s => by simp [mapNumbers, doubles]

theorem mapItems_eq_iff : ∀ items : List Json,
    mapItems Number.asF64 items = mapItems Number.exact items ↔ doublesItems items = true
  | [] => by simp [mapItems, doublesItems]
  | j :: items => by
    have hj := mapNumbers_eq_iff j
    have hitems := mapItems_eq_iff items
    simp [mapItems, doublesItems, hj, hitems]

theorem mapFields_eq_iff : ∀ fields : List (String × Json),
    mapFields Number.asF64 fields = mapFields Number.exact fields ↔ doublesFields fields = true
  | [] => by simp [mapFields, doublesFields]
  | (key, j) :: fields => by
    have hj := mapNumbers_eq_iff j
    have hfields := mapFields_eq_iff fields
    simp [mapFields, doublesFields, hj, hfields]
end

theorem get_mapNumbers (f : Number → ℚ) (j : Json) (key : String) :
    (j.mapNumbers f).get key = (j.get key).map (mapNumbers f) := by
  cases j with
  | object fields =>
    simp only [mapNumbers, get]
    induction fields with
    | nil => rfl
    | cons e fields ih =>
      obtain ⟨k, v⟩ := e
      by_cases hk : key = k
      · simp [mapFields, SortedMap.get, hk]
      · simpa [mapFields, SortedMap.get, hk] using ih
  | number n => rfl
  | null => rfl
  | bool b => rfl
  | string s => rfl
  | array items => rfl

end Json

namespace Plugins

/-! The server. -/

inductive PutAnswer where
  /-- metadata of a path, nothing for a handler -/
  | metadata
  /-- "No handler registered for path" -/
  | notFound
  | forward (pluginId bridgePath : String) (payload : Json)
  deriving DecidableEq

/-- The value of a request's body. -/
def putValue (body : Json) : Json :=
  (body.get "value").getD body

def bridgePath (pluginId skPath : String) : String :=
  "/put/" ++ pluginId ++ "/" ++ Text.replace '.' '/' skPath

def putPayload (requestId : String) (value : Json) : Json :=
  Json.ofFields [("requestId", .string requestId), ("value", value)]

/-- `put_path` without handlers of its own process; the handlers of the bridge are visited in
some order. -/
def putPath (putHandlers : List (String × String)) (requestId urlPath : String) (body : Json) :
    PutAnswer :=
  let parts := (Text.split '/' urlPath).filter fun s => decide (s ≠ "")
  let skPath := urlToSkPath urlPath
  if parts.getLast? = some "meta" then .metadata
  else
    match putHandlers.find? fun e => matchesPattern e.1 skPath with
    | none => .notFound
    | some (_, pluginId) =>
      .forward pluginId (bridgePath pluginId skPath) (putPayload requestId (putValue body))

/-! The bridge. -/

/-- What `.` does not match. -/
def lineTerminator (c : Char) : Bool :=
  decide (c = '\n' ∨ c = '\r' ∨ c.toNat = 0x2028 ∨ c.toNat = 0x2029)

/-- `/^\/put\/([^/]+)\/(.+)$/` -/
def putMatch (url : String) : Option (String × String) := do
  let rest ← Text.stripPrefix url "/put/"
  let pluginId := rest.toList.takeWhile (· ≠ '/')
  match rest.toList.dropWhile (· ≠ '/') with
  | _ :: path =>
    if pluginId ≠ [] ∧ path ≠ [] ∧ path.any lineTerminator = false then
      some (String.ofList pluginId, String.ofList path)
    else none
  | [] => none

structure PutEvent where
  pluginId : String
  path : String
  value : Option Json
  deriving DecidableEq

/-- `_handleCallback`; the body is read with doubles for its numbers. -/
def handleCallback (url : String) (body : Json) : Option PutEvent :=
  (putMatch url).map fun m =>
    { pluginId := m.1
      path := Text.replace '/' '.' m.2
      value := (body.mapNumbers Number.asF64).get "value" }

structure PutRegistration (H : Type) where
  context : String
  skPath : String
  handler : H
  pluginId : String
  deriving DecidableEq

def putKey (pluginId skPath : String) : String :=
  pluginId ++ ":" ++ skPath

/-- `s.replace(sub, '')`: the first occurrence alone. -/
def removeFirst (sub : List Char) : List Char → List Char
  | [] => []
  | c :: cs =>
    if sub.isPrefixOf (c :: cs) then (c :: cs).drop sub.length else c :: removeFirst sub cs

/-- What a path has to begin with. -/
def patternPrefix (pattern : String) : List Char :=
  removeFirst ['*'] (removeFirst ['.', '*'] pattern.toList)

/-- The test of `_findPutHandler` on a key. -/
def passes (pluginId skPath key : String) : Bool :=
  match Text.split ':' key with
  | pid :: pattern :: _ =>
    decide (pid = pluginId) && (patternPrefix pattern).isPrefixOf skPath.toList
  | _ => false

/-- Both maps: the one of the bridge, whose handlers are kept with their registrations, and
the one of the server. -/
structure PutHandlers (H : Type) where
  bridge : List (String × PutRegistration H)
  server : HashMap String String

namespace PutHandlers
variable {H : Type}

def registerPutHandler (h : PutHandlers H) (r : PutRegistration H) : PutHandlers H where
  bridge := OrderedMap.set (putKey r.pluginId r.skPath) r h.bridge
  server := h.server.insert r.skPath r.pluginId

def registered (rs : List (PutRegistration H)) : PutHandlers H :=
  rs.foldl registerPutHandler ⟨[], ∅⟩

/-- The handler that the bridge calls, with path and value of the event. -/
def onPut (h : PutHandlers H) (e : PutEvent) : Option (PutRegistration H) :=
  (OrderedMap.get (putKey e.pluginId e.path) h.bridge).or
    ((h.bridge.find? fun entry => passes e.pluginId e.path entry.1).map (·.2))


theorem registered_append (rs : List (PutRegistration H)) (r : PutRegistration H) :
    registered (rs ++ [r]) = (registered rs).registerPutHandler r := by
  simp [registered]

/-- Every handler of the bridge is kept under the key of its registration. -/
theorem bridge_registered (rs : List (PutRegistration H)) :
    ∀ e ∈ (registered rs).bridge, e.2 ∈ rs ∧ e.1 = putKey e.2.pluginId e.2.skPath := by
  induction rs using List.reverseRecOn with
  | nil =>
    intro e he
    cases he
  | append_singleton rs r ih =>
    intro e he
    rw [registered_append] at he
    obtain rfl | he := OrderedMap.mem_set he
    · exact ⟨List.mem_append_right rs (List.mem_singleton.mpr rfl), rfl⟩
    · exact ⟨List.mem_append_left [r] (ih e he).1, (ih e he).2⟩

/-- The server knows exactly the patterns that were registered. -/
theorem server_registered (rs : List (PutRegistration H)) (pattern : String) :
    (∃ id, (registered rs).server.lookup pattern = some id) ↔
      ∃ r ∈ rs, r.skPath = pattern := by
  induction rs using List.reverseRecOn with
  | nil => simp [registered, Finmap.lookup_empty]
  | append_singleton rs r ih =>
    have hserver : (registered (rs ++ [r])).server =
        (registered rs).server.insert r.skPath r.pluginId := by
      rw [registered_append]
      rfl
    rw [hserver, HashMap.lookup_insert]
    by_cases hp : pattern = r.skPath
    · subst hp
      simp
    · have hne : r.skPath ≠ pattern := Ne.symm hp
      rw [if_neg hp, ih]
      simp [hne]

/-- Some pattern that the server finds was registered, and the other way round. -/
theorem find_registered {rs : List (PutRegistration H)} {order : List (String × String)}
    (horder : HashMap.IterOrder order (registered rs).server) (p : String) :
    (∃ e, (order.find? fun e => matchesPattern e.1 p) = some e) ↔
      ∃ r ∈ rs, matchesPattern r.skPath p = true := by
  have hmem : ∀ pattern, (∃ id, (pattern, id) ∈ order) ↔ ∃ r ∈ rs, r.skPath = pattern := by
    intro pattern
    rw [← server_registered]
    exact exists_congr fun id => horder.mem_iff pattern id
  rw [← Option.isSome_iff_exists, List.find?_isSome]
  constructor
  · rintro ⟨⟨pattern, id⟩, he, hmatch⟩
    obtain ⟨r, hr, rfl⟩ := (hmem pattern).mp ⟨id, he⟩
    exact ⟨r, hr, hmatch⟩
  · rintro ⟨r, hr, hmatch⟩
    obtain ⟨id, he⟩ := (hmem r.skPath).mpr ⟨r, hr, rfl⟩
    exact ⟨_, he, hmatch⟩

/-- The bridge has a handler of the plugin: under the path itself, or else first among the
keys that pass the test on prefixes. -/
def Found (h : PutHandlers H) (id p : String) : Prop :=
  match OrderedMap.get (putKey id p) h.bridge with
  | some reg => reg.pluginId = id
  | none => ∃ e, (h.bridge.find? fun e => passes id p e.1) = some e ∧
      e.2.pluginId = id ∧ matchesPattern e.2.skPath p = true

theorem found_iff (rs : List (PutRegistration H)) (e : PutEvent) :
    (∃ reg ∈ rs, (registered rs).onPut e = some reg ∧ reg.pluginId = e.pluginId ∧
        matchesPattern reg.skPath e.path = true) ↔
      (registered rs).Found e.pluginId e.path := by
  rw [Found, onPut]
  cases hget : OrderedMap.get (putKey e.pluginId e.path) (registered rs).bridge with
  | some reg =>
    obtain ⟨hreg, hkey⟩ := bridge_registered rs _ (OrderedMap.mem_of_get hget)
    constructor
    · rintro ⟨r, -, hr, hid, -⟩
      obtain rfl := Option.some.inj hr
      exact hid
    · intro (hid : reg.pluginId = e.pluginId)
      -- a key that begins with its plugin's own id has the path for the rest
      have hpath : reg.skPath = e.path := by
        rw [hid] at hkey
        exact (String.append_right_inj _).mp hkey.symm
      refine ⟨reg, hreg, rfl, hid, ?_⟩
      rw [hpath]
      exact matchesParts_self _
  | none =>
    constructor
    · rintro ⟨r, -, hr, hid, hmatch⟩
      obtain ⟨entry, hentry, rfl⟩ := Option.map_eq_some_iff.mp hr
      exact ⟨entry, hentry, hid, hmatch⟩
    · rintro ⟨entry, hentry, hid, hmatch⟩
      have hreg := (bridge_registered rs _ (List.mem_of_find?_eq_some hentry)).1
      exact ⟨entry.2, hreg, Option.map_eq_some_iff.mpr ⟨entry, hentry, rfl⟩, hid, hmatch⟩

end PutHandlers

/-! The URL between them. -/

/-- The request's URL is the one that the server wrote, or another of the same plugin that
spells the same path. -/
def Arrives (reqUrl : String → Option String) (id p : String) : Prop :=
  ∃ rest, reqUrl (bridgePath id p) = some ("/put/" ++ id ++ "/" ++ rest) ∧
    Text.replace '/' '.' rest = p

/-- An id and a path between which the bridge can tell. -/
def Decodable (id p : String) : Prop :=
  id ≠ "" ∧ '/' ∉ id.toList ∧ p ≠ "" ∧ p.toList.any lineTerminator = false

instance (id p : String) : Decidable (Decodable id p) :=
  inferInstanceAs (Decidable (_ ∧ _))

/-- Where a list is cut at its first slash. -/
theorem cut_slash {cs id : List Char} {c : Char} {rest : List Char}
    (hid : cs.takeWhile (· ≠ '/') = id) (hrest : cs.dropWhile (· ≠ '/') = c :: rest) :
    cs = id ++ '/' :: rest ∧ '/' ∉ id := by
  subst hid
  have hc : c = '/' := by
    have hhead := List.head?_dropWhile_not (fun c => decide (c ≠ '/')) cs
    rw [hrest] at hhead
    simpa using hhead
  have happ := List.takeWhile_append_dropWhile (p := fun c => decide (c ≠ '/')) (l := cs)
  rw [hrest, hc] at happ
  refine ⟨happ.symm, fun hmem => ?_⟩
  have hne := List.mem_takeWhile_imp hmem
  simp at hne

theorem cut_append {id : List Char} (rest : List Char) (h : '/' ∉ id) :
    (id ++ '/' :: rest).takeWhile (· ≠ '/') = id ∧
      (id ++ '/' :: rest).dropWhile (· ≠ '/') = '/' :: rest := by
  have hid : ∀ c ∈ id, decide (c ≠ '/') = true :=
    fun c hc => decide_eq_true fun he => h (he ▸ hc)
  constructor
  · rw [List.takeWhile_append_of_pos hid]
    simp
  · rw [List.dropWhile_append_of_pos hid]
    simp

theorem putMatch_eq_some {url id rest : String} :
    putMatch url = some (id, rest) ↔
      url = "/put/" ++ id ++ "/" ++ rest ∧
        id ≠ "" ∧ '/' ∉ id.toList ∧ rest ≠ "" ∧ rest.toList.any lineTerminator = false := by
  have hempty : ∀ s : List Char, String.ofList s ≠ "" ↔ s ≠ [] := fun s => by simp
  constructor
  · intro h
    rw [putMatch, Option.bind_eq_bind, Option.bind_eq_some_iff] at h
    obtain ⟨tail, htail, h⟩ := h
    have hurl : url = "/put/" ++ tail := by
      rw [Text.stripPrefix] at htail
      split_ifs at htail with hstart
      obtain ⟨_, rfl⟩ := (Text.startsWith_iff url "/put/").mp hstart
      have hdrop := Option.some.inj htail
      simp only [String.toList_append, List.drop_left, String.ofList_toList] at hdrop
      rw [hdrop]
    cases hcut : tail.toList.dropWhile (· ≠ '/') with
    | nil =>
      simp only [hcut] at h
      cases h
    | cons c path =>
      simp only [hcut] at h
      split_ifs at h with hparts
      obtain ⟨rfl, rfl⟩ := Prod.ext_iff.mp (Option.some.inj h)
      obtain ⟨hcs, hslash⟩ := cut_slash rfl hcut
      refine ⟨?_, (hempty _).mpr hparts.1, ?_, (hempty _).mpr hparts.2.1, ?_⟩
      · rw [hurl, ← String.toList_inj]
        simpa using congrArg ("/put/".toList ++ ·) hcs
      · simpa using hslash
      · simpa using hparts.2.2
  · rintro ⟨rfl, hid, hslash, hrest, hterm⟩
    obtain ⟨htake, hdrop⟩ := cut_append rest.toList hslash
    have htail : "/put/" ++ id ++ "/" ++ rest = "/put/" ++ (id ++ "/" ++ rest) := by
      rw [String.append_assoc, String.append_assoc, String.append_assoc]
    have hlist : (id ++ "/" ++ rest).toList = id.toList ++ '/' :: rest.toList := by simp
    have hparts : id.toList ≠ [] ∧ rest.toList ≠ [] ∧ rest.toList.any lineTerminator = false :=
      ⟨by simpa using hid, by simpa using hrest, hterm⟩
    rw [putMatch, htail, Text.stripPrefix_append, Option.bind_eq_bind, Option.bind_some, hlist,
      htake, hdrop]
    simp only [if_pos hparts, String.ofList_toList]

theorem any_replace (s : String) :
    (Text.replace '/' '.' s).toList.any lineTerminator = s.toList.any lineTerminator := by
  have hslash : lineTerminator '/' = lineTerminator '.' := by decide
  rw [Text.replace, String.toList_ofList, List.any_map]
  refine List.any_congr rfl fun c => ?_
  by_cases hc : c = '/' <;> simp [hc, hslash]

theorem putPayload_value (requestId : String) (value : Json) (f : Number → ℚ) :
    ((putPayload requestId value).mapNumbers f).get "value" = some (value.mapNumbers f) := by
  have hget : (putPayload requestId value).get "value" = some value :=
    SortedMap.get_foldl_insert (by simp) (by simp) []
  rw [Json.get_mapNumbers, hget, Option.map_some]

/-- What the bridge reads from the URL of a plugin and a path. -/
theorem handleCallback_iff (reqUrl : String → Option String) (requestId id p : String)
    (value : Json) :
    ((reqUrl (bridgePath id p)).bind fun url => handleCallback url (putPayload requestId value)) =
        some ⟨id, p, some (value.mapNumbers Number.exact)⟩ ↔
      Decodable id p ∧ Arrives reqUrl id p ∧ value.doubles = true := by
  rw [Option.bind_eq_some_iff]
  constructor
  · rintro ⟨url, hurl, h⟩
    obtain ⟨⟨mid, rest⟩, hmatch, he⟩ := Option.map_eq_some_iff.mp h
    rw [putPayload_value] at he
    obtain ⟨rfl, rfl, hvalue⟩ := PutEvent.mk.inj he
    obtain ⟨rfl, hid, hslash, hrest, hterm⟩ := putMatch_eq_some.mp hmatch
    refine ⟨⟨hid, hslash, ?_, ?_⟩, ⟨rest, hurl, rfl⟩, ?_⟩
    · rwa [ne_eq, Text.replace_eq_empty]
    · rwa [any_replace]
    · exact (Json.mapNumbers_eq_iff value).mp (Option.some.inj hvalue)
  · rintro ⟨⟨hid, hslash, hp, hterm⟩, ⟨rest, hurl, rfl⟩, hvalue⟩
    have hmatch : putMatch ("/put/" ++ id ++ "/" ++ rest) = some (id, rest) := by
      refine putMatch_eq_some.mpr ⟨rfl, hid, hslash, ?_, ?_⟩
      · rwa [ne_eq, Text.replace_eq_empty] at hp
      · rwa [any_replace] at hterm
    refine ⟨_, hurl, ?_⟩
    rw [handleCallback, hmatch, Option.map_some, putPayload_value,
      (Json.mapNumbers_eq_iff value).mpr hvalue]

section
variable {H : Type}

/-- A request for a path that some pattern matches gets to a handler of the plugin that the
server picks, for a pattern that matches the path, with the same path and value; no handler
gets a path that its own pattern does not match. -/
def PutReaches (reqUrl : String → Option String) (rs : List (PutRegistration H))
    (order : List (String × String)) (requestId urlPath : String) (body : Json) : Prop :=
  let p := urlToSkPath urlPath
  ((∃ r ∈ rs, matchesPattern r.skPath p = true) →
    ∃ id url payload, putPath order requestId urlPath body = .forward id url payload ∧
      ((reqUrl url).bind fun u => handleCallback u payload) =
        some ⟨id, p, some ((putValue body).mapNumbers Number.exact)⟩ ∧
      ∃ reg ∈ rs,
        (PutHandlers.registered rs).onPut
            ⟨id, p, some ((putValue body).mapNumbers Number.exact)⟩ = some reg ∧
          reg.pluginId = id ∧ matchesPattern reg.skPath p = true) ∧
  ∀ id url payload e reg, putPath order requestId urlPath body = .forward id url payload →
    ((reqUrl url).bind fun u => handleCallback u payload) = some e →
    (PutHandlers.registered rs).onPut e = some reg → matchesPattern reg.skPath e.path = true

/-- PUT requests reach their handlers exactly where the URL can carry plugin and path, the
value has no numbers but doubles, and the bridge finds a handler of the plugin by its own
test. -/
theorem put_reaches_iff (reqUrl : String → Option String) (rs : List (PutRegistration H))
    (order : List (String × String))
    (horder : HashMap.IterOrder order (PutHandlers.registered rs).server)
    (requestId urlPath : String) (body : Json) :
    PutReaches reqUrl rs order requestId urlPath body ↔
      ∀ e, (order.find? fun e => matchesPattern e.1 (urlToSkPath urlPath)) = some e →
        ((Text.split '/' urlPath).filter fun s => decide (s ≠ "")).getLast? ≠ some "meta" ∧
          (putValue body).doubles = true ∧ Decodable e.2 (urlToSkPath urlPath) ∧
          Arrives reqUrl e.2 (urlToSkPath urlPath) ∧
          (PutHandlers.registered rs).Found e.2 (urlToSkPath urlPath) := by
  have hfind := PutHandlers.find_registered horder (urlToSkPath urlPath)
  rw [PutReaches, ← hfind]
  cases hentry : order.find? fun e => matchesPattern e.1 (urlToSkPath urlPath) with
  | none =>
    have hno : ∀ id url payload,
        putPath order requestId urlPath body ≠ .forward id url payload := by
      intro id url payload h
      simp only [putPath, hentry] at h
      split_ifs at h
    refine iff_of_true ⟨fun h => ?_, fun id url payload _ _ h => (hno id url payload h).elim⟩ ?_
    · obtain ⟨_, he⟩ := h
      cases he
    · intro e he
      cases he
  | some entry =>
    -- where the request is forwarded, plugin, URL and value are those of the first entry
    have hput : putPath order requestId urlPath body =
        if ((Text.split '/' urlPath).filter fun s => decide (s ≠ "")).getLast? = some "meta" then
          .metadata
        else .forward entry.2 (bridgePath entry.2 (urlToSkPath urlPath))
          (putPayload requestId (putValue body)) := by
      simp only [putPath, hentry]
    constructor
    · rintro ⟨hreach, -⟩ e he
      obtain rfl := Option.some.inj he
      obtain ⟨id, url, payload, hforward, hevent, hreg⟩ := hreach ⟨_, rfl⟩
      rw [hput] at hforward
      split_ifs at hforward with hmeta
      obtain ⟨rfl, rfl, rfl⟩ := PutAnswer.forward.inj hforward
      obtain ⟨hdecodable, harrives, hvalue⟩ := (handleCallback_iff ..).mp hevent
      exact ⟨hmeta, hvalue, hdecodable, harrives, (PutHandlers.found_iff rs _).mp hreg⟩
    · intro hcond
      obtain ⟨hmeta, hvalue, hdecodable, harrives, hfound⟩ := hcond entry rfl
      rw [if_neg hmeta] at hput
      have hevent := (handleCallback_iff reqUrl requestId entry.2 (urlToSkPath urlPath)
        (putValue body)).mpr ⟨hdecodable, harrives, hvalue⟩
      have hreg := (PutHandlers.found_iff rs
        ⟨entry.2, urlToSkPath urlPath, some ((putValue body).mapNumbers Number.exact)⟩).mpr hfound
      refine ⟨fun _ => ⟨_, _, _, hput, hevent, hreg⟩, ?_⟩
      intro id url payload e reg hforward he hcalled
      rw [hput] at hforward
      obtain ⟨rfl, rfl, rfl⟩ := PutAnswer.forward.inj hforward
      obtain rfl := Option.some.inj (hevent.symm.trans he)
      obtain ⟨reg', -, hcalled', -, hmatch⟩ := hreg
      obtain rfl := Option.some.inj (hcalled'.symm.trans hcalled)
      exact hmatch

/-- A plugin under a scoped package name: the bridge takes its scope for the id. And one with
two patterns: the handler of the wrong one is called. -/
theorem put_goes_astray :
    (∃ (r : PutRegistration Unit) (order : List (String × String)),
      r.pluginId = "@signalk/pilot" ∧
      HashMap.IterOrder order (PutHandlers.registered [r]).server ∧
      ¬ PutReaches some [r] order "1" "vessels/self/steering/autopilot/state"
        (.object [("value", .string "auto")])) ∧
    ∃ (r s : PutRegistration Bool) (order : List (String × String)),
      r.skPath = "steering.*" ∧ s.skPath = "steering.autopilot.*" ∧
      HashMap.IterOrder order (PutHandlers.registered [r, s]).server ∧
      (PutHandlers.registered [r, s]).onPut
        ⟨"pilot", "steering.autopilot.state", some (.string "auto")⟩ = some r ∧
      ¬ PutReaches some [r, s] order "1" "vessels/self/steering/autopilot/state"
        (.object [("value", .string "auto")]) := by
  constructor
  · refine ⟨⟨"vessels.self", "steering.autopilot.state", (), "@signalk/pilot"⟩,
      [("steering.autopilot.state", "@signalk/pilot")], rfl, by decide, fun h => ?_⟩
    obtain ⟨id, url, payload, hput, hevent, -⟩ := h.1
      ⟨_, List.mem_singleton.mpr rfl, by decide⟩
    have hforward : putPath [("steering.autopilot.state", "@signalk/pilot")] "1"
        "vessels/self/steering/autopilot/state" (.object [("value", .string "auto")]) =
        .forward "@signalk/pilot" (bridgePath "@signalk/pilot" "steering.autopilot.state")
          (putPayload "1" (.string "auto")) := by
      decide +kernel
    obtain ⟨rfl, rfl, rfl⟩ := PutAnswer.forward.inj (hforward.symm.trans hput)
    obtain ⟨⟨-, hslash, -⟩, -⟩ := (handleCallback_iff ..).mp hevent
    exact hslash (by decide)
  · have hcalled : (PutHandlers.registered
        [⟨"vessels.self", "steering.*", false, "pilot"⟩,
          ⟨"vessels.self", "steering.autopilot.*", true, "pilot"⟩]).onPut
        ⟨"pilot", "steering.autopilot.state", some (.string "auto")⟩ =
        some ⟨"vessels.self", "steering.*", false, "pilot"⟩ := by
      decide +kernel
    refine ⟨⟨"vessels.self", "steering.*", false, "pilot"⟩,
      ⟨"vessels.self", "steering.autopilot.*", true, "pilot"⟩,
      [("steering.*", "pilot"), ("steering.autopilot.*", "pilot")], rfl, rfl, by decide,
      hcalled, fun h => ?_⟩
    have hforward : putPath [("steering.*", "pilot"), ("steering.autopilot.*", "pilot")] "1"
        "vessels/self/steering/autopilot/state" (.object [("value", .string "auto")]) =
        .forward "pilot" "/put/pilot/steering/autopilot/state"
          (putPayload "1" (.string "auto")) := by
      decide +kernel
    have hevent : handleCallback "/put/pilot/steering/autopilot/state"
        (putPayload "1" (.string "auto")) =
        some ⟨"pilot", "steering.autopilot.state", some (.string "auto")⟩ := by
      decide +kernel
    have hmatch := h.2 _ _ _ _ _ hforward hevent hcalled
    exact absurd hmatch (by decide)

/-- One plugin with one pattern, and a path that the pattern matches. -/
theorem put_reaches_wildcard :
    PutReaches some [⟨"vessels.self", "steering.autopilot.*", (), "pilot"⟩]
      [("steering.autopilot.*", "pilot")] "1" "vessels/self/steering/autopilot/state"
      (.object [("value", .string "auto")]) := by
  refine (put_reaches_iff some _ _ (by decide) _ _ _).mpr fun e he => ?_
  have hfirst : [("steering.autopilot.*", "pilot")].find? (fun e =>
      matchesPattern e.1 (urlToSkPath "vessels/self/steering/autopilot/state")) =
      some ("steering.autopilot.*", "pilot") := by
    decide
  obtain rfl := Option.some.inj (hfirst.symm.trans he)
  have hfound : (PutHandlers.registered
      [(⟨"vessels.self", "steering.autopilot.*", (), "pilot"⟩ : PutRegistration Unit)]).Found
      "pilot" (urlToSkPath "vessels/self/steering/autopilot/state") :=
    ⟨("pilot:steering.autopilot.*", ⟨"vessels.self", "steering.autopilot.*", (), "pilot"⟩),
      by decide, rfl, by decide⟩
  have harrives : Arrives some "pilot"
      (urlToSkPath "vessels/self/steering/autopilot/state") :=
    ⟨"steering/autopilot/state", by decide, by decide⟩
  exact ⟨by decide, by decide, by decide, harrives, hfound⟩

end
end Plugins
end SignalK

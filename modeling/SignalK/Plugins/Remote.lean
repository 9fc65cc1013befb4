import SignalK.Plugins.Host
import SignalK.Plugins.Registries
import SignalK.Store.Store
import SignalK.Types.Resources

/-! A plugin in a process of its own, which reaches the server through the internal API,
beside one in the process of the server. Between them requests and replies are delivered as
they were sent. -/
namespace SignalK.Plugins

structure HttpRequest where
  method : String
  path : String
  headers : List (String × String)
  /-- the document whose text is the body -/
  body : Option Json
  deriving DecidableEq

structure HttpResponse where
  status : Nat
  body : Option Json
  deriving DecidableEq

/-- The derived codec of a delta, and the text of an instant. -/
class WireText where
  deltaToValue : Delta → Json
  deltaFromValue : Json → Option Delta
  toRfc3339 : DateTime → String

/-- For exchanges without deltas and instants. -/
@[reducible] def WireText.unused : WireText where
  deltaToValue _ := .null
  deltaFromValue _ := none
  toRfc3339 _ := ""

/-- What both kinds of plugins reach, with the token of the internal API. -/
structure PluginServer (φ : Type) where
  bridgeToken : String
  store : SignalKStore
  filters : φ
  chain : DeltaFilterChain φ

/-! The internal API. -/

/-- `HeaderMap::get`, whatever the case of the name. -/
def header (headers : List (String × String)) (name : String) : Option String :=
  (headers.find? fun h => decide (h.1.toList.map Char.toLower = name.toList.map Char.toLower)).map
    (·.2)

/-- `to_str` of a header's value: visible ASCII and tabs. -/
def visible (value : String) : Bool :=
  value.toList.all fun c => decide (32 ≤ c.toNat ∧ c.toNat < 127 ∨ c = '\t')

def urlToSkPath (urlPath : String) : String :=
  let parts := (Text.split '/' urlPath).filter fun s => decide (s ≠ "")
  match parts with
  | first :: _ :: path => Text.join '.' (if first = "vessels" then path else parts)
  | _ => Text.join '.' parts

structure PathQuery where
  path : String
  context : Option String

def PathQuery.selfPath (path : String) : PathQuery where
  path := path
  context := some "vessels.self"

structure PathQueryResponse where
  path : String
  value : Option Json
  source : Option String
  timestamp : Option String

/-- An absent value is written as null, an absent source or timestamp is skipped. -/
def PathQueryResponse.toValue (r : PathQueryResponse) : Json :=
  Json.ofPresent [("path", some (.string r.path)), ("value", some (r.value.getD .null)),
    ("$source", r.source.map .string), ("timestamp", r.timestamp.map .string)]

def message (text : String) : Json :=
  Json.ofFields [("message", .string text)]

def unauthorized : HttpResponse :=
  ⟨401, some (message "Invalid or missing X-Bridge-Token")⟩

namespace PluginServer
variable {φ : Type}

def checkToken (s : PluginServer φ) (headers : List (String × String)) : Bool :=
  ((header headers "X-Bridge-Token").filter visible).any fun t => decide (t = s.bridgeToken)

/-- A filter may drop the delta. -/
def deliver [JsonText] (s : PluginServer φ) (clock : Nat → DateTime) (delta : Delta) :
    PluginServer φ :=
  match DeltaFilterChain.apply s.filters delta s.chain with
  | (filters, some delta) =>
    { s with filters := filters, store := (s.store.applyDelta clock delta).1 }
  | (filters, none) => { s with filters := filters }

section
variable [WireText]

/-- The callback for a query; it does not look at the context. -/
def onQuery (s : PluginServer φ) (query : PathQuery) : Option PathQueryResponse :=
  (s.store.getSelfPath query.path).map fun value =>
    { path := query.path
      value := some value.value
      source := some value.source
      timestamp := some (WireText.toRfc3339 value.timestamp) }

def queryPath (s : PluginServer φ) (headers : List (String × String)) (urlPath : String) :
    HttpResponse :=
  if s.checkToken headers then
    match s.onQuery (.selfPath (urlToSkPath urlPath)) with
    | some response => ⟨200, some response.toValue⟩
    | none => ⟨404, some (message "Path not found")⟩
  else unauthorized

variable [FloatText]

/-- `Json<DeltaIngest>`, or the status of its rejection. -/
def deltaBody (r : HttpRequest) : Except Nat Delta :=
  if header r.headers "Content-Type" = some "application/json" then
    match r.body with
    | none => .error 400
    | some doc =>
      match WireText.deltaFromValue doc.reparsed with
      | none => .error 422
      | some delta => .ok delta
  else .error 415

/-- The delta is delivered by a task of its own, here run to its end. -/
def ingestDelta [JsonText] (s : PluginServer φ) (clock : Nat → DateTime) (r : HttpRequest) :
    PluginServer φ × HttpResponse :=
  match deltaBody r with
  | .error status => (s, ⟨status, none⟩)
  | .ok delta =>
    if s.checkToken r.headers then (s.deliver clock delta, ⟨204, none⟩) else (s, unauthorized)

/-- Reads and deltas; what only the bridge asks for is left out. A catch-all matches one
character at least. -/
def serve [JsonText] (s : PluginServer φ) (clock : Nat → DateTime) (r : HttpRequest) :
    PluginServer φ × HttpResponse :=
  if r.path = "/internal/v1/delta" then
    if r.method = "POST" then s.ingestDelta clock r else (s, ⟨405, none⟩)
  else
    match Text.stripPrefix r.path "/internal/v1/api/" with
    | none => (s, ⟨404, none⟩)
    | some urlPath =>
      if urlPath = "" then (s, ⟨404, none⟩)
      else if r.method = "GET" then (s, s.queryPath r.headers urlPath)
      else (s, ⟨405, none⟩)

end
end PluginServer

/-! The client. -/

structure RemotePluginContext where
  token : String

namespace RemotePluginContext
variable {φ : Type}

def request [JsonText] (ctx : RemotePluginContext) (method path : String) (body : Option Json) :
    HttpRequest where
  method := method
  path := path
  headers :=
    [("Host", "localhost"), ("Authorization", "Bearer " ++ ctx.token)] ++
    (match body with
      | none => []
      | some doc =>
        [("Content-Type", "application/json"),
          ("Content-Length", toString (JsonText.toText doc).utf8ByteSize)]) ++
    [("Connection", "close")]
  body := body

/-- What a read makes of its reply. -/
def readReply [FloatText] (name : String) (reply : HttpResponse) :
    Except PluginError (Option Json) :=
  if reply.status = 200 then
    match reply.body with
    | none => .error (.json "EOF while parsing a value at line 1 column 0")
    | some doc => .ok (doc.reparsed.get "value")
  else if reply.status = 404 then .ok none
  else .error (.runtime (name ++ " failed: HTTP " ++ toString reply.status))

variable [JsonText] [FloatText] [WireText] (ctx : RemotePluginContext)

def getSelfPath (s : PluginServer φ) (clock : Nat → DateTime) (path : String) :
    PluginServer φ × Except PluginError (Option Json) :=
  let (s, reply) := s.serve clock
    (ctx.request "GET" ("/internal/v1/api/vessels/self/" ++ path) none)
  (s, readReply "get_self_path" reply)

def getPath (s : PluginServer φ) (clock : Nat → DateTime) (fullPath : String) :
    PluginServer φ × Except PluginError (Option Json) :=
  let (s, reply) := s.serve clock
    (ctx.request "GET" ("/internal/v1/api/" ++ Text.replace '.' '/' fullPath) none)
  (s, readReply "get_path" reply)

def handleMessage (s : PluginServer φ) (clock : Nat → DateTime) (delta : Delta) :
    PluginServer φ × Except PluginError Unit :=
  let (s, reply) := s.serve clock
    (ctx.request "POST" "/internal/v1/delta" (some (WireText.deltaToValue delta)))
  (s,
    if reply.status = 200 ∨ reply.status = 204 then .ok ()
    else .error (.runtime ("handle_message failed: HTTP " ++ toString reply.status)))

end RemotePluginContext

/-! The context in the process of the server. -/

namespace RustPluginContext
variable {φ : Type}

def getSelfPath (s : PluginServer φ) (path : String) : Except PluginError (Option Json) :=
  .ok ((s.store.getSelfPath path).map (·.value))

/-- `splitn(3, '.')` -/
def getPath (s : PluginServer φ) (fullPath : String) : Except PluginError (Option Json) :=
  match Text.split '.' fullPath with
  | "vessels" :: vesselUri :: first :: rest =>
    let uri := if vesselUri = "self" then s.store.selfUri else vesselUri
    .ok ((s.store.getVesselPath uri (Text.join '.' (first :: rest))).map (·.value))
  | _ => .ok ((s.store.getSelfPath fullPath).map (·.value))

def handleMessage [JsonText] (s : PluginServer φ) (clock : Nat → DateTime) (delta : Delta) :
    PluginServer φ × Except PluginError Unit :=
  (s.deliver clock delta, .ok ())

end RustPluginContext

/-! What a standalone plugin is owed. -/

section
variable {φ : Type} [JsonText] [FloatText] [WireText]

/-- With the token of the server it gets what a plugin in the process gets, and the server
is left the same; with any other every call fails and the store is left as it was. -/
def SeesTheSame (s : PluginServer φ) (ctx : RemotePluginContext) (clock : Nat → DateTime)
    (path fullPath : String) (delta : Delta) : Prop :=
  if ctx.token = s.bridgeToken then
    ctx.getSelfPath s clock path = (s, RustPluginContext.getSelfPath s path) ∧
      ctx.getPath s clock fullPath = (s, RustPluginContext.getPath s fullPath) ∧
      ctx.handleMessage s clock delta = RustPluginContext.handleMessage s clock delta
  else
    ((∃ e, (ctx.getSelfPath s clock path).2 = .error e) ∧
      (ctx.getSelfPath s clock path).1.store = s.store) ∧
    ((∃ e, (ctx.getPath s clock fullPath).2 = .error e) ∧
      (ctx.getPath s clock fullPath).1.store = s.store) ∧
    (∃ e, (ctx.handleMessage s clock delta).2 = .error e) ∧
      (ctx.handleMessage s clock delta).1.store = s.store

omit [FloatText] [WireText] in
/-- The client names its token in another header than the one that the server checks. -/
theorem request_unchecked (s : PluginServer φ) (ctx : RemotePluginContext) (method path : String)
    (body : Option Json) : s.checkToken (ctx.request method path body).headers = false := by
  have hnone : header (ctx.request method path body).headers "X-Bridge-Token" = none := by
    cases body <;> simp [header, RemotePluginContext.request]
  rw [PluginServer.checkToken, hnone]
  rfl

omit [JsonText] [FloatText] [WireText] in
theorem api_ne_delta (urlPath : String) : "/internal/v1/api/" ++ urlPath ≠ "/internal/v1/delta" := by
  intro h
  have hstrip := Text.stripPrefix_append "/internal/v1/api/" urlPath
  rw [h] at hstrip
  cases hstrip

theorem serve_get (s : PluginServer φ) (ctx : RemotePluginContext) (clock : Nat → DateTime)
    (urlPath : String) :
    s.serve clock (ctx.request "GET" ("/internal/v1/api/" ++ urlPath) none) =
      (s, if urlPath = "" then ⟨404, none⟩ else unauthorized) := by
  have hpath : (ctx.request "GET" ("/internal/v1/api/" ++ urlPath) none).path =
      "/internal/v1/api/" ++ urlPath := rfl
  have hmethod : (ctx.request "GET" ("/internal/v1/api/" ++ urlPath) none).method = "GET" := rfl
  rw [PluginServer.serve, hpath, hmethod, if_neg (api_ne_delta urlPath), Text.stripPrefix_append]
  by_cases hurl : urlPath = ""
  · simp [hurl]
  · simp [hurl, PluginServer.queryPath, request_unchecked]

theorem getSelfPath_refused (s : PluginServer φ) (ctx : RemotePluginContext)
    (clock : Nat → DateTime) (path : String) :
    ctx.getSelfPath s clock path =
      (s, .error (.runtime "get_self_path failed: HTTP 401")) := by
  have hassoc : "/internal/v1/api/vessels/self/" ++ path =
      "/internal/v1/api/" ++ ("vessels/self/" ++ path) := by
    rw [← String.append_assoc]
    rfl
  have hne : "vessels/self/" ++ path ≠ "" := by
    intro h
    have hlist := congrArg String.toList h
    simp at hlist
  rw [RemotePluginContext.getSelfPath, hassoc, serve_get, if_neg hne]
  rfl

theorem getPath_refused (s : PluginServer φ) (ctx : RemotePluginContext)
    (clock : Nat → DateTime) (fullPath : String) :
    ctx.getPath s clock fullPath =
      (s, if fullPath = "" then .ok none
        else .error (.runtime "get_path failed: HTTP 401")) := by
  rw [RemotePluginContext.getPath, serve_get]
  by_cases hempty : fullPath = ""
  · rw [if_pos (Text.replace_eq_empty.mpr hempty), if_pos hempty]
    rfl
  · rw [if_neg (mt Text.replace_eq_empty.mp hempty), if_neg hempty]
    rfl

theorem handleMessage_refused (s : PluginServer φ) (ctx : RemotePluginContext)
    (clock : Nat → DateTime) (delta : Delta) :
    ∃ e, ctx.handleMessage s clock delta = (s, .error e) := by
  have hserve : ∃ status body, status ≠ 200 ∧ status ≠ 204 ∧
      s.serve clock (ctx.request "POST" "/internal/v1/delta"
        (some (WireText.deltaToValue delta))) = (s, ⟨status, body⟩) := by
    have htype : header (ctx.request "POST" "/internal/v1/delta"
        (some (WireText.deltaToValue delta))).headers "Content-Type" =
        some "application/json" := by
      simp [header, RemotePluginContext.request]
    have hingest : s.serve clock (ctx.request "POST" "/internal/v1/delta"
        (some (WireText.deltaToValue delta))) =
        s.ingestDelta clock (ctx.request "POST" "/internal/v1/delta"
          (some (WireText.deltaToValue delta))) := rfl
    rw [hingest, PluginServer.ingestDelta, PluginServer.deltaBody, if_pos htype,
      request_unchecked]
    simp only [RemotePluginContext.request]
    cases WireText.deltaFromValue (WireText.deltaToValue delta).reparsed with
    | none => exact ⟨422, none, by decide, by decide, rfl⟩
    | some received => exact ⟨401, _, by decide, by decide, rfl⟩
  obtain ⟨status, body, h200, h204, hserve⟩ := hserve
  refine ⟨.runtime ("handle_message failed: HTTP " ++ toString status), ?_⟩
  rw [RemotePluginContext.handleMessage, hserve]
  simp only [h200, h204, or_self, if_false]

/-- A standalone plugin is refused exactly as owed, unless it has the token or asks for no
path at all; with the token it gets nothing. -/
theorem sees_the_same_iff (s : PluginServer φ) (ctx : RemotePluginContext)
    (clock : Nat → DateTime) (path fullPath : String) (delta : Delta) :
    SeesTheSame s ctx clock path fullPath delta ↔
      ctx.token ≠ s.bridgeToken ∧ fullPath ≠ "" := by
  obtain ⟨e, hmessage⟩ := handleMessage_refused s ctx clock delta
  rw [SeesTheSame, getSelfPath_refused, getPath_refused, hmessage]
  by_cases htoken : ctx.token = s.bridgeToken
  · rw [if_pos htoken]
    refine iff_of_false (fun h => ?_) fun h => h.1 htoken
    have hresult := congrArg Prod.snd h.1
    cases hresult
  · rw [if_neg htoken]
    by_cases hempty : fullPath = ""
    · rw [if_pos hempty]
      refine iff_of_false (fun h => ?_) fun h => h.2 hempty
      obtain ⟨-, ⟨⟨_, he⟩, -⟩, -⟩ := h
      cases he
    · rw [if_neg hempty]
      exact iff_of_true ⟨⟨⟨_, rfl⟩, rfl⟩, ⟨⟨_, rfl⟩, rfl⟩, ⟨_, rfl⟩, rfl⟩ ⟨htoken, hempty⟩

/-! What is behind the check: a request that carries the token where it is looked for. -/

omit [JsonText] [FloatText] [WireText] in
theorem PathQueryResponse.get_value (r : PathQueryResponse) :
    r.toValue.get "value" = some (r.value.getD .null) :=
  Json.get_ofPresent (by simp) (by simp)

omit [JsonText] in
theorem readReply_queryPath {s : PluginServer φ} {headers : List (String × String)}
    (h : s.checkToken headers = true) (name urlPath : String) :
    RemotePluginContext.readReply name (s.queryPath headers urlPath) =
      .ok ((s.store.getSelfPath (urlToSkPath urlPath)).map (·.value.reparsed)) := by
  rw [PluginServer.queryPath, if_pos h]
  cases hget : s.store.getSelfPath (urlToSkPath urlPath) with
  | none => simp [PluginServer.onQuery, PathQuery.selfPath, hget, RemotePluginContext.readReply]
  | some value =>
    simp [PluginServer.onQuery, PathQuery.selfPath, hget, RemotePluginContext.readReply,
      Json.get_reparsed, PathQueryResponse.get_value]

omit [JsonText] [FloatText] [WireText] in
/-- The vessel of a path is dropped, whichever it is. -/
theorem urlToSkPath_vessel {vessel : String} {path : List String}
    (h : ∀ part ∈ vessel :: path, part ≠ "" ∧ '/' ∉ part.toList) :
    urlToSkPath (Text.join '/' ("vessels" :: vessel :: path)) = Text.join '.' path := by
  have hslash : ∀ part ∈ "vessels" :: vessel :: path, '/' ∉ part.toList := by
    intro part hpart
    obtain rfl | hpart := List.mem_cons.mp hpart
    · decide
    · exact (h part hpart).2
  have hfilter : ("vessels" :: vessel :: path).filter (fun s => decide (s ≠ "")) =
      "vessels" :: vessel :: path := by
    refine List.filter_eq_self.mpr fun part hpart => decide_eq_true ?_
    obtain rfl | hpart := List.mem_cons.mp hpart
    · decide
    · exact (h part hpart).1
  rw [urlToSkPath, Text.split_join hslash (List.cons_ne_nil _ _), hfilter]
  rfl

omit [JsonText] in
/-- A read of another vessel is answered with the value of the own vessel. -/
theorem read_of_vessel {s : PluginServer φ} {headers : List (String × String)}
    (htoken : s.checkToken headers = true) {vessel : String} {path : List String}
    (h : ∀ part ∈ vessel :: path, part ≠ "" ∧ '/' ∉ part.toList ∧ '.' ∉ part.toList) :
    RemotePluginContext.readReply "get_path" (s.queryPath headers
        (Text.replace '.' '/' (Text.join '.' ("vessels" :: vessel :: path)))) =
      .ok ((s.store.getSelfPath (Text.join '.' path)).map (·.value.reparsed)) := by
  have hdots : ∀ part ∈ "vessels" :: vessel :: path, '.' ∉ part.toList := by
    intro part hpart
    obtain rfl | hpart := List.mem_cons.mp hpart
    · decide
    · exact (h part hpart).2.2
  rw [Text.replace_join hdots, readReply_queryPath htoken,
    urlToSkPath_vessel fun part hpart => ⟨(h part hpart).1, (h part hpart).2.1⟩]

end

section
attribute [local instance] JsonText.unused FloatText.exact WireText.unused

/-- A server that holds one value of the own vessel. -/
def serverWithSpeed : PluginServer Unit where
  bridgeToken := "secret"
  store := ((SignalKStore.new "urn:mrn:signalk:uuid:1").applyDelta (fun _ => 0)
    (Delta.selfVessel [⟨Source.plugin "gps", 0,
      [⟨"navigation.speedOverGround", .ofF64 (385 / 100)⟩]⟩])).1
  filters := ()
  chain := []

/-- A plugin with the token of the server is refused what is there. -/
theorem token_refused :
    (RemotePluginContext.getSelfPath ⟨"secret"⟩ serverWithSpeed (fun _ => 0)
        "navigation.speedOverGround").2 =
      .error (.runtime "get_self_path failed: HTTP 401") ∧
    RustPluginContext.getSelfPath serverWithSpeed "navigation.speedOverGround" =
      .ok (some (.ofF64 (385 / 100))) ∧
    ¬ SeesTheSame serverWithSpeed ⟨"secret"⟩ (fun _ => 0) "navigation.speedOverGround"
      "vessels.self.navigation.speedOverGround" (Delta.selfVessel []) := by
  have hremote : (RemotePluginContext.getSelfPath ⟨"secret"⟩ serverWithSpeed (fun _ => 0)
      "navigation.speedOverGround").2 =
      .error (.runtime "get_self_path failed: HTTP 401") := by
    decide +kernel
  have hlocal : RustPluginContext.getSelfPath serverWithSpeed "navigation.speedOverGround" =
      .ok (some (.ofF64 (385 / 100))) := by
    decide +kernel
  refine ⟨hremote, hlocal, fun h => ?_⟩
  have htoken : RemotePluginContext.token ⟨"secret"⟩ = serverWithSpeed.bridgeToken := rfl
  rw [SeesTheSame, if_pos htoken] at h
  rw [h.1, hlocal] at hremote
  cases hremote

end

end SignalK.Plugins

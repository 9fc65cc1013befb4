import Mathlib.Logic.Function.Basic
import SignalK.Notifications.Manager

/-! The silence and acknowledge requests of the v2 API beside the plugins that raise
notifications. Nobody holds the locks of the store and of the manager together, so a
delta on its way in and a request under way are each several steps. -/
namespace SignalK.Notifications

structure ServerState where
  store : SignalKStore
  notificationManager : NotificationManager

/-- What a request answers; the text of a parse error is left out. -/
inductive Response where
  | ok
  | badRequest (message : String)
  | notFound (message : String)
  | unprocessableEntity (message : String)
  | internalServerError
  deriving DecidableEq

/-- No traversal sequence: "..", a slash, a dot at either end. -/
def validateNotificationId (id : String) : Bool :=
  !(decide ("..".toList <:+: id.toList) || decide ('/' ∈ id.toList) ||
    Text.startsWith id "." || Text.endsWith id ".")

/-- The two requests that change a notification. -/
inductive Mutation where
  | silence | acknowledge
  deriving DecidableEq

/-- What a request changes, unless it is refused. -/
def Mutation.mutate : Mutation → Notification → Except Response Notification
  | .silence, n =>
    if n.state = .emergency then
      .error (.unprocessableEntity "Emergency notifications cannot be silenced")
    else
      .ok { n with
        method := n.method.filter (· ≠ .sound)
        status := some { n.status.getD .default with
          silenced := some true
          canSilence := some false } }
  | .acknowledge, n =>
    .ok { n with
      method :=
        if n.state = .emergency then n.method.filter (· ≠ .sound)
        else n.method.filter fun m => decide (m ≠ .sound ∧ m ≠ .visual)
      status := some { n.status.getD .default with
        acknowledged := some true
        canAcknowledge := some false } }

/-- What the manager is told once the change is written. -/
def Mutation.sync : Mutation → NotificationManager → String → NotificationManager
  | .silence, m, path => m.silence path
  | .acknowledge, m, path => m.acknowledge path

structure Request where
  mutation : Mutation
  notificationId : String
  /-- the time and the clock that its write will see -/
  timestamp : DateTime
  clock : Nat → DateTime

/-- How far a request has come, with what it holds. -/
inductive Progress where
  | received
  | parsed (n : Notification)
  | mutated (n : Notification)
  | written
  | answered (response : Response)
  deriving DecidableEq

namespace Request

def storePath (r : Request) : String :=
  "notifications." ++ r.notificationId

/-- The delta that a request writes, past the filter. -/
def writeBack (r : Request) (n : Notification) : Delta :=
  Delta.selfVessel [⟨Source.plugin "signalk-rs", r.timestamp, [⟨r.storePath, n.toValue⟩]⟩]

def mutate (r : Request) (n : Notification) : Progress :=
  match r.mutation.mutate n with
  | .error response => .answered response
  | .ok n => .mutated n

/-- What is done with the stored value once the store is released: a notification
without an id has to ask the manager for it. -/
def parse (r : Request) : Option SignalKValue → Progress
  | none => .answered (.notFound ("Notification not found: " ++ r.storePath))
  | some sv =>
    match Notification.fromValue sv.value with
    | none => .answered .internalServerError
    | some n => if n.id.isSome then r.mutate n else .parsed n

/-- One step of a request, under one lock. -/
def advance [JsonText] (r : Request) (s : ServerState) :
    Progress → (ServerState × List Delta) × Progress
  | .received =>
    if validateNotificationId r.notificationId then
      ((s, []), r.parse (s.store.getSelfPath r.storePath))
    else ((s, []), .answered (.badRequest "Invalid notification ID"))
  | .parsed n =>
    let id := (s.notificationManager.getEntryData r.storePath).map (·.1)
    ((s, []), r.mutate { n with id := id })
  | .mutated n =>
    let out := s.store.applyDelta r.clock (r.writeBack n)
    (({ s with store := out.1 }, out.2), .written)
  | .written =>
    let manager := r.mutation.sync s.notificationManager r.storePath
    (({ s with notificationManager := manager }, []), .answered .ok)
  | .answered response => ((s, []), .answered response)

end Request

/-- The server with the delta that each plugin has between the filter and the store,
and the progress of each request. -/
structure System (π ι : Type) where
  state : ServerState
  inFlight : π → Option Delta
  progress : ι → Progress

/-- A plugin's delta passes the filter, then enters the store; a request takes a step. -/
inductive Turn (π ι : Type) where
  | enrich (plugin : π) (uuids : Nat → String) (delta : Delta)
  | apply (plugin : π) (clock : Nat → DateTime)
  | request (i : ι)

namespace System
variable {π ι : Type} [DecidableEq π] [DecidableEq ι]

def start (s : ServerState) : System π ι where
  state := s
  inFlight _ := none
  progress _ := .received

/-- `handle_message` up to the store: a plugin waits for its last delta first. -/
def enrich (sys : System π ι) (plugin : π) (uuids : Nat → String) (delta : Delta) :
    System π ι :=
  match sys.inFlight plugin with
  | some _ => sys
  | none =>
    let out := sys.state.notificationManager.enrichDelta uuids delta
    { sys with
      state := { sys.state with notificationManager := out.1 }
      inFlight := Function.update sys.inFlight plugin (some out.2) }

def apply [JsonText] (sys : System π ι) (plugin : π) (clock : Nat → DateTime) :
    System π ι × List Delta :=
  match sys.inFlight plugin with
  | none => (sys, [])
  | some delta =>
    let out := sys.state.store.applyDelta clock delta
    ({ sys with
        state := { sys.state with store := out.1 }
        inFlight := Function.update sys.inFlight plugin none }, out.2)

def request [JsonText] (requests : ι → Request) (sys : System π ι) (i : ι) :
    System π ι × List Delta :=
  let out := (requests i).advance sys.state (sys.progress i)
  ({ sys with
      state := out.1.1
      progress := Function.update sys.progress i out.2 }, out.1.2)

def step [JsonText] (requests : ι → Request) (sys : System π ι) :
    Turn π ι → System π ι × List Delta
  | .enrich plugin uuids delta => (sys.enrich plugin uuids delta, [])
  | .apply plugin clock => sys.apply plugin clock
  | .request i => sys.request requests i

end System

/-! What a step of a request can do. -/

/-- A request writes what its mutation made of a notification it read, and changes the
manager only after that. -/
theorem Request.advance_cases [JsonText] (r : Request) (s : ServerState) (p : Progress) :
    (∃ response, r.advance s p = ((s, []), .answered response)) ∨
    (∃ sv n, s.store.getSelfPath r.storePath = some sv ∧
      Notification.fromValue sv.value = some n ∧ n.id = none ∧
      p = .received ∧ r.advance s p = ((s, []), .parsed n)) ∨
    (∃ n i n', ((∃ sv, s.store.getSelfPath r.storePath = some sv ∧
        Notification.fromValue sv.value = some n ∧ p = .received) ∨ p = .parsed n) ∧
      r.mutation.mutate { n with id := i } = .ok n' ∧
      r.advance s p = ((s, []), .mutated n')) ∨
    (∃ n, p = .mutated n ∧ r.advance s p =
      (({ s with store := (s.store.applyDelta r.clock (r.writeBack n)).1 },
        (s.store.applyDelta r.clock (r.writeBack n)).2), .written)) ∨
    (p = .written ∧ r.advance s p =
      (({ s with notificationManager := r.mutation.sync s.notificationManager r.storePath }, []),
        .answered .ok)) := by
  cases p with
  | received =>
    by_cases hv : validateNotificationId r.notificationId = true
    swap
    · exact .inl ⟨_, by simp only [advance, hv]; rfl⟩
    have hadv : r.advance s .received = ((s, []), r.parse (s.store.getSelfPath r.storePath)) := by
      rw [advance, if_pos hv]
    rw [hadv]
    cases hsv : s.store.getSelfPath r.storePath with
    | none => exact .inl ⟨_, rfl⟩
    | some sv =>
      cases hn : Notification.fromValue sv.value with
      | none => exact .inl ⟨_, by rw [parse, hn]⟩
      | some n =>
        rw [parse, hn]
        cases hid : n.id with
        | none => exact .inr (.inl ⟨sv, n, rfl, hn, hid, rfl, by simp [hid]⟩)
        | some i =>
          have he : { n with id := some i } = n := Notification.ext hid.symm rfl rfl rfl rfl
          cases hm : r.mutation.mutate n with
          | error response => exact .inl ⟨response, by simp [hid, mutate, hm]⟩
          | ok n' =>
            refine .inr (.inr (.inl ⟨n, some i, n', .inl ⟨sv, rfl, hn, rfl⟩, ?_, ?_⟩))
            · rw [he, hm]
            · simp [hid, mutate, hm]
  | parsed n =>
    rw [advance, mutate]
    cases hm : r.mutation.mutate
        { n with id := (s.notificationManager.getEntryData r.storePath).map (·.1) } with
    | error response => exact .inl ⟨response, rfl⟩
    | ok n' => exact .inr (.inr (.inl ⟨n, _, n', .inr rfl, hm, rfl⟩))
  | mutated n => exact .inr (.inr (.inr (.inl ⟨n, rfl, rfl⟩)))
  | written => exact .inr (.inr (.inr (.inr ⟨rfl, rfl⟩)))
  | answered response => exact .inl ⟨response, rfl⟩

end SignalK.Notifications

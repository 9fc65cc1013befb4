import SignalK.Store.Store
import SignalK.Store.Subscription

/-! One streaming connection: the subscriptions it starts with, the cached values
it is sent, and how client messages change the subscriptions. -/
namespace SignalK

def initialSubscriptions : SubscribeMode → Subscriptions
  | .self_ => HashMap.collect
      [("default-self", ActiveSubscription.new "vessels.self" "**" 1000 .ideal 0)]
  | .all => HashMap.collect
      [("default-all", ActiveSubscription.new "**" "**" 1000 .ideal 0)]
  | .none => ∅

/-- The self vessel's values in an order its map may be iterated in; there are
none when the store has no such vessel. -/
def SnapshotOrder (st : SignalKStore) (entries : List (String × SignalKValue)) : Prop :=
  HashMap.IterOrder entries ((st.vessels.lookup st.selfUri).getD VesselData.empty).values

instance : DecidableRel SnapshotOrder := fun _ entries =>
  inferInstanceAs (Decidable (HashMap.IterOrder entries _))

def cachedDelta (selfUri : String) (now : DateTime) (entries : List (String × SignalKValue)) :
    Delta :=
  Delta.withContext ("vessels." ++ selfUri)
    [{ source := Source.internal
       timestamp := now
       values := entries.map fun e => { path := e.1, value := e.2.value } }]

/-- The subscriptions of a new client and the cached values it is sent. -/
def connect (mode : SubscribeMode) (sendCachedValues : Bool) (selfUri : String) (now : DateTime)
    (entries : List (String × SignalKValue)) (order : List String) (clock : Nat → Reading) :
    Subscriptions × List Delta :=
  let subscriptions := initialSubscriptions mode
  if sendCachedValues = true ∧ subscriptions ≠ ∅ ∧ entries ≠ [] then
    filterDelta order clock subscriptions (cachedDelta selfUri now entries)
  else (subscriptions, [])

def applySubscription (context : String) (subscriptions : Subscriptions) (sub : Subscription) :
    Subscriptions :=
  subscriptions.insert (context ++ ":" ++ sub.path)
    (ActiveSubscription.new context sub.path (sub.period.getD 1000) (sub.policy.getD .ideal)
      (sub.minPeriod.getD 0))

def applySubscriptions (msg : SubscribeMessage) (subscriptions : Subscriptions) :
    Subscriptions :=
  msg.subscribe.foldl (applySubscription msg.context) subscriptions

/-- "*" drops every key that starts with the context. -/
def applyUnsubscription (context : String) (subscriptions : Subscriptions)
    (spec : UnsubscribeSpec) : Subscriptions :=
  if spec.path = "*" then subscriptions.retain fun key _ => !Text.startsWith key context
  else subscriptions.erase (context ++ ":" ++ spec.path)

def applyUnsubscribe (msg : UnsubscribeMessage) (subscriptions : Subscriptions) :
    Subscriptions :=
  msg.unsubscribe.foldl (applyUnsubscription msg.context) subscriptions

/-- A decoded client message; a text that decodes to none changes nothing. -/
def handleClientMessage (msg : Option InboundMessage) (subscriptions : Subscriptions) :
    Subscriptions :=
  match msg with
  | none => subscriptions
  | some (.subscribe msg) => applySubscriptions msg subscriptions
  | some (.unsubscribe msg) => applyUnsubscribe msg subscriptions

/-- What the event loop of a connection reacts to. -/
inductive ClientEvent where
  | broadcast (order : List String) (clock : Nat → Reading) (delta : Delta)
  | message (msg : Option InboundMessage)

def clientStep (subscriptions : Subscriptions) : ClientEvent → Subscriptions × List Delta
  | .broadcast order clock delta => filterDelta order clock subscriptions delta
  | .message msg => (handleClientMessage msg subscriptions, [])

end SignalK

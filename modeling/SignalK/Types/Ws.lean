import Mathlib.Data.Nat.Notation

/-! The messages of the streaming API: what a client asks for. -/
namespace SignalK

inductive SubscriptionPolicy where
  | instant | ideal | fixed
  deriving DecidableEq

structure Subscription where
  path : String
  period : Option UInt64
  format : Option String
  policy : Option SubscriptionPolicy
  minPeriod : Option UInt64
  deriving DecidableEq

/-- `Subscription::path` -/
def Subscription.ofPath (path : String) : Subscription where
  path := path
  period := none
  format := none
  policy := none
  minPeriod := none

structure SubscribeMessage where
  context : String
  subscribe : List Subscription
  deriving DecidableEq

structure UnsubscribeSpec where
  path : String
  deriving DecidableEq

structure UnsubscribeMessage where
  context : String
  unsubscribe : List UnsubscribeSpec
  deriving DecidableEq

inductive InboundMessage where
  | subscribe (msg : SubscribeMessage)
  | unsubscribe (msg : UnsubscribeMessage)
  deriving DecidableEq

/-- The `subscribe` query parameter of a connection. -/
inductive SubscribeMode where
  | self_ | all | none
  deriving DecidableEq

def SubscribeMode.fromStr (s : String) : SubscribeMode :=
  if s = "all" then .all else if s = "none" then .none else .self_

end SignalK

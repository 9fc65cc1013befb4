import SignalK.Types.Resources

/-! Notification values and their derived JSON form. A structure is read from an
object or, as the derived code also allows, from an array of its fields in order. -/
namespace SignalK

namespace Json

/-- The fields of a structure by name. An array must hold the `least` fields that have
no default and no more than there are. -/
def structFields (names : List String) (least : Nat) : Json → Option (String → Option Json)
  | object fields => some (get (object fields))
  | array items =>
    if least ≤ items.length ∧ items.length ≤ names.length then
      some fun key => items[names.idxOf key]?
    else none
  | _ => none

/-- A variant without data: its name, or an object with that name for a null. -/
def unitVariant {α : Type} (ofName : String → Option α) : Json → Option α
  | string name => ofName name
  | object [(name, null)] => ofName name
  | _ => none

theorem optional_map {α : Type} {decode : Json → Option α} {enc : α → Json}
    (hnull : decode null = none) (h : ∀ a, decode (enc a) = some a) (o : Option α) :
    optional decode (o.map enc) = some o := by
  cases o with
  | none => rfl
  | some a =>
    have ha := h a
    simp only [Option.map_some]
    cases hj : enc a with
    | null =>
      rw [hj, hnull] at ha
      cases ha
    | _ =>
      rw [hj] at ha
      simp [optional, ha]

theorem asList_ofList {α : Type} {decode : Json → Option α} {enc : α → Json}
    (h : ∀ a, decode (enc a) = some a) (as : List α) : asList decode (ofList enc as) = some as := by
  rw [ofList, asList]
  induction as with
  | nil => rfl
  | cons a as ih => simp [h, ih]

end Json

/-- Severities in ascending order; `normal` clears. -/
inductive NotificationState where
  | normal | nominal | alert | warn | alarm | emergency
  deriving DecidableEq

inductive NotificationMethod where
  | visual | sound
  deriving DecidableEq

@[ext] structure NotificationStatus where
  silenced : Option Bool
  acknowledged : Option Bool
  canSilence : Option Bool
  canAcknowledge : Option Bool
  canClear : Option Bool
  deriving DecidableEq

@[ext] structure Notification where
  id : Option String
  state : NotificationState
  method : List NotificationMethod
  message : String
  status : Option NotificationStatus
  deriving DecidableEq

namespace NotificationState

def name : NotificationState → String
  | .normal => "normal"
  | .nominal => "nominal"
  | .alert => "alert"
  | .warn => "warn"
  | .alarm => "alarm"
  | .emergency => "emergency"

def ofName : String → Option NotificationState
  | "normal" => some .normal
  | "nominal" => some .nominal
  | "alert" => some .alert
  | "warn" => some .warn
  | "alarm" => some .alarm
  | "emergency" => some .emergency
  | _ => none

def toValue (s : NotificationState) : Json := .string s.name

def fromValue : Json → Option NotificationState := Json.unitVariant ofName

theorem fromValue_toValue (s : NotificationState) : fromValue s.toValue = some s := by
  cases s <;> rfl

end NotificationState

namespace NotificationMethod

def name : NotificationMethod → String
  | .visual => "visual"
  | .sound => "sound"

def ofName : String → Option NotificationMethod
  | "visual" => some .visual
  | "sound" => some .sound
  | _ => none

def toValue (m : NotificationMethod) : Json := .string m.name

def fromValue : Json → Option NotificationMethod := Json.unitVariant ofName

theorem fromValue_toValue (m : NotificationMethod) : fromValue m.toValue = some m := by
  cases m <;> rfl

end NotificationMethod

namespace NotificationStatus

/-- `NotificationStatus::default()`. -/
def default : NotificationStatus where
  silenced := none
  acknowledged := none
  canSilence := none
  canAcknowledge := none
  canClear := none

def names : List String :=
  ["silenced", "acknowledged", "canSilence", "canAcknowledge", "canClear"]

def toFields (s : NotificationStatus) : List (String × Option Json) :=
  [("silenced", s.silenced.map .bool), ("acknowledged", s.acknowledged.map .bool),
    ("canSilence", s.canSilence.map .bool), ("canAcknowledge", s.canAcknowledge.map .bool),
    ("canClear", s.canClear.map .bool)]

def toValue (s : NotificationStatus) : Json := .ofPresent s.toFields

def fromFields (field : String → Option Json) : Option NotificationStatus := do
  let silenced ← Json.optional Json.asBool (field "silenced")
  let acknowledged ← Json.optional Json.asBool (field "acknowledged")
  let canSilence ← Json.optional Json.asBool (field "canSilence")
  let canAcknowledge ← Json.optional Json.asBool (field "canAcknowledge")
  let canClear ← Json.optional Json.asBool (field "canClear")
  return {
    silenced := silenced
    acknowledged := acknowledged
    canSilence := canSilence
    canAcknowledge := canAcknowledge
    canClear := canClear }

def fromValue (j : Json) : Option NotificationStatus :=
  (Json.structFields names 0 j).bind fromFields

theorem fromValue_toValue (s : NotificationStatus) : fromValue s.toValue = some s := by
  have hn : (s.toFields.map Prod.fst).Nodup := by simp [toFields]
  have hget : ∀ e ∈ s.toFields, s.toValue.get e.1 = e.2 := fun e => Json.get_ofPresent hn
  have hopt : ∀ o : Option Bool, Json.optional Json.asBool (o.map .bool) = some o :=
    Json.optional_map (by rfl) (by intro b; rfl)
  simp only [toFields, List.forall_mem_cons] at hget
  obtain ⟨hs, ha, hcs, hca, hcc, -⟩ := hget
  have hfields : fromValue s.toValue = fromFields s.toValue.get := rfl
  rw [hfields, fromFields, hs, ha, hcs, hca, hcc]
  simp [hopt]

end NotificationStatus

namespace Notification

def names : List String := ["id", "state", "method", "message", "status"]

def toFields (n : Notification) : List (String × Option Json) :=
  [("id", n.id.map .string), ("state", some n.state.toValue),
    ("method", some (.ofList NotificationMethod.toValue n.method)),
    ("message", some (.string n.message)), ("status", n.status.map NotificationStatus.toValue)]

def toValue (n : Notification) : Json := .ofPresent n.toFields

def fromFields (field : String → Option Json) : Option Notification := do
  let id ← Json.optional Json.asStr (field "id")
  let state ← (field "state").bind NotificationState.fromValue
  let method ← (field "method").bind (Json.asList NotificationMethod.fromValue)
  let message ← (field "message").bind Json.asStr
  let status ← Json.optional NotificationStatus.fromValue (field "status")
  return {
    id := id
    state := state
    method := method
    message := message
    status := status }

def fromValue (j : Json) : Option Notification :=
  (Json.structFields names names.length j).bind fromFields

/-- What is written is read back. -/
theorem fromValue_toValue (n : Notification) : fromValue n.toValue = some n := by
  have hn : (n.toFields.map Prod.fst).Nodup := by simp [toFields]
  have hget : ∀ e ∈ n.toFields, n.toValue.get e.1 = e.2 := fun e => Json.get_ofPresent hn
  simp only [toFields, List.forall_mem_cons] at hget
  obtain ⟨hid, hstate, hmethod, hmessage, hstatus, -⟩ := hget
  have hfields : fromValue n.toValue = fromFields n.toValue.get := rfl
  have ho : Json.optional Json.asStr (n.id.map .string) = some n.id :=
    Json.optional_map (by rfl) (by intro s; rfl) n.id
  have hs : Json.optional NotificationStatus.fromValue (n.status.map NotificationStatus.toValue) =
      some n.status :=
    Json.optional_map (by rfl) NotificationStatus.fromValue_toValue n.status
  have hm := Json.asList_ofList NotificationMethod.fromValue_toValue n.method
  rw [hfields, fromFields, hid, hstate, hmethod, hmessage, hstatus, ho, hs]
  simp [NotificationState.fromValue_toValue, hm, Json.asStr]

example : fromValue (.array [.null, .string "alarm", .array [.string "sound"], .string "m", .null])
    = some ⟨none, .alarm, [.sound], "m", none⟩ := by decide

end Notification
end SignalK

import SignalK.Store.Ledger
import SignalK.Types.Notification

/-! The notification manager: a delta filter that gives every notification value an
id and the status its entry tracks. The ids that `Uuid::new_v4` would return are a
sequence, the n-th for the n-th value of a delta in case that value needs one. -/
namespace SignalK

structure NotificationEntry where
  id : String
  pluginOriginated : Bool
  silenced : Bool
  acknowledged : Bool
  deriving DecidableEq

/-- notification path → entry of the live notification -/
abbrev NotificationManager := HashMap String NotificationEntry

def NotificationEntry.raised (uuid : String) (isPluginSource : Bool) : NotificationEntry where
  id := uuid
  pluginOriginated := isPluginSource
  silenced := false
  acknowledged := false

/-- The value of a notification path when it deserializes. -/
def PathValue.notification (pv : PathValue) : Option Notification :=
  if Text.startsWith pv.path "notifications." then Notification.fromValue pv.value else none

/-- A value written over a notification reads back. -/
theorem PathValue.notification_toValue {pv : PathValue} {n : Notification}
    (h : pv.notification = some n) (n' : Notification) :
    (PathValue.mk pv.path n'.toValue).notification = some n' := by
  by_cases hp : Text.startsWith pv.path "notifications." = true
  · simp [notification, hp, Notification.fromValue_toValue]
  · simp [notification, hp] at h

namespace Notification

/-- A clear carries the id of the entry it ends and no capability. -/
def cleared (n : Notification) (old : Option NotificationEntry) : Notification :=
  { n with
    id := (old.map (·.id)).or n.id
    status := some {
      silenced := some false
      acknowledged := some false
      canSilence := some false
      canAcknowledge := some false
      canClear := some false } }

/-- An active notification reports its entry; its methods are left as they came. -/
def enriched (n : Notification) (entry : NotificationEntry) : Notification :=
  { n with
    id := some entry.id
    status := some {
      silenced := some entry.silenced
      acknowledged := some entry.acknowledged
      canSilence := some (decide (n.state ≠ .emergency) && !entry.silenced)
      canAcknowledge := some (!entry.acknowledged)
      canClear := some (!entry.pluginOriginated) } }

end Notification

namespace NotificationManager

/-- The entry of an active notification, a new one unless it is live. -/
def live (m : NotificationManager) (path uuid : String) (isPluginSource : Bool) :
    NotificationEntry :=
  (m.lookup path).getD (.raised uuid isPluginSource)

/-- The body of the innermost loop of `enrich_delta`. -/
def enrichValue (m : NotificationManager) (uuid : String) (isPluginSource : Bool)
    (pv : PathValue) : NotificationManager × PathValue :=
  match pv.notification with
  | none => (m, pv)
  | some n =>
    if n.state = .normal then
      (m.erase pv.path, { pv with value := (n.cleared (m.lookup pv.path)).toValue })
    else
      let entry := m.live pv.path uuid isPluginSource
      (m.insert pv.path entry, { pv with value := (n.enriched entry).toValue })

def enrichValues (isPluginSource : Bool) :
    (Nat → String) → NotificationManager → List PathValue → NotificationManager × List PathValue
  | _, m, [] => (m, [])
  | uuids, m, pv :: pvs =>
    let (m, pv) := m.enrichValue (uuids 0) isPluginSource pv
    let (m, pvs) := enrichValues isPluginSource (fun n => uuids (n + 1)) m pvs
    (m, pv :: pvs)

def enrichUpdates :
    (Nat → String) → NotificationManager → List Update → NotificationManager × List Update
  | _, m, [] => (m, [])
  | uuids, m, update :: updates =>
    let (m, values) :=
      enrichValues (decide (update.source.type = "Plugin")) uuids m update.values
    let (m, updates) := enrichUpdates (fun n => uuids (n + update.values.length)) m updates
    (m, { update with values := values } :: updates)

def enrichDelta (uuids : Nat → String) (m : NotificationManager) (delta : Delta) :
    NotificationManager × Delta :=
  let (m, updates) := enrichUpdates uuids m delta.updates
  (m, { delta with updates := updates })

/-- Both API calls change an entry that is there and never make one. -/
def modify (m : NotificationManager) (path : String)
    (f : NotificationEntry → NotificationEntry) : NotificationManager :=
  match m.lookup path with
  | some entry => m.insert path (f entry)
  | none => m

def silence (m : NotificationManager) (path : String) : NotificationManager :=
  m.modify path ({ · with silenced := true })

def acknowledge (m : NotificationManager) (path : String) : NotificationManager :=
  m.modify path ({ · with acknowledged := true })

/-- id, silenced, acknowledged and origin. -/
def getEntryData (m : NotificationManager) (path : String) :
    Option (String × Bool × Bool × Bool) :=
  (m.lookup path).map fun e => (e.id, e.silenced, e.acknowledged, e.pluginOriginated)

/-! What one value does. -/

theorem enrichValue_other {m : NotificationManager} {pv : PathValue} (uuid : String)
    (isPluginSource : Bool) (h : pv.notification = none) :
    m.enrichValue uuid isPluginSource pv = (m, pv) := by
  rw [enrichValue, h]

theorem enrichValue_clear {m : NotificationManager} {pv : PathValue} {n : Notification}
    (uuid : String) (isPluginSource : Bool) (h : pv.notification = some n)
    (hs : n.state = .normal) :
    m.enrichValue uuid isPluginSource pv =
      (m.erase pv.path, { pv with value := (n.cleared (m.lookup pv.path)).toValue }) := by
  simp only [enrichValue, h, if_pos hs]

theorem enrichValue_active {m : NotificationManager} {pv : PathValue} {n : Notification}
    (uuid : String) (isPluginSource : Bool) (h : pv.notification = some n)
    (hs : n.state ≠ .normal) :
    m.enrichValue uuid isPluginSource pv =
      (m.insert pv.path (m.live pv.path uuid isPluginSource),
        { pv with value := (n.enriched (m.live pv.path uuid isPluginSource)).toValue }) := by
  simp only [enrichValue, h, if_neg hs]

@[simp] theorem enrichValue_path (m : NotificationManager) (uuid : String)
    (isPluginSource : Bool) (pv : PathValue) :
    (m.enrichValue uuid isPluginSource pv).2.path = pv.path := by
  unfold enrichValue
  split
  · rfl
  · split <;> rfl

/-- The entries of other paths are left alone. -/
theorem lookup_enrichValue_ne (m : NotificationManager) (uuid : String) (isPluginSource : Bool)
    {pv : PathValue} {path : String} (h : path ≠ pv.path) :
    (m.enrichValue uuid isPluginSource pv).1.lookup path = m.lookup path := by
  unfold enrichValue
  split
  · rfl
  · split
    · exact Finmap.lookup_erase_ne h
    · exact Finmap.lookup_insert_of_ne m h

theorem lookup_modify (m : NotificationManager) (path : String)
    (f : NotificationEntry → NotificationEntry) (p : String) :
    (m.modify path f).lookup p =
      if p = path then (m.lookup path).map f else m.lookup p := by
  cases hm : m.lookup path with
  | none =>
    by_cases hp : p = path
    · subst hp
      simp [modify, hm]
    · simp [modify, hm, hp]
  | some entry => simp [modify, hm, HashMap.lookup_insert]

theorem lookup_modify_eq_none {m : NotificationManager} {p : String} (h : m.lookup p = none)
    (path : String) (f : NotificationEntry → NotificationEntry) :
    (m.modify path f).lookup p = none := by
  rw [lookup_modify]
  split_ifs with hp
  · rw [← hp, h]
    rfl
  · exact h

/-! A delta is a run over its values. -/

/-- The values of a delta in order, each with whether a plugin sent it. -/
def flagged (delta : Delta) : List (Bool × PathValue) :=
  delta.updates.flatMap fun u => u.values.map (decide (u.source.type = "Plugin"), ·)

def enrichStep (m : NotificationManager) (e : String × Bool × PathValue) :
    NotificationManager × List PathValue :=
  ((m.enrichValue e.1 e.2.1 e.2.2).1, [(m.enrichValue e.1 e.2.1 e.2.2).2])

theorem enrichValues_exec (isPluginSource : Bool) (uuids : Nat → String)
    (m : NotificationManager) (pvs : List PathValue) :
    enrichValues isPluginSource uuids m pvs =
      Machine.exec enrichStep m (Machine.timed uuids (pvs.map (isPluginSource, ·))) := by
  induction pvs generalizing uuids m with
  | nil => rfl
  | cons pv pvs ih => simp [enrichValues, ih, Machine.timed, Machine.exec, enrichStep]

theorem enrichUpdates_exec (uuids : Nat → String) (m : NotificationManager)
    (updates : List Update) :
    ((enrichUpdates uuids m updates).1, (enrichUpdates uuids m updates).2.flatMap (·.values)) =
      Machine.exec enrichStep m (Machine.timed uuids
        (updates.flatMap fun u => u.values.map (decide (u.source.type = "Plugin"), ·))) := by
  induction updates generalizing uuids m with
  | nil => rfl
  | cons u updates ih =>
    have hv := enrichValues_exec (decide (u.source.type = "Plugin")) uuids m u.values
    rw [List.flatMap_cons, Machine.timed_append, Machine.exec_append, ← hv, List.length_map, ← ih]
    rfl

theorem enrichDelta_manager (uuids : Nat → String) (m : NotificationManager) (delta : Delta) :
    (enrichDelta uuids m delta).1 =
      Machine.run enrichStep m (Machine.timed uuids (flagged delta)) :=
  congrArg Prod.fst (enrichUpdates_exec uuids m delta.updates)

theorem enrichDelta_pathValues (uuids : Nat → String) (m : NotificationManager)
    (delta : Delta) :
    (enrichDelta uuids m delta).2.pathValues =
      (Machine.exec enrichStep m (Machine.timed uuids (flagged delta))).2 :=
  congrArg Prod.snd (enrichUpdates_exec uuids m delta.updates)

@[simp] theorem enrichDelta_context (uuids : Nat → String) (m : NotificationManager)
    (delta : Delta) : (enrichDelta uuids m delta).2.context = delta.context := rfl

end NotificationManager
end SignalK

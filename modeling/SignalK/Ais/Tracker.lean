import SignalK.Ais.Cpa
import SignalK.Store.Subscription
import SignalK.Types.Delta

/-! The tracker of AIS targets: their life cycle and what it caches of them. Thresholds
are in whole seconds, instants in nanoseconds. -/
namespace SignalK

inductive TargetClass where
  | vessel
  | aton
  | base
  | sar
  deriving DecidableEq

/-- The class of a target by the prefix of its MMSI. -/
def classifyMmsi (mmsi : String) : TargetClass :=
  if Text.startsWith mmsi "97" then .aton
  else if Text.startsWith mmsi "00" then .base
  else if Text.startsWith mmsi "111" then .sar
  else .vessel

structure ThresholdOverrides where
  confirmCount : Option UInt32
  confirmWindowSecs : Option UInt64
  lostAfterSecs : Option UInt64
  removeAfterSecs : Option UInt64

structure ClassThresholds where
  confirmCount : UInt32
  confirmWindow : UInt64
  lostAfter : UInt64
  removeAfter : UInt64
  deriving DecidableEq

namespace ClassThresholds

def forClass : TargetClass → ClassThresholds
  | .vessel => ⟨2, 180, 360, 540⟩
  | .aton => ⟨1, 180, 900, 3600⟩
  | .base => ⟨1, 10, 30, 180⟩
  | .sar => ⟨1, 10, 30, 180⟩

def forClassWithOverrides (cls : TargetClass) (overrides : Option ThresholdOverrides) :
    ClassThresholds :=
  match overrides with
  | none => forClass cls
  | some o =>
    { confirmCount := o.confirmCount.getD (forClass cls).confirmCount
      confirmWindow := o.confirmWindowSecs.getD (forClass cls).confirmWindow
      lostAfter := o.lostAfterSecs.getD (forClass cls).lostAfter
      removeAfter := o.removeAfterSecs.getD (forClass cls).removeAfter }

end ClassThresholds

inductive TargetStatus where
  | acquiring
  | tracking
  | lost
  deriving DecidableEq

def TargetStatus.asStr : TargetStatus → String
  | acquiring => "acquiring"
  | tracking => "tracking"
  | lost => "lost"

structure StatusTransition where
  mmsi : String
  context : String
  oldStatus : TargetStatus
  newStatus : TargetStatus
  deriving DecidableEq

/-- `Duration::from_secs`, in nanoseconds. -/
def nanos (secs : UInt64) : Nat := secs.toNat * 1000000000

/-- `now.checked_sub(..).unwrap_or(now)`. The seconds of an instant are a signed 64-bit
number, so only a window of more than 2^63 seconds can underflow; all readings are
positive, so a start before zero is as good as zero. -/
def windowStart (now : Instant) (secs : UInt64) : Instant :=
  if now + nanos 0x8000000000000000 < nanos secs then now else now - nanos secs

structure TrackedTarget where
  mmsi : String
  context : String
  cls : TargetClass
  status : TargetStatus
  thresholds : ClassThresholds
  firstSeen : Instant
  lastSeen : Instant
  messageCount : UInt32
  recentMessages : List Instant
  name : Option String
  callsign : Option String
  position : Option (ℚ × ℚ)
  sog : Option ℚ
  cog : Option ℚ
  heading : Option ℚ
  lastCpaM : Option F64
  lastTcpaS : Option F64
  cpaAlarmActive : Bool
  deriving DecidableEq

namespace TrackedTarget

def new (mmsi context : String) (now : Instant) (overrides : Option ThresholdOverrides) :
    TrackedTarget where
  mmsi := mmsi
  context := context
  cls := classifyMmsi mmsi
  status := .acquiring
  thresholds := ClassThresholds.forClassWithOverrides (classifyMmsi mmsi) overrides
  firstSeen := now
  lastSeen := now
  messageCount := 0
  recentMessages := []
  name := none
  callsign := none
  position := none
  sog := none
  cog := none
  heading := none
  lastCpaM := none
  lastTcpaS := none
  cpaAlarmActive := false

def transition (t : TrackedTarget) (newStatus : TargetStatus) : StatusTransition where
  mmsi := t.mmsi
  context := t.context
  oldStatus := t.status
  newStatus := newStatus

/-- A message, with the transition that it causes. -/
def recordMessage (t : TrackedTarget) (now : Instant) :
    TrackedTarget × Option StatusTransition :=
  let start := windowStart now t.thresholds.confirmWindow
  let recent := (t.recentMessages ++ [now]).filter fun i => decide (start ≤ i)
  let seen :=
    { t with lastSeen := now, messageCount := t.messageCount + 1, recentMessages := recent }
  match t.status with
  | .acquiring =>
    if t.thresholds.confirmCount.toNat ≤ recent.length then
      ({ seen with status := .tracking }, some (t.transition .tracking))
    else (seen, none)
  | .lost =>
    ({ seen with status := .tracking, recentMessages := [now] }, some (t.transition .tracking))
  | .tracking => (seen, none)

/-- One value of a delta. -/
def updateFromValue (t : TrackedTarget) (pv : PathValue) : TrackedTarget :=
  if pv.path = "name" then { t with name := pv.value.asStr }
  else if pv.path = "communication.callsignVhf" then { t with callsign := pv.value.asStr }
  else if pv.path = "navigation.position" then
    match (pv.value.get "latitude").bind Json.asF64, (pv.value.get "longitude").bind Json.asF64 with
    | some lat, some lon => { t with position := some (lat, lon) }
    | _, _ => t
  else if pv.path = "navigation.speedOverGround" then { t with sog := pv.value.asF64 }
  else if pv.path = "navigation.courseOverGroundTrue" then { t with cog := pv.value.asF64 }
  else if pv.path = "navigation.headingTrue" then { t with heading := pv.value.asF64 }
  else t

def updateFromValues (t : TrackedTarget) (values : List PathValue) : TrackedTarget :=
  values.foldl updateFromValue t

/-- The addition of two thresholds overflows, and the tick panics. -/
def overflows (t : TrackedTarget) : Bool :=
  decide (t.status = .lost ∧ 2 ^ 64 ≤ t.thresholds.lostAfter.toNat + t.thresholds.removeAfter.toNat)

/-- A tick removes the target: one that was not confirmed in time, or lost for too long. -/
def stale (t : TrackedTarget) (now : Instant) : Bool :=
  match t.status with
  | .acquiring => decide (nanos t.thresholds.confirmWindow < now - t.lastSeen)
  | .tracking => false
  | .lost =>
    decide (nanos t.thresholds.lostAfter + nanos t.thresholds.removeAfter <
      now - t.lastSeen)

/-- A tick finds that the target has gone silent. -/
def silent (t : TrackedTarget) (now : Instant) : Bool :=
  decide (t.status = .tracking ∧ nanos t.thresholds.lostAfter < now - t.lastSeen)

def aged (t : TrackedTarget) (now : Instant) : TrackedTarget :=
  if t.silent now then { t with status := .lost } else t

end TrackedTarget

structure TargetCpaSnapshot where
  mmsi : String
  context : String
  motion : Motion
  cpaAlarmActive : Bool
  deriving DecidableEq

/-- What the CPA computation takes of a target that is tracked and has a position. -/
def TrackedTarget.cpaSnapshot (t : TrackedTarget) : Option TargetCpaSnapshot :=
  if t.status = .tracking then
    t.position.map fun position =>
      { mmsi := t.mmsi
        context := t.context
        motion := {
          lat := .finite position.1
          lon := .finite position.2
          sogMs := .finite (t.sog.getD 0)
          cogRad := .finite (t.cog.getD 0) }
        cpaAlarmActive := t.cpaAlarmActive }
  else none

structure TrackerConfig where
  vessel : Option ThresholdOverrides
  aton : Option ThresholdOverrides
  base : Option ThresholdOverrides
  sar : Option ThresholdOverrides

def TrackerConfig.overridesFor (config : TrackerConfig) : TargetClass → Option ThresholdOverrides
  | .vessel => config.vessel
  | .aton => config.aton
  | .base => config.base
  | .sar => config.sar

structure AisTracker where
  targets : HashMap String TrackedTarget
  selfUri : String
  config : TrackerConfig

namespace AisTracker

def withConfig (selfUri : String) (config : TrackerConfig) : AisTracker where
  targets := ∅
  selfUri := selfUri
  config := config

def mmsiPrefix : String := "vessels.urn:mrn:imo:mmsi:"

def parseMmsi (context : String) : Option String :=
  Text.stripPrefix context mmsiPrefix

/-- The target that a context names, unless it is the own vessel. -/
def targetOf (tr : AisTracker) (context : String) : Option String :=
  if Text.endsWith context tr.selfUri || decide (context = "vessels.self") then none
  else parseMmsi context

/-- What a message of a target starts from. -/
def entry (tr : AisTracker) (mmsi context : String) (now : Instant) : TrackedTarget :=
  (tr.targets.lookup mmsi).getD
    (TrackedTarget.new mmsi context now (tr.config.overridesFor (classifyMmsi mmsi)))

def updateTarget (tr : AisTracker) (context : String) (values : List PathValue) (now : Instant) :
    AisTracker × Option StatusTransition :=
  match tr.targetOf context with
  | none => (tr, none)
  | some mmsi =>
    let recorded := ((tr.entry mmsi context now).updateFromValues values).recordMessage now
    ({ tr with targets := tr.targets.insert mmsi recorded.1 }, recorded.2)

/-- The tick, unless it panics. Its transitions come in the order of the map. -/
def tick (tr : AisTracker) (now : Instant) :
    Option (AisTracker × Multiset StatusTransition) :=
  if ∃ mmsi ∈ tr.targets.keys, (tr.targets.lookup mmsi).any TrackedTarget.overflows then none
  else
    some ({ tr with
        targets := (tr.targets.retain fun _ t => !t.stale now).mapValues fun _ t => t.aged now },
      tr.targets.entries.filterMap fun e =>
        if e.2.silent now then some (e.2.transition .lost) else none)

/-- The confirmed targets whose position is known, in the order of the map. -/
def targetsForCpa (order : List (String × TrackedTarget)) : List TargetCpaSnapshot :=
  order.filterMap fun e => e.2.cpaSnapshot

def updateTargetCpa (tr : AisTracker) (mmsi : String) (result : CpaResult) (alarmActive : Bool) :
    AisTracker :=
  match tr.targets.lookup mmsi with
  | none => tr
  | some t =>
    { tr with
      targets := tr.targets.insert mmsi { t with
        lastCpaM := some result.cpaM
        lastTcpaS := some result.tcpaS
        cpaAlarmActive := alarmActive } }

end AisTracker
end SignalK

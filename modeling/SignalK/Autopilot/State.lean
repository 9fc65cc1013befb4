import SignalK.Autopilot.Pd
import SignalK.Course.Resolve
import SignalK.Store.Subscription

/-! The state that the control loop, the sensor callback and the provider share, the
configuration, and the calls of the provider. -/
namespace SignalK

inductive AutopilotMode where
  | compass
  | wind
  | route
  deriving DecidableEq

namespace AutopilotMode

def asStr : AutopilotMode → String
  | compass => "compass"
  | wind => "wind"
  | route => "route"

/-- The path of the primary sensor. -/
def sensorPath : AutopilotMode → String
  | compass => "navigation.headingMagnetic"
  | wind => "environment.wind.angleApparent"
  | route => "navigation.course.calcValues.bearingTrackTrue"

def targetPath : AutopilotMode → String
  | compass => "steering.autopilot.target.headingMagnetic"
  | wind => "steering.autopilot.target.windAngleApparent"
  | route => "steering.autopilot.target.headingTrue"

def parse (s : String) : Except String AutopilotMode :=
  if s = "compass" then .ok compass
  else if s = "wind" then .ok wind
  else if s = "route" then .ok route
  else .error ("unknown autopilot mode: " ++ s)

theorem parse_asStr (mode : AutopilotMode) : parse mode.asStr = .ok mode := by
  cases mode <;> simp [parse, asStr]

end AutopilotMode

/-- Whole seconds, `as_secs()` of a time in nanoseconds. -/
def wholeSecs (nanoseconds : Nat) : Nat := nanoseconds / 1000000000

def secsF64 (nanoseconds : Nat) : ℚ := (nanoseconds : ℚ) / 1000000000

structure AutopilotState where
  enabled : Bool
  mode : AutopilotMode
  targetRad : Option ℚ
  dodgeOffsetRad : Option ℚ
  lastRudderRad : ℚ
  lastErrorRad : ℚ
  lastTickAt : Option Instant
  sensorLastSeen : HashMap String Instant
  sensorValues : HashMap String ℚ
  actualRudderRad : Option ℚ
  actualRudderLastSeen : Option Instant

namespace AutopilotState

def new (mode : AutopilotMode) : AutopilotState where
  enabled := false
  mode := mode
  targetRad := none
  dodgeOffsetRad := none
  lastRudderRad := 0
  lastErrorRad := 0
  lastTickAt := none
  sensorLastSeen := ∅
  sensorValues := ∅
  actualRudderRad := none
  actualRudderLastSeen := none

def updateSensor (st : AutopilotState) (path : String) (value : ℚ) (now : Instant) :
    AutopilotState :=
  { st with
    sensorValues := st.sensorValues.insert path value
    sensorLastSeen := st.sensorLastSeen.insert path now }

def currentSensor (st : AutopilotState) : Option ℚ := st.sensorValues.lookup st.mode.sensorPath

def sensorTimedOut (st : AutopilotState) (now : Instant) (timeoutSecs : Nat) : Bool :=
  match st.sensorLastSeen.lookup st.mode.sensorPath with
  | some last => decide (timeoutSecs < wholeSecs (now - last))
  | none => true

/-- What the subscription callback does with one value; the plugin's own rudder commands
come back to it and are no feedback. -/
def receiveValue (st : AutopilotState) (now : Instant) (source : Source) (pv : PathValue) :
    AutopilotState :=
  match pv.value.asF64 with
  | none => st
  | some v =>
    if pv.path = "steering.rudderAngle" then
      if source.type = "Plugin" ∧ source.label = "autopilot" then st
      else
        { st with
          actualRudderRad := some v
          actualRudderLastSeen := some now }
    else st.updateSensor pv.path v now

/-- The subscription callback, under one write lock. -/
def receive (st : AutopilotState) (now : Instant) (delta : Delta) : AutopilotState :=
  delta.updates.foldl
    (fun st update => update.values.foldl (fun st pv => st.receiveValue now update.source pv) st) st

end AutopilotState

structure AutopilotConfig where
  initialMode : String
  gainP : ℚ
  gainI : ℚ
  gainD : ℚ
  integralLimit : ℚ
  deadZoneRad : ℚ
  maxRudderRad : ℚ
  speedNominalMps : ℚ
  heelGain : ℚ
  maxRudderRateRadPerSec : ℚ
  controlRateHz : ℚ
  outputRateHz : ℚ
  sensorTimeoutSecs : Nat
  recoveryThresholdRad : ℚ
  recoveryMaxTicks : Nat
  recoveryGainFactor : ℚ
  gustGain : ℚ
  gustThresholdMpsPerSec : ℚ
  routeLookaheadM : ℚ
  windFilterAlpha : ℚ
  rudderFeedbackThresholdRad : ℚ
  rudderFeedbackTimeoutTicks : Nat
  maxHeadingRateRadPerSec : ℚ
  maxYawRateRadPerSec : ℚ
  headingGlitchMaxCount : Nat
  dtermQualityHalfLifeSecs : ℚ

namespace AutopilotConfig

def default [AngleMath] : AutopilotConfig where
  initialMode := "compass"
  gainP := 1
  gainI := 5 / 100
  gainD := 3 / 10
  integralLimit := 1 / 2
  deadZoneRad := 1745 / 100000
  maxRudderRad := AngleMath.pi / 6
  speedNominalMps := 5 / 2
  heelGain := -1 / 2
  maxRudderRateRadPerSec := 9 / 100
  controlRateHz := 10
  outputRateHz := 1
  sensorTimeoutSecs := 10
  recoveryThresholdRad := 35 / 100
  recoveryMaxTicks := 15
  recoveryGainFactor := 2
  gustGain := -2 / 100
  gustThresholdMpsPerSec := 3
  routeLookaheadM := 100
  windFilterAlpha := 15 / 100
  rudderFeedbackThresholdRad := 87 / 1000
  rudderFeedbackTimeoutTicks := 30
  maxHeadingRateRadPerSec := 3 / 2
  maxYawRateRadPerSec := 8 / 10
  headingGlitchMaxCount := 3
  dtermQualityHalfLifeSecs := 1 / 2

def pidConfig (cfg : AutopilotConfig) : PidConfig where
  gainP := cfg.gainP
  gainI := cfg.gainI
  gainD := cfg.gainD
  deadZoneRad := cfg.deadZoneRad
  maxRudderRad := cfg.maxRudderRad

/-- The mode that `start` begins with. -/
def startMode (cfg : AutopilotConfig) : AutopilotMode :=
  match AutopilotMode.parse cfg.initialMode with
  | .ok mode => mode
  | .error _ => .compass

end AutopilotConfig

inductive TackDirection where
  | port
  | starboard
  deriving DecidableEq

/-- The calls that change the shared state. -/
inductive ProviderCall where
  | setState (state : String)
  | setMode (mode : String)
  | setTarget (valueRad : ℚ)
  | adjustTarget (deltaRad : ℚ)
  | engage
  | disengage
  | tack (direction : TackDirection)
  | gybe (direction : TackDirection)
  | dodge (offsetRad : Option ℚ)
  /-- with what the store holds at the bearing of the track -/
  | courseCurrentPoint (stored : Option Json)
  | courseNextPoint

namespace AutopilotState

/-- `tack` and `gybe`, which differ in their messages only. -/
def turn (st : AutopilotState) (name : String) (direction : TackDirection) :
    Except PluginError AutopilotState :=
  if st.mode ≠ .wind then .error (.badRequest (name ++ " requires wind mode"))
  else
    let current := st.targetRad.getD 0
    let magnitude := max |current| (1 / 10)
    let newTarget :=
      match direction with
      | .port => -magnitude
      | .starboard => magnitude
    if |newTarget - current| < 1 / 100 then .error (.runtime ("already on that " ++ name))
    else
      .ok { st with
        targetRad := some newTarget
        lastErrorRad := 0 }

def enable (st : AutopilotState) : AutopilotState := { st with enabled := true }

def disable (st : AutopilotState) : AutopilotState :=
  { st with
    enabled := false
    lastTickAt := none }

/-- A new mode: the error and the tick of the old one are forgotten. -/
def switch (st : AutopilotState) (mode : AutopilotMode) : AutopilotState :=
  { st with
    mode := mode
    lastErrorRad := 0
    lastTickAt := none }

/-- Each call does its work under one write lock. -/
def call [AngleMath] (st : AutopilotState) : ProviderCall → Except PluginError AutopilotState
  | .setState state =>
    if state = "enabled" then .ok st.enable
    else if state = "disabled" then .ok st.disable
    else .error (.runtime ("unknown autopilot state: " ++ state))
  | .setMode mode =>
    match AutopilotMode.parse mode with
    | .ok m => .ok (st.switch m)
    | .error e => .error (.notFound e)
  | .setTarget value => .ok { st with targetRad := some value }
  | .adjustTarget delta =>
    .ok { st with targetRad := some (Pd.normalizeAngle (st.targetRad.getD 0 + delta)) }
  | .engage => .ok st.enable
  | .disengage => .ok st.disable
  | .tack direction => st.turn "tack" direction
  | .gybe direction => st.turn "gybe" direction
  | .dodge offset => .ok { st with dodgeOffsetRad := offset }
  | .courseCurrentPoint stored =>
    match stored.bind Json.asF64 with
    | none => .error (.badRequest "no active course — set a destination first")
    | some bearing => .ok { (st.switch .route).enable with targetRad := some bearing }
  | .courseNextPoint =>
    if st.mode ≠ .route then .ok (st.switch .route).enable else .ok st.enable

end AutopilotState

namespace ProviderCall

/-- `disengage` or `set_state("disabled")`. -/
def disengages : ProviderCall → Bool
  | .setState state => decide (state = "disabled")
  | .disengage => true
  | _ => false

def engages : ProviderCall → Bool
  | .setState state => decide (state = "enabled")
  | .engage => true
  | .courseCurrentPoint stored => (stored.bind Json.asF64).isSome
  | .courseNextPoint => true
  | _ => false

end ProviderCall

end SignalK

import SignalK.Autopilot.State
import SignalK.Lib.Machine

/-! The control loop in its surroundings. A tick reads a snapshot, publishes the state,
computes, writes and emits, each of these a step of its own; sensor deltas, calls of the
provider and time come in between. -/
namespace SignalK

/-- What the plugin hands to its context: the values of a delta of its own, or a status. -/
inductive AutopilotOutput where
  | message (values : List PathValue)
  | status (text : String)
  deriving DecidableEq

namespace AutopilotOutput

def emitRudder (rudderRad : ℚ) : AutopilotOutput :=
  .message [⟨"steering.rudderAngle", .ofF64 rudderRad⟩]

def emitAutopilotState (enabled : Bool) (mode : AutopilotMode) (targetRad : Option ℚ) :
    AutopilotOutput :=
  let isWindMode := decide (mode = .wind)
  .message
    ([⟨"steering.autopilot.state", .string (if enabled then "enabled" else "disabled")⟩,
      ⟨"steering.autopilot.mode", .string mode.asStr⟩,
      ⟨"steering.autopilot.engaged", .bool enabled⟩] ++
    (targetRad.map fun target => ⟨mode.targetPath, .ofF64 target⟩).toList ++
    [⟨"steering.autopilot.actions", .ofFields [("dodge", .bool enabled),
      ("tack", .bool (enabled && isWindMode)), ("gybe", .bool (enabled && isWindMode))]⟩])

def emitNotification (path state text : String) : AutopilotOutput :=
  .message [⟨"notifications." ++ path, .ofFields [("state", .string state),
    ("message", .string text), ("method", .array [.string "visual"])]⟩]

/-- The rudder angles that an output commands. -/
def rudders : AutopilotOutput → List Json
  | .message values =>
    (values.filter fun pv => decide (pv.path = "steering.rudderAngle")).map (·.value)
  | .status _ => []

end AutopilotOutput

open AutopilotOutput

/-- Why a tick disengages. -/
inductive AutopilotAlarm where
  | dataTimeout (mode : AutopilotMode)
  | headingFailure
  deriving DecidableEq

def AutopilotAlarm.outputs : AutopilotAlarm → List AutopilotOutput
  | .dataTimeout mode =>
    [emitRudder 0,
      emitNotification "steering.autopilot.dataTimeout" "alarm"
        ("Autopilot sensor timeout (" ++ mode.asStr ++ " mode)"),
      .status "Sensor timeout — disengaged"]
  | .headingFailure =>
    [emitRudder 0,
      emitNotification "steering.autopilot.heading" "alarm"
        "Heading sensor glitch — autopilot disengaged",
      .status "Heading sensor failure — disengaged"]

/-- What follows a change of the rudder feedback alarm. -/
def feedbackOutputs [AngleMath] (change : Option Bool) (rudder : ℚ) (actualRudder : Option ℚ) :
    List AutopilotOutput :=
  match change with
  | some true =>
    [emitNotification "steering.autopilot.rudderFeedbackFailure" "alarm"
        ("Rudder not responding: commanded " ++ AngleMath.degrees rudder ++ "°, actual " ++
          AngleMath.degrees (actualRudder.getD 0) ++ "°"),
      .status "Rudder feedback failure — check steering"]
  | some false =>
    [emitNotification "steering.autopilot.rudderFeedbackFailure" "normal"
        "Rudder feedback restored",
      .status "Active"]
  | none => []

structure Snapshot where
  enabled : Bool
  mode : AutopilotMode
  target : Option ℚ
  dodge : Option ℚ
  primarySensor : Option ℚ
  timedOut : Bool
  prevError : ℚ
  lastTick : Option Instant
  lastRudder : ℚ
  heading : Option ℚ
  xte : Option ℚ
  yawRate : Option ℚ
  speed : Option ℚ
  heel : Option ℚ
  windSpeed : Option ℚ
  actualRudder : Option ℚ
  headingAgeSecs : Option ℚ

def Snapshot.read (cfg : AutopilotConfig) (st : AutopilotState) (now : Instant) : Snapshot where
  enabled := st.enabled
  mode := st.mode
  target := st.targetRad
  dodge := st.dodgeOffsetRad
  primarySensor := st.currentSensor
  timedOut := st.sensorTimedOut now cfg.sensorTimeoutSecs
  prevError := st.lastErrorRad
  lastTick := st.lastTickAt
  lastRudder := st.lastRudderRad
  heading :=
    (st.sensorValues.lookup "navigation.headingMagnetic").or
      (st.sensorValues.lookup "navigation.headingTrue")
  xte := st.sensorValues.lookup "navigation.crossTrackError"
  yawRate := st.sensorValues.lookup "navigation.rateOfTurn"
  speed :=
    (st.sensorValues.lookup "navigation.speedThroughWater").or
      (st.sensorValues.lookup "navigation.speedOverGround")
  heel := st.sensorValues.lookup "navigation.attitude.roll"
  windSpeed := st.sensorValues.lookup "environment.wind.speedApparent"
  actualRudder := st.actualRudderRad
  headingAgeSecs :=
    ((st.sensorLastSeen.lookup "navigation.headingMagnetic").or
      (st.sensorLastSeen.lookup "navigation.headingTrue")).map fun t => secsF64 (now - t)

/-- The variables of the control task. -/
structure ControlLoop where
  pid : PidController
  windFilter : CircularFilter
  recovery : RecoveryState
  gustDetector : RateDetector
  rudderFeedback : RudderFeedbackMonitor
  headingPlausibility : HeadingPlausibility
  prevMode : Option AutopilotMode
  tickCounter : Nat

/-- Where a tick leads once it has computed. -/
inductive TickOutcome where
  | skip
  | disengage (alarm : AutopilotAlarm)
  | steer (rudder error : ℚ) (now : Instant) (outputs : List AutopilotOutput)
  deriving DecidableEq

/-- The rudder that is stored, and emitted at the output rate. -/
def TickOutcome.command : TickOutcome → Option ℚ
  | skip => none
  | disengage _ => some 0
  | steer rudder _ _ _ => some rudder

/-- `1.0 / control_rate_hz`, infinite for a rate of zero, before the first tick. -/
def tickDt (cfg : AutopilotConfig) (lastTick : Option Instant) (now : Instant) : Option ℚ :=
  match lastTick with
  | some t => some (max (secsF64 (now - t)) (1 / 1000))
  | none => if cfg.controlRateHz = 0 then none else some (1 / cfg.controlRateHz)

namespace ControlLoop

/-- The filters panic at a coefficient outside of (0, 1]. -/
def new (cfg : AutopilotConfig) : Option ControlLoop :=
  (CircularFilter.new cfg.windFilterAlpha).bind fun windFilter =>
    (RateDetector.new (1 / 2)).map fun gustDetector =>
      { pid := .new cfg.integralLimit
        windFilter := windFilter
        recovery := .new
        gustDetector := gustDetector
        rudderFeedback := .new
        headingPlausibility := .new cfg.headingGlitchMaxCount
        prevMode := none
        tickCounter := 0 }

/-- `output_every_n`. -/
def outputEveryN (cfg : AutopilotConfig) : Nat :=
  let ratio := cfg.controlRateHz / max cfg.outputRateHz (1 / 10)
  -- half away from zero, and at least one
  ⌊max ratio 1 + 1 / 2⌋₊

/-- A change of the mode resets everything that belongs to the old one. -/
def onMode (l : ControlLoop) (mode : AutopilotMode) : ControlLoop :=
  if l.prevMode = some mode then l
  else
    { l with
      pid := l.pid.reset
      windFilter := l.windFilter.reset
      recovery := l.recovery.reset
      gustDetector := l.gustDetector.reset
      rudderFeedback := l.rudderFeedback.reset
      headingPlausibility := l.headingPlausibility.reset
      prevMode := some mode }

/-- The resets of a tick that disengages. -/
def dropOut (l : ControlLoop) : ControlLoop :=
  { l with
    pid := l.pid.reset
    recovery := l.recovery.reset
    rudderFeedback := l.rudderFeedback.reset
    headingPlausibility := l.headingPlausibility.reset }

variable [AngleMath]

/-- The heading to steer by; nothing when its sensor has failed. -/
def checkHeading (l : ControlLoop) (cfg : AutopilotConfig) (heading dt : Option ℚ) :
    ControlLoop × Option (Option ℚ) :=
  match heading with
  | none => (l, some none)
  | some h =>
    let checked := l.headingPlausibility.check h cfg.maxHeadingRateRadPerSec dt
    ({ l with headingPlausibility := checked.1 },
      match checked.2 with
      | .ok v => some (some v)
      | .glitch prev => some (some prev)
      | .sensorFailure => none)

/-- Gains for the speed and for the age of the heading. -/
def gains (cfg : AutopilotConfig) (s : Snapshot) : PidConfig :=
  let scaled :=
    match s.speed with
    | some speed => Pd.scaleGains cfg.pidConfig speed cfg.speedNominalMps
    | none => cfg.pidConfig
  if 0 < cfg.dtermQualityHalfLifeSecs then
    { scaled with
      gainD := scaled.gainD * Pd.sensorQuality s.headingAgeSecs cfg.dtermQualityHalfLifeSecs }
  else scaled

def recover (l : ControlLoop) (cfg : AutopilotConfig) (s : Snapshot) (heading : Option ℚ)
    (effectiveTarget : ℚ) : ControlLoop :=
  let current :=
    match s.mode with
    | .compass => heading
    | _ => s.primarySensor
  match current with
  | some c =>
    { l with
      recovery := l.recovery.update (Pd.normalizeAngle (effectiveTarget - c))
        cfg.recoveryThresholdRad cfg.recoveryMaxTicks }
  | none => l

/-- The new controller of a law, in the loop. -/
def withLaw (l : ControlLoop) (law : Law) : Option (ControlLoop × Option (ℚ × ℚ)) :=
  law.map fun out => ({ l with pid := out.1 }, some out.2)

/-- What the mode makes of the sensors: the rudder and the error, or nothing where the
tick is left for want of a sensor. -/
def dispatch (l : ControlLoop) (cfg : AutopilotConfig) (s : Snapshot) (heading : Option ℚ)
    (effectiveTarget : ℚ) (dt yawRate : Option ℚ) (pidCfg : PidConfig) :
    Option (ControlLoop × Option (ℚ × ℚ)) :=
  match s.mode with
  | .compass =>
    match heading with
    | none => some (l, none)
    | some current =>
      l.withLaw (Heading.compute current effectiveTarget s.prevError dt yawRate l.pid pidCfg)
  | .wind =>
    match s.primarySensor with
    | none => some (l, none)
    | some raw =>
      let filtered := l.windFilter.update raw
      let error := Pd.normalizeAngle (effectiveTarget - filtered.2)
      withLaw { l with windFilter := filtered.1 }
        ((l.pid.compute error (dError error s.prevError dt yawRate) dt pidCfg).map fun out =>
          (out.1, out.2, error))
  | .route =>
    match heading with
    | none => some (l, none)
    | some currentHeading =>
      match s.primarySensor with
      | none => some (l, none)
      | some btw =>
        l.withLaw
          (Route.compute
            { currentHeading := currentHeading
              btw := btw
              xteM := s.xte.getD 0
              lookaheadM := cfg.routeLookaheadM
              prevError := s.prevError
              dt := dt
              yawRate := yawRate } l.pid pidCfg)

def heelCompensation (cfg : AutopilotConfig) (heel : Option ℚ) : ℚ :=
  match heel with
  | some roll => if cfg.heelGain ≠ 0 then cfg.heelGain * roll else 0
  | none => 0

def gustCompensation (l : ControlLoop) (cfg : AutopilotConfig) (windSpeed dt : Option ℚ) :
    ControlLoop × ℚ :=
  match windSpeed with
  | some ws =>
    if cfg.gustGain ≠ 0 then
      let out := l.gustDetector.update ws dt
      ({ l with gustDetector := out.1 },
        if cfg.gustThresholdMpsPerSec < |out.2| then cfg.gustGain * out.2 else 0)
    else (l, 0)
  | none => (l, 0)

/-- From the rudder of the mode to the one that is commanded. -/
def finish (l : ControlLoop) (cfg : AutopilotConfig) (s : Snapshot) (dt : Option ℚ)
    (shouldEmit : Bool) (now : Instant) (rawRudder newError : ℚ) :
    Option (ControlLoop × TickOutcome) :=
  let gust := l.gustCompensation cfg s.windSpeed dt
  (Clamp.clamp (rawRudder + heelCompensation cfg s.heel + gust.2) (-cfg.maxRudderRad)
    cfg.maxRudderRad).bind fun rudderWithFf =>
  (Pd.rateLimit s.lastRudder rudderWithFf cfg.maxRudderRateRadPerSec dt).map fun rudder =>
    let feedback := gust.1.rudderFeedback.update rudder s.actualRudder
      cfg.rudderFeedbackThresholdRad cfg.rudderFeedbackTimeoutTicks
    ({ gust.1 with rudderFeedback := feedback.1 },
      .steer rudder newError now
        ((if shouldEmit then [emitRudder rudder] else []) ++
          feedbackOutputs feedback.2 rudder s.actualRudder))

/-- A tick from the plausible heading on. -/
def steer (l : ControlLoop) (cfg : AutopilotConfig) (s : Snapshot) (heading : Option ℚ)
    (effectiveTarget : ℚ) (dt : Option ℚ) (shouldEmit : Bool) (now : Instant) :
    Option (ControlLoop × TickOutcome) :=
  let yawRate := Pd.validateYawRate s.yawRate cfg.maxYawRateRadPerSec
  let l := l.recover cfg s heading effectiveTarget
  let pidCfg := l.recovery.apply (gains cfg s) cfg.recoveryGainFactor
  (l.dispatch cfg s heading effectiveTarget dt yawRate pidCfg).bind fun out =>
    match out.2 with
    | none => some (out.1, .skip)
    | some (rawRudder, newError) => out.1.finish cfg s dt shouldEmit now rawRudder newError

/-- What an engaged tick computes from its snapshot; nothing when it panics. -/
def control (l : ControlLoop) (cfg : AutopilotConfig) (s : Snapshot) (shouldEmit : Bool)
    (now : Instant) : Option (ControlLoop × TickOutcome) :=
  let l := l.onMode s.mode
  if s.timedOut then some (l.dropOut, .disengage (.dataTimeout s.mode))
  else
    match s.target with
    | none => some (l, .skip)
    | some target =>
      let dt := tickDt cfg s.lastTick now
      let checked := l.checkHeading cfg s.heading dt
      match checked.2 with
      | none => some (checked.1.dropOut, .disengage .headingFailure)
      | some heading =>
        checked.1.steer cfg s heading (target + s.dodge.getD 0) dt shouldEmit now

end ControlLoop

/-- Where the control task is in a tick. The state it has read its snapshot from and the
time at which it did are kept. -/
inductive ControlTask where
  | asleep
  | looking (st : AutopilotState) (takenAt : Instant) (shouldEmit : Bool)
  | thinking (st : AutopilotState) (takenAt : Instant) (shouldEmit : Bool)
  | writing (outcome : TickOutcome)
  | emitting (left : List AutopilotOutput)

/-- What the provider last asked for: to rest, to go on after a rest with no tick since,
or neither. -/
inductive Engagement where
  | ordinary
  | resting
  | resumed
  deriving DecidableEq

def Engagement.after (engagement : Engagement) (c : ProviderCall) : Engagement :=
  if c.disengages then .resting
  else if c.engages ∧ engagement = .resting then .resumed
  else engagement

structure AutopilotSystem where
  config : AutopilotConfig
  state : AutopilotState
  /-- nothing when a panic has ended the task -/
  loop : Option ControlLoop
  task : ControlTask
  now : Instant
  /-- by the calls so far (history) -/
  engagement : Engagement
  /-- the headings that were received, and when (history) -/
  headings : List (Instant × ℚ)

inductive AutopilotEvent where
  | pass (nanoseconds : Nat)
  /-- a spawned callback runs -/
  | sensors (delta : Delta)
  | call (c : ProviderCall)
  /-- the control task wakes up -/
  | wake
  /-- the tick goes on -/
  | proceed

namespace AutopilotSystem

def start (cfg : AutopilotConfig) (now : Instant) : AutopilotSystem where
  config := cfg
  state := .new cfg.startMode
  loop := ControlLoop.new cfg
  task := .asleep
  now := now
  engagement := .ordinary
  headings := []

def headingPaths : List String := ["navigation.headingMagnetic", "navigation.headingTrue"]

/-- The headings in a delta. -/
def headingsOf (delta : Delta) : List ℚ :=
  delta.pathValues.filterMap fun pv => if pv.path ∈ headingPaths then pv.value.asF64 else none

def sensors (p : AutopilotSystem) (delta : Delta) : AutopilotSystem :=
  { p with
    state := p.state.receive p.now delta
    headings := p.headings ++ (headingsOf delta).map (p.now, ·) }

/-- A call that fails leaves the state alone. -/
def call [AngleMath] (p : AutopilotSystem) (c : ProviderCall) : AutopilotSystem :=
  match p.state.call c with
  | .ok st =>
    { p with
      state := st
      engagement := p.engagement.after c }
  | .error _ => p

def wake (p : AutopilotSystem) : AutopilotSystem :=
  match p.loop, p.task with
  | some l, .asleep =>
    let counter := l.tickCounter + 1
    { p with
      loop := some { l with tickCounter := counter }
      task := .looking p.state p.now (decide (counter % ControlLoop.outputEveryN p.config = 0))
      engagement :=
        if p.state.enabled ∧ p.engagement = .resumed then .ordinary else p.engagement }
  | _, _ => p

/-- The write of a tick. -/
def write (st : AutopilotState) : TickOutcome → AutopilotState
  | .skip => st
  | .disengage _ =>
    { st with
      enabled := false
      lastRudderRad := 0
      lastTickAt := none }
  | .steer rudder error now _ =>
    { st with
      lastRudderRad := rudder
      lastErrorRad := error
      lastTickAt := some now }

/-- What is to be emitted after the write. -/
def outputs : TickOutcome → List AutopilotOutput
  | .skip => []
  | .disengage alarm => alarm.outputs
  | .steer _ _ _ outputs => outputs

/-- The task computes; a panic ends it. -/
def think [AngleMath] (p : AutopilotSystem) (l : ControlLoop) (s : Snapshot) (shouldEmit : Bool) :
    AutopilotSystem :=
  match l.control p.config s shouldEmit p.now with
  | none => { p with loop := none, task := .asleep }
  | some (l', .skip) => { p with loop := some l', task := .asleep }
  | some (l', outcome) => { p with loop := some l', task := .writing outcome }

def proceed [AngleMath] (p : AutopilotSystem) : AutopilotSystem × List AutopilotOutput :=
  match p.loop with
  | none => (p, [])
  | some l =>
    match p.task with
    | .asleep => (p, [])
    | .looking st takenAt shouldEmit =>
      ({ p with task := if st.enabled then .thinking st takenAt shouldEmit else .asleep },
        if shouldEmit then [emitAutopilotState st.enabled st.mode st.targetRad] else [])
    | .thinking st takenAt shouldEmit =>
      (p.think l (Snapshot.read p.config st takenAt) shouldEmit, [])
    | .writing outcome =>
      ({ p with
        state := write p.state outcome
        task := .emitting (outputs outcome) }, [])
    | .emitting [] => ({ p with task := .asleep }, [])
    | .emitting (output :: left) => ({ p with task := .emitting left }, [output])

def step [AngleMath] (p : AutopilotSystem) :
    AutopilotEvent → AutopilotSystem × List AutopilotOutput
  | .pass nanoseconds => ({ p with now := p.now + nanoseconds }, [])
  | .sensors delta => (p.sensors delta, [])
  | .call c => (p.call c, [])
  | .wake => (p.wake, [])
  | .proceed => p.proceed

end AutopilotSystem

end SignalK

import SignalK.Ais.Tracker
import SignalK.Plugins.Host

/-! The plugin in its surroundings: the store, the subscription that hands every
broadcast to the tracker, the emissions it has spawned and the task of its timer. -/
namespace SignalK

structure AisConfig where
  thresholds : TrackerConfig
  cpaWarnM : Option F64
  cpaAlarmM : Option F64
  tcpaMaxS : F64

/-- The alarm level of a CPA result under the configured distances. -/
def AisConfig.classify (config : AisConfig) (result : CpaResult) : Option CpaAlarm :=
  classifyCpaAlarm result.cpaM result.tcpaS config.tcpaMaxS config.cpaWarnM config.cpaAlarmM

def TargetClass.toStr : TargetClass → String
  | .vessel => "A"
  | .aton => "aton"
  | .base => "base"
  | .sar => "sar"

namespace AisStatus

def source : Source := Source.plugin "ais-status"

def spec : SubscriptionSpec := SubscriptionSpec.allVessels [⟨"**", none, none, none, none⟩]

/-- The delta that tells of a transition, with the class when tracking begins. -/
def statusDelta (transition : StatusTransition) (timestamp : DateTime) : Delta :=
  let status : PathValue := ⟨"sensors.ais.status", .string transition.newStatus.asStr⟩
  let cls := classifyMmsi ((AisTracker.parseMmsi transition.context).getD transition.mmsi)
  let values :=
    if transition.oldStatus = .acquiring ∧ transition.newStatus = .tracking then
      [status, ⟨"sensors.ais.class", .string cls.toStr⟩]
    else [status]
  Delta.withContext transition.context [⟨source, timestamp, values⟩]

/-- What the CPA tick hands over: a context and values. -/
structure Emission where
  context : String
  values : List PathValue
  deriving DecidableEq

def Emission.delta (e : Emission) (timestamp : DateTime) : Delta :=
  Delta.withContext e.context [⟨source, timestamp, e.values⟩]

def cpaEmission (context : String) (result : CpaResult) : Emission where
  context := context
  values := [⟨"navigation.closestApproach.distance", result.cpaM.toJson⟩,
    ⟨"navigation.closestApproach.timeTo", result.tcpaS.toJson⟩]

def collisionPath (mmsi : String) : String := "notifications.collision.mmsi-" ++ mmsi

def methods : CpaAlarm → List String
  | .alarm => ["visual", "sound"]
  | .warn => ["visual"]

/-- The value of a collision notification: a level that is raised, or none. -/
def notification (mmsi : String) : Option CpaAlarm → Json
  | some level => Json.ofFields [("state", .string level.asStr),
      ("method", .array ((methods level).map .string)),
      ("message", .string ("Collision risk: MMSI " ++ mmsi))]
  | none => Json.ofFields [("state", .string "normal"), ("method", .array []),
      ("message", .string "")]

def notificationEmission (mmsi : String) (level : Option CpaAlarm) : Emission where
  context := "vessels.self"
  values := [⟨collisionPath mmsi, notification mmsi level⟩]

/-- Where the task of the timer is in one round: the own vessel is read from the store
value by value, then each confirmed target is looked at, then what was found is emitted. -/
inductive Task where
  | idle
  | position
  | speed (lat lon : ℚ)
  | course (lat lon sog : ℚ)
  | snapshot (own : Motion)
  | computing (own : Motion) (left : List TargetCpaSnapshot) (deltas : List Emission)
      (changes : List (String × Option CpaAlarm))
  | emitting (left : List Emission)

def Task.isIdle : Task → Bool
  | idle => true
  | _ => false

end AisStatus

open AisStatus

structure AisSystem where
  config : AisConfig
  store : SignalKStore
  /-- nothing when a panic has poisoned its lock -/
  tracker : Option AisTracker
  /-- the last reading of the clock -/
  now : Instant
  /-- sent to the subscription and not received yet, oldest first -/
  broadcasts : List Delta
  /-- status deltas whose task has not run yet -/
  spawned : Multiset Delta
  task : Task
  /-- the instant of the last tick, or of the start (history) -/
  lastTick : Instant
  /-- when another source reported a target since it became known (history) -/
  reports : String → List Instant

/-- What a call of `handle_message` meets: the time, the delta input handlers of
the plugins and the clock of the store. -/
structure HandleEnv where
  timestamp : DateTime
  filter : Delta → Option Delta
  clock : Nat → DateTime

inductive AisEvent where
  /-- the store applies a delta of another party -/
  | ingest (clock : Nat → DateTime) (delta : Delta)
  /-- the subscription receives its next delta, some time after the last reading -/
  | deliver (later : Nat) (timestamp : DateTime)
  /-- the subscription lags behind and loses its oldest deltas -/
  | lag (n : Nat)
  /-- a spawned emission runs -/
  | emit (delta : Delta) (env : HandleEnv)
  /-- the timer fires -/
  | tick (later : Nat) (timestamp : DateTime)
  /-- the task of the timer goes on; the targets are visited in the order of the map -/
  | proceed (order : List (String × TrackedTarget)) (env : HandleEnv)

namespace AisSystem

def start (config : AisConfig) (store : SignalKStore) (now : Instant) : AisSystem where
  config := config
  store := store
  tracker := some (AisTracker.withConfig "self" config.thresholds)
  now := now
  broadcasts := []
  spawned := 0
  task := .idle
  lastTick := now
  reports _ := []

section
variable [JsonText]

def applyDelta (p : AisSystem) (clock : Nat → DateTime) (delta : Delta) : AisSystem :=
  let out := p.store.applyDelta clock delta
  { p with store := out.1, broadcasts := p.broadcasts ++ out.2 }

/-- `handle_message`: what is handed over is part of the output, dropped or not. -/
def handleMessage (p : AisSystem) (env : HandleEnv) (delta : Delta) : AisSystem × List Delta :=
  match env.filter delta with
  | none => (p, [delta])
  | some delta' => (p.applyDelta env.clock delta', [delta])

end

/-- A delta reports a target when another source has a part in it. -/
def foreign (delta : Delta) : Bool :=
  delta.updates.any fun update => decide (update.source ≠ source)

/-- The callback of the subscription. -/
def receive (p : AisSystem) (delta : Delta) (now : Instant) (timestamp : DateTime) : AisSystem :=
  match delta.context with
  | none => p
  | some context =>
    if !Text.startsWith context AisTracker.mmsiPrefix then p
    else
      match p.tracker with
      | none => p
      | some tracker =>
        let updated := tracker.updateTarget context delta.pathValues now
        { p with
          tracker := some updated.1
          now := now
          spawned := p.spawned +
            (updated.2.map fun transition => statusDelta transition timestamp).toList
          reports :=
            match tracker.targetOf context with
            | some mmsi =>
              if foreign delta then Function.update p.reports mmsi (p.reports mmsi ++ [now])
              else p.reports
            | none => p.reports }

def deliver (p : AisSystem) (now : Instant) (timestamp : DateTime) : AisSystem :=
  match p.broadcasts with
  | [] => p
  | delta :: broadcasts =>
    let p := { p with broadcasts := broadcasts }
    if spec.receives delta then p.receive delta now timestamp else p

/-- The round begins: lost targets first. A panic ends the task. -/
def tick (p : AisSystem) (now : Instant) (timestamp : DateTime) : AisSystem :=
  match p.tracker with
  | none => p
  | some tracker =>
    match tracker.tick now with
    | none => { p with tracker := none, now := now }
    | some (tracker', transitions) =>
      { p with
        tracker := some tracker'
        now := now
        lastTick := now
        spawned := p.spawned + transitions.map fun transition => statusDelta transition timestamp
        task :=
          if p.config.cpaWarnM.isSome || p.config.cpaAlarmM.isSome then .position else .idle
        reports mmsi := if (tracker'.targets.lookup mmsi).isSome then p.reports mmsi else [] }

/-- One target of the CPA tick: its result goes to the tracker, and a change between
no alarm and some alarm is to be notified. -/
def examine [FloatMath] (p : AisSystem) (own : Motion) (snap : TargetCpaSnapshot)
    (left : List TargetCpaSnapshot) (deltas : List Emission)
    (changes : List (String × Option CpaAlarm)) : AisSystem :=
  match Cpa.computeCpa own snap.motion with
  | none => { p with task := .computing own left deltas changes }
  | some result =>
    let level := p.config.classify result
    { p with
      tracker := p.tracker.map fun tracker =>
        tracker.updateTargetCpa snap.mmsi result
          (if level.isSome ≠ snap.cpaAlarmActive then level.isSome else snap.cpaAlarmActive)
      task := .computing own left (deltas ++ [cpaEmission snap.context result])
        (if level.isSome ≠ snap.cpaAlarmActive then changes ++ [(snap.mmsi, level)]
        else changes) }

variable [JsonText] [FloatMath]

/-- The next step of the task. -/
def proceed (p : AisSystem) (order : List (String × TrackedTarget)) (env : HandleEnv) :
    AisSystem × List Delta :=
  let number (path : String) : ℚ := ((p.store.getSelfPath path).bind fun v => v.value.asF64).getD 0
  match p.task with
  | .idle => (p, [])
  | .position =>
    let coordinate (key : String) : Option ℚ :=
      (p.store.getSelfPath "navigation.position").bind fun v => (v.value.get key).bind Json.asF64
    match coordinate "latitude", coordinate "longitude" with
    | some lat, some lon => ({ p with task := .speed lat lon }, [])
    | _, _ => ({ p with task := .idle }, [])
  | .speed lat lon => ({ p with task := .course lat lon (number "navigation.speedOverGround") }, [])
  | .course lat lon sog =>
    let cog := number "navigation.courseOverGroundTrue"
    ({ p with task := .snapshot ⟨.finite lat, .finite lon, .finite sog, .finite cog⟩ }, [])
  | .snapshot own =>
    match p.tracker with
    | none => ({ p with task := .idle }, [])
    | some tracker =>
      -- any other order is not one that the map can be walked in
      if HashMap.IterOrder order tracker.targets then
        ({ p with task := .computing own (AisTracker.targetsForCpa order) [] [] }, [])
      else (p, [])
  | .computing own (snap :: left) deltas changes =>
    (p.examine own snap left deltas changes, [])
  | .computing _ [] deltas changes =>
    let notifications := changes.map fun change => notificationEmission change.1 change.2
    ({ p with task := .emitting (deltas ++ notifications) }, [])
  | .emitting [] => ({ p with task := .idle }, [])
  | .emitting (e :: left) =>
    let handed := p.handleMessage env (e.delta env.timestamp)
    ({ handed.1 with task := .emitting left }, handed.2)

def step (p : AisSystem) : AisEvent → AisSystem × List Delta
  | .ingest clock delta => (p.applyDelta clock delta, [])
  | .deliver later timestamp => (p.deliver (p.now + later) timestamp, [])
  | .lag n => ({ p with broadcasts := p.broadcasts.drop n }, [])
  | .emit delta env =>
    if delta ∈ p.spawned then
      { p with spawned := p.spawned.erase delta }.handleMessage env delta
    else (p, [])
  | .tick later timestamp =>
    if p.task.isIdle then (p.tick (p.now + later) timestamp, []) else (p, [])
  | .proceed order env => p.proceed order env

end AisSystem
end SignalK

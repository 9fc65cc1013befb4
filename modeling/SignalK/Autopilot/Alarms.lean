import SignalK.Autopilot.Tick

/-! The alarms of the autopilot and what they speak of: whether the one of the rudder
stands when its monitor says so, by which feedback it is raised, and whether those of a tick
that disengaged are taken back. -/
namespace SignalK
open AutopilotOutput

def feedbackPath : String := "steering.autopilot.rudderFeedbackFailure"

def timeoutPath : String := "steering.autopilot.dataTimeout"

def headingAlarmPath : String := "steering.autopilot.heading"

namespace AutopilotOutput

/-- The state that an output gives the notification of a path, or the one before it. -/
def notified (path : String) (before : Option String) : AutopilotOutput → Option String
  | .message values =>
    values.foldl (fun state pv =>
      if pv.path = "notifications." ++ path then (pv.value.get "state").bind Json.asStr
      else state) before
  | .status _ => before

/-- The last state of a notification after some outputs. -/
def lastNotified (path : String) (before : Option String) (outputs : List AutopilotOutput) :
    Option String :=
  outputs.foldl (notified path) before

theorem lastNotified_append (path : String) (before : Option String)
    (outs more : List AutopilotOutput) :
    lastNotified path before (outs ++ more) =
      lastNotified path (lastNotified path before outs) more := List.foldl_append

/-- Of its own path, what is emitted; of another, nothing new. -/
@[simp] theorem notified_emitNotification (path : String) (before : Option String)
    (path' state text : String) :
    notified path before (emitNotification path' state text) =
      if path' = path then some state else before := by
  have hpath : "notifications." ++ path' = "notifications." ++ path ↔ path' = path :=
    ⟨fun h => String.append_right_inj _ |>.mp h, fun h => by rw [h]⟩
  have hstate : (Json.ofFields [("state", .string state), ("message", .string text),
      ("method", .array [.string "visual"])]).get "state" = some (.string state) := by
    simp [Json.get, Json.ofFields, SortedMap.get_insert]
  simp only [emitNotification, notified, List.foldl_cons, List.foldl_nil, hpath, hstate]
  rfl

/-- Values of which none is at a notification say nothing. -/
theorem notified_other {values : List PathValue}
    (h : ∀ pv ∈ values, pv.path.toList.head? = some 's') (path : String)
    (before : Option String) : notified path before (.message values) = before := by
  induction values generalizing before with
  | nil => rfl
  | cons pv values ih =>
    have hne : pv.path ≠ "notifications." ++ path := by
      intro he
      have hhead := h pv (.head _)
      rw [he] at hhead
      simp at hhead
    have hrest := ih (fun pv hpv => h pv (.tail _ hpv)) before
    simp only [notified, List.foldl_cons, if_neg hne] at hrest ⊢
    exact hrest

@[simp] theorem notified_emitRudder (path : String) (before : Option String) (rudder : ℚ) :
    notified path before (emitRudder rudder) = before :=
  notified_other (by simp) path before

@[simp] theorem notified_emitAutopilotState (path : String) (before : Option String)
    (enabled : Bool) (mode : AutopilotMode) (target : Option ℚ) :
    notified path before (emitAutopilotState enabled mode target) = before := by
  refine notified_other ?_ path before
  cases target with
  | none => simp
  | some t => cases mode <;> simp [AutopilotMode.targetPath]

@[simp] theorem notified_status (path : String) (before : Option String) (text : String) :
    notified path before (.status text) = before := rfl

end AutopilotOutput

/-- What follows a change of the monitor is heard on its own path only. -/
theorem lastNotified_feedbackOutputs [AngleMath] (path : String) (before : Option String)
    (change : Option Bool) (rudder : ℚ) (actual : Option ℚ) :
    lastNotified path before (feedbackOutputs change rudder actual) =
      if path = feedbackPath then
        change.elim before fun fired => some (if fired then "alarm" else "normal")
      else before := by
  have hpath : "steering.autopilot.rudderFeedbackFailure" = path ↔ path = feedbackPath :=
    ⟨fun h => h.symm, fun h => h.symm⟩
  match change with
  | none => simp [feedbackOutputs, lastNotified]
  | some true => simp [feedbackOutputs, lastNotified, hpath]
  | some false => simp [feedbackOutputs, lastNotified, hpath]

/-- The path of the alarm that a tick raises when it disengages. -/
def AutopilotAlarm.path : AutopilotAlarm → String
  | .dataTimeout _ => timeoutPath
  | .headingFailure => headingAlarmPath

theorem lastNotified_alarm (path : String) (before : Option String) (alarm : AutopilotAlarm) :
    lastNotified path before alarm.outputs =
      if alarm.path = path then some "alarm" else before := by
  cases alarm with
  | dataTimeout mode =>
    simp only [AutopilotAlarm.outputs, lastNotified, List.foldl_cons, List.foldl_nil,
      notified_emitRudder, notified_emitNotification, notified_status]
    rfl
  | headingFailure =>
    simp only [AutopilotAlarm.outputs, lastNotified, List.foldl_cons, List.foldl_nil,
      notified_emitRudder, notified_emitNotification, notified_status]
    rfl

namespace RudderFeedbackMonitor

/-- The change that is told is the change of the alarm. -/
theorem update_spec (m : RudderFeedbackMonitor) (commanded : ℚ) (actual : Option ℚ)
    (thresholdRad : ℚ) (timeoutTicks : Nat) :
    (m.update commanded actual thresholdRad timeoutTicks).1.alarmActive =
      (m.update commanded actual thresholdRad timeoutTicks).2.getD m.alarmActive := by
  by_cases hoff : thresholdRad ≤ 0
  · simp [update, hoff]
  · cases actual with
    | none => simp [update, hoff]
    | some a =>
      rw [update, if_neg hoff]
      simp only
      by_cases hfar : thresholdRad < |commanded - a|
      · simp only [if_pos hfar]
        split_ifs
        · rfl
        · rfl
      · simp only [if_neg hfar]
        cases hactive : m.alarmActive with
        | true => rfl
        | false => rfl

/-- The alarm fires on an actual angle only, when its ticks have run out. -/
theorem fires {m : RudderFeedbackMonitor} {commanded : ℚ} {actual : Option ℚ} {thresholdRad : ℚ}
    {timeoutTicks : Nat} (h : (m.update commanded actual thresholdRad timeoutTicks).2 = some true) :
    actual.isSome = true ∧ 0 < thresholdRad ∧ timeoutTicks ≤ (m.mismatchTicks + 1) % 2 ^ 32 ∧
      m.alarmActive = false := by
  by_cases hoff : thresholdRad ≤ 0
  · simp [update, hoff] at h
  · cases actual with
    | none => simp [update, hoff] at h
    | some a =>
      rw [update, if_neg hoff] at h
      simp only at h
      by_cases hfar : thresholdRad < |commanded - a|
      · simp only [if_pos hfar] at h
        split_ifs at h with hfire
        exact ⟨rfl, not_le.mp hoff, hfire.1, hfire.2⟩
      · simp only [if_neg hfar] at h
        split_ifs at h
        simp at h

end RudderFeedbackMonitor

namespace ControlLoop

theorem onMode_feedback (l : ControlLoop) (mode : AutopilotMode) :
    (l.prevMode = some mode ∧ (l.onMode mode).rudderFeedback = l.rudderFeedback) ∨
      (l.onMode mode).rudderFeedback.alarmActive = false := by
  unfold onMode
  split_ifs with h
  · exact .inl ⟨h, rfl⟩
  · exact .inr rfl

theorem gust_feedback (l : ControlLoop) (cfg : AutopilotConfig) (windSpeed dt : Option ℚ) :
    (l.gustCompensation cfg windSpeed dt).1.rudderFeedback = l.rudderFeedback := by
  unfold gustCompensation
  cases windSpeed with
  | none => rfl
  | some ws =>
    by_cases hg : cfg.gustGain ≠ 0
    · simp only [if_pos hg]
    · simp only [if_neg hg]

variable [AngleMath]

/-- What a tick leaves of the monitor, and what it says of it. -/
def Monitored (m m' : RudderFeedbackMonitor) (cfg : AutopilotConfig) (s : Snapshot)
    (shouldEmit : Bool) : TickOutcome → Prop
  | .skip => m' = m
  | .disengage _ => m'.alarmActive = false
  | .steer rudder _ _ outs =>
    let out := m.update rudder s.actualRudder cfg.rudderFeedbackThresholdRad
      cfg.rudderFeedbackTimeoutTicks
    m' = out.1 ∧ outs = (if shouldEmit then [emitRudder rudder] else []) ++
      feedbackOutputs out.2 rudder s.actualRudder

theorem finish_monitored {l l' : ControlLoop} {cfg : AutopilotConfig} {s : Snapshot}
    {dt : Option ℚ} {shouldEmit : Bool} {now : Instant} {raw error : ℚ} {outcome : TickOutcome}
    (h : l.finish cfg s dt shouldEmit now raw error = some (l', outcome)) :
    Monitored l.rudderFeedback l'.rudderFeedback cfg s shouldEmit outcome := by
  unfold finish at h
  obtain ⟨withFf, -, hrate⟩ := Option.bind_eq_some_iff.mp h
  obtain ⟨rudder, -, he⟩ := Option.map_eq_some_iff.mp hrate
  obtain ⟨rfl, rfl⟩ := Prod.mk.inj he
  simp only [Monitored, gust_feedback, and_self]

theorem steer_monitored {l l' : ControlLoop} {cfg : AutopilotConfig} {s : Snapshot}
    {heading : Option ℚ} {target : ℚ} {dt : Option ℚ} {shouldEmit : Bool} {now : Instant}
    {outcome : TickOutcome}
    (h : l.steer cfg s heading target dt shouldEmit now = some (l', outcome)) :
    Monitored l.rudderFeedback l'.rudderFeedback cfg s shouldEmit outcome := by
  have hrecover : (l.recover cfg s heading target).rudderFeedback = l.rudderFeedback := by
    unfold recover
    simp only
    split
    · rfl
    · rfl
  unfold steer at h
  obtain ⟨out, hout, hrest⟩ := Option.bind_eq_some_iff.mp h
  obtain hskip | ⟨windFilter, error, d, -, heq⟩ := dispatch_eq (l.recover cfg s heading target)
    cfg s heading target dt (Pd.validateYawRate s.yawRate cfg.maxYawRateRadPerSec)
    ((l.recover cfg s heading target).recovery.apply (gains cfg s) cfg.recoveryGainFactor)
  · obtain rfl := Option.some.inj (hskip.symm.trans hout)
    obtain ⟨rfl, rfl⟩ := Prod.mk.inj (Option.some.inj hrest)
    exact hrecover
  · rw [heq] at hout
    obtain ⟨⟨pid, raw⟩, -, rfl⟩ := Option.map_eq_some_iff.mp hout
    have hfinish := finish_monitored hrest
    simp only [hrecover] at hfinish
    exact hfinish

theorem checkHeading_feedback (l : ControlLoop) (cfg : AutopilotConfig)
    (heading dt : Option ℚ) :
    (l.checkHeading cfg heading dt).1.rudderFeedback = l.rudderFeedback := by
  cases heading with
  | none => rfl
  | some h => rfl

theorem control_monitored {l l' : ControlLoop} {cfg : AutopilotConfig} {s : Snapshot}
    {shouldEmit : Bool} {now : Instant} {outcome : TickOutcome}
    (h : l.control cfg s shouldEmit now = some (l', outcome)) :
    Monitored (l.onMode s.mode).rudderFeedback l'.rudderFeedback cfg s shouldEmit outcome := by
  unfold control at h
  simp only at h
  split_ifs at h
  · obtain ⟨rfl, rfl⟩ := Prod.mk.inj (Option.some.inj h)
    exact rfl
  · cases ht : s.target with
    | none =>
      rw [ht] at h
      obtain ⟨rfl, rfl⟩ := Prod.mk.inj (Option.some.inj h)
      exact rfl
    | some target =>
      rw [ht] at h
      simp only at h
      split at h
      · obtain ⟨rfl, rfl⟩ := Prod.mk.inj (Option.some.inj h)
        exact rfl
      · have hsteer := steer_monitored h
        rw [checkHeading_feedback] at hsteer
        exact hsteer

end ControlLoop

def TickOutcome.disengages : TickOutcome → Bool
  | .disengage _ => true
  | _ => false

def TickOutcome.steers : TickOutcome → Bool
  | .steer _ _ _ _ => true
  | _ => false

/-- The autopilot, and what it has told of its alarms (history). -/
structure AlarmedAutopilot where
  sys : AutopilotSystem
  /-- the last states of the three notifications -/
  feedback : Option String
  timeout : Option String
  heading : Option String
  /-- a tick has come to disengage -/
  dropped : Bool
  /-- the tick under way steers, and not because of a heading before a glitch -/
  clean : Bool

namespace AlarmedAutopilot

def start (cfg : AutopilotConfig) (now : Instant) : AlarmedAutopilot where
  sys := .start cfg now
  feedback := none
  timeout := none
  heading := none
  dropped := false
  clean := false

section
variable [AngleMath]

def drops (p : AutopilotSystem) (e : AutopilotEvent) : Bool :=
  match e with
  | .proceed => p.comesTo fun _ _ _ outcome => outcome.disengages
  | _ => false

def cleanAfter (p : AutopilotSystem) (e : AutopilotEvent) (clean : Bool) : Bool :=
  match e, p.task with
  | .wake, .asleep => false
  | .proceed, .thinking _ _ _ => p.comesTo fun l st takenAt outcome =>
      let s := Snapshot.read p.config st takenAt
      outcome.steers && decide (l.trusted p.config s p.now = s.heading)
  | _, _ => clean

def step (a : AlarmedAutopilot) (e : AutopilotEvent) :
    AlarmedAutopilot × List AutopilotOutput :=
  let next := a.sys.step e
  ({ sys := next.1
     feedback := lastNotified feedbackPath a.feedback next.2
     timeout := lastNotified timeoutPath a.timeout next.2
     heading := lastNotified headingAlarmPath a.heading next.2
     dropped := a.dropped || drops a.sys e
     clean := cleanAfter a.sys e a.clean }, next.2)

/-- How long the ticks of a mismatch take, in seconds. -/
def mismatchWindow (cfg : AutopilotConfig) : ℚ :=
  cfg.rudderFeedbackTimeoutTicks / max cfg.controlRateHz (1 / 10)

/-- What is owed at one step. -/
structure AlarmsTrack (a : AlarmedAutopilot) (e : AutopilotEvent) : Prop where
  /-- between ticks the rudder alarm stands when the monitor says so -/
  follows : ∀ l, (a.step e).1.sys.loop = some l → (a.step e).1.sys.task = .asleep →
    ((a.step e).1.feedback = some "alarm" ↔ l.rudderFeedback.alarmActive = true)
  /-- it is raised by a rudder angle that is newer than the window -/
  raised : ∀ l st takenAt rudder error now outs,
    AutopilotSystem.Computes a.sys e l st takenAt (.steer rudder error now outs) →
    lastNotified feedbackPath none outs = some "alarm" →
    ∃ seen, st.actualRudderLastSeen = some seen ∧
      secsF64 (takenAt - seen) ≤ mismatchWindow a.sys.config
  /-- a tick that is done with steering leaves no other alarm -/
  cleared : (a.step e).1.sys.task = .emitting [] → (a.step e).1.clean = true →
    (a.step e).1.timeout ≠ some "alarm" ∧ (a.step e).1.heading ≠ some "alarm"

/-- The tick disengages: its sensor has timed out, or the heading has failed. -/
def failing (p : AutopilotSystem) (l : ControlLoop) (st : AutopilotState) (takenAt : Instant) :
    Bool :=
  let s := Snapshot.read p.config st takenAt
  s.timedOut || (s.target.isSome &&
    ((l.onMode st.mode).checkHeading p.config s.heading
      (tickDt p.config st.lastTickAt p.now)).2.isNone)

/-- The monitor is not reset while its alarm is active, no alarm is due on an old rudder
angle, and the autopilot is not engaged again after a tick has disengaged it. -/
def Steady (a : AlarmedAutopilot) (e : AutopilotEvent) : Prop :=
  match e with
  | .call c => c.engages = true → a.dropped = false
  | .proceed =>
    match a.sys.loop, a.sys.task with
    | some l, .thinking st takenAt _ =>
      (l.rudderFeedback.alarmActive = true →
        l.prevMode = some st.mode ∧ failing a.sys l st takenAt = false) ∧
      (a.sys.config.rudderFeedbackTimeoutTicks ≤
          ((l.onMode st.mode).rudderFeedback.mismatchTicks + 1) % 2 ^ 32 →
        ∀ seen ∈ st.actualRudderLastSeen,
          secsF64 (takenAt - seen) ≤ mismatchWindow a.sys.config)
    | _, _ => True
  | _ => True

instance (a : AlarmedAutopilot) (e : AutopilotEvent) : Decidable (Steady a e) := by
  unfold Steady
  split
  · infer_instance
  · split
    · infer_instance
    · infer_instance
  · infer_instance

/-- What is still to be emitted. -/
def pending (task : ControlTask) : List AutopilotOutput :=
  match task with
  | .writing outcome => AutopilotSystem.outputs outcome
  | .emitting left => left
  | _ => []

/-- No engaged tick is under way, unless it is the one that disengages. -/
def Resting (p : AutopilotSystem) : Prop :=
  match p.task with
  | .looking st _ _ => st.enabled = false ∧ p.state.enabled = false
  | .thinking _ _ _ => False
  | .writing outcome => ∃ alarm, outcome = .disengage alarm
  | _ => p.state.enabled = false

/-- A rudder angle that is kept was received at some time. -/
def Dated (st : AutopilotState) : Prop :=
  st.actualRudderRad.isSome = true → st.actualRudderLastSeen.isSome = true

/-- What is said and what is still to be said fits the monitor and the ticks so far. -/
structure Told (a : AlarmedAutopilot) : Prop where
  feedback : ∀ l, a.sys.loop = some l →
    (lastNotified feedbackPath a.feedback (pending a.sys.task) = some "alarm" ↔
      l.rudderFeedback.alarmActive = true)
  quiet : a.dropped = false →
    lastNotified timeoutPath a.timeout (pending a.sys.task) ≠ some "alarm" ∧
    lastNotified headingAlarmPath a.heading (pending a.sys.task) ≠ some "alarm"
  resting : a.dropped = true → a.clean = false ∧ Resting a.sys
  dated : Dated a.sys.state
  taskDated : ∀ st takenAt shouldEmit, a.sys.task = .looking st takenAt shouldEmit ∨
    a.sys.task = .thinking st takenAt shouldEmit → Dated st

omit [AngleMath] in
theorem dated_receiveValue {st : AutopilotState} (h : Dated st) (now : Instant)
    (source : Source) (pv : PathValue) : Dated (st.receiveValue now source pv) := by
  unfold AutopilotState.receiveValue
  cases pv.value.asF64 with
  | none => exact h
  | some v =>
    simp only
    split_ifs
    · exact h
    · exact fun _ => rfl
    · exact h

omit [AngleMath] in
theorem dated_receive {st : AutopilotState} (h : Dated st) (now : Instant) (delta : Delta) :
    Dated (st.receive now delta) := by
  rw [AutopilotState.receive_eq]
  induction delta.updates.flatMap fun update => update.values.map (update.source, ·)
    generalizing st with
  | nil => exact h
  | cons e es ih => exact ih (dated_receiveValue h now e.1 e.2)

theorem dated_call {st st' : AutopilotState} {c : ProviderCall} (h : Dated st)
    (hc : st.call c = .ok st') : Dated st' := by
  obtain ⟨hrudder, hseen⟩ := AutopilotState.called_actual hc
  rw [Dated, hrudder, hseen]
  exact h

/-- A tick disengages only when it fails. -/
theorem failing_of_disengage {p : AutopilotSystem} {l l' : ControlLoop} {st : AutopilotState}
    {takenAt : Instant} {shouldEmit : Bool} {alarm : AutopilotAlarm}
    (h : l.control p.config (Snapshot.read p.config st takenAt) shouldEmit p.now =
      some (l', .disengage alarm)) : failing p l st takenAt = true := by
  have hmode : (Snapshot.read p.config st takenAt).mode = st.mode := rfl
  have hlast : (Snapshot.read p.config st takenAt).lastTick = st.lastTickAt := rfl
  unfold failing
  generalize hs : Snapshot.read p.config st takenAt = s at h hmode hlast ⊢
  unfold ControlLoop.control at h
  simp only [hmode, hlast] at h
  split_ifs at h with htimeout
  · simp [htimeout]
  · cases ht : s.target with
    | none =>
      rw [ht] at h
      cases h
    | some target =>
      rw [ht] at h
      simp only at h
      split at h
      · rename_i hnone
        simp [hnone, ht]
      · obtain ⟨-, hskip | ⟨_, _, _, hsteer, -⟩⟩ := ControlLoop.steer_spec h
        · cases hskip
        · cases hsteer

variable {a : AlarmedAutopilot}

omit [AngleMath] in
theorem told_start (cfg : AutopilotConfig) (now : Instant) : Told (start cfg now) := by
  refine ⟨fun l hl => ?_, fun _ => ⟨fun h => (by cases h), fun h => (by cases h)⟩,
    fun h => (by cases h), fun h => (by cases h), fun _ _ _ h => ?_⟩
  · obtain ⟨windFilter, -, hrest⟩ := Option.bind_eq_some_iff.mp hl
    obtain ⟨gust, -, rfl⟩ := Option.map_eq_some_iff.mp hrest
    simp [pending, start, AutopilotSystem.start, lastNotified, RudderFeedbackMonitor.new]
  · rcases h with h | h <;> cases h

theorem drops_thinking {p : AutopilotSystem} {l l' : ControlLoop} {st : AutopilotState}
    {takenAt : Instant} {shouldEmit : Bool} {outcome : TickOutcome} (hl : p.loop = some l)
    (ht : p.task = .thinking st takenAt shouldEmit)
    (hc : l.control p.config (Snapshot.read p.config st takenAt) shouldEmit p.now =
      some (l', outcome)) :
    drops p .proceed = outcome.disengages := by
  simp only [drops, AutopilotSystem.comesTo, hl, ht, hc, Option.any_some]

theorem drops_of_not_thinking {p : AutopilotSystem}
    (h : p.loop = none ∨ ∀ st takenAt shouldEmit, p.task ≠ .thinking st takenAt shouldEmit) :
    drops p .proceed = false := by
  simp only [drops, AutopilotSystem.comesTo]
  split
  · rename_i l st takenAt shouldEmit hl ht
    rcases h with h | h
    · rw [hl] at h
      cases h
    · exact absurd ht (h _ _ _)
  · rfl

theorem cleanAfter_of_not_thinking {p : AutopilotSystem} {clean : Bool}
    (h : ∀ st takenAt shouldEmit, p.task ≠ .thinking st takenAt shouldEmit) :
    cleanAfter p .proceed clean = clean := by
  unfold cleanAfter
  split
  · rename_i he _
    cases he
  · rename_i _ ht
    exact absurd ht (h _ _ _)
  · rfl

omit [AngleMath] in
/-- A tick that is not the one to reset it leaves the alarm of the monitor to its update. -/
theorem onMode_alarm {l : ControlLoop} {st : AutopilotState}
    (h : l.rudderFeedback.alarmActive = true → l.prevMode = some st.mode) :
    (l.onMode st.mode).rudderFeedback.alarmActive = l.rudderFeedback.alarmActive := by
  cases hactive : l.rudderFeedback.alarmActive with
  | true =>
    rw [ControlLoop.onMode, if_pos (h hactive), hactive]
  | false =>
    obtain ⟨-, hsame⟩ | hreset := l.onMode_feedback st.mode
    · rw [hsame, hactive]
    · exact hreset

/-- What a steering tick says of the monitor is what its update has made of it. -/
theorem lastNotified_steer {m m' : RudderFeedbackMonitor} {cfg : AutopilotConfig}
    {s : Snapshot} {shouldEmit : Bool} {rudder error : ℚ} {now : Instant}
    {outs : List AutopilotOutput} (before : Option String)
    (h : ControlLoop.Monitored m m' cfg s shouldEmit (.steer rudder error now outs))
    (hbefore : before = some "alarm" ↔ m.alarmActive = true) :
    (lastNotified feedbackPath before outs = some "alarm" ↔ m'.alarmActive = true) ∧
    ∀ path state, path ≠ feedbackPath → lastNotified path state outs = state := by
  obtain ⟨rfl, rfl⟩ := h
  have hrudder : ∀ path state, lastNotified path state
      (if shouldEmit then [emitRudder rudder] else []) = state := by
    intro path state
    cases shouldEmit <;> simp [lastNotified]
  constructor
  · rw [lastNotified_append, hrudder, lastNotified_feedbackOutputs, if_pos rfl,
      RudderFeedbackMonitor.update_spec]
    match (m.update rudder s.actualRudder cfg.rudderFeedbackThresholdRad
        cfg.rudderFeedbackTimeoutTicks).2 with
    | none => exact hbefore
    | some true => simp
    | some false => simp
  · intro path state hne
    rw [lastNotified_append, hrudder, lastNotified_feedbackOutputs, if_neg hne]

omit [AngleMath] in
/-- While an engaged tick is under way, none before it has disengaged. -/
theorem Told.undropped (ha : Told a) {st : AutopilotState} {takenAt : Instant}
    {shouldEmit : Bool} (ht : a.sys.task = .thinking st takenAt shouldEmit) :
    a.dropped = false := by
  by_contra hd
  have hrest := (ha.resting (by simpa using hd)).2
  rw [Resting, ht] at hrest
  exact hrest

omit [AngleMath] in
theorem dated_of_no_tick {task : ControlTask}
    (hl : ∀ st takenAt shouldEmit, task ≠ .looking st takenAt shouldEmit)
    (ht : ∀ st takenAt shouldEmit, task ≠ .thinking st takenAt shouldEmit)
    (st : AutopilotState) (takenAt : Instant) (shouldEmit : Bool)
    (h : task = .looking st takenAt shouldEmit ∨ task = .thinking st takenAt shouldEmit) :
    Dated st :=
  (h.elim (hl _ _ _) (ht _ _ _)).elim

section
variable {l l' : ControlLoop} {st : AutopilotState} {takenAt : Instant} {shouldEmit : Bool}
  (ha : Told a) (he : Steady a .proceed) (hl : a.sys.loop = some l)
  (ht : a.sys.task = .thinking st takenAt shouldEmit)
include ha he hl ht

/-- The monitor's alarm is not active when a tick disengages, and the alarm that goes with
it has a path of its own. -/
theorem Told.disengage {alarm : AutopilotAlarm}
    (hc : l.control a.sys.config (Snapshot.read a.sys.config st takenAt) shouldEmit a.sys.now =
      some (l', .disengage alarm)) :
    Told { a with
      sys := { a.sys with loop := some l', task := .writing (.disengage alarm) }
      dropped := a.dropped || drops a.sys .proceed
      clean := cleanAfter a.sys .proceed a.clean } := by
  have hfeedback := ha.feedback l hl
  simp only [ht, pending] at hfeedback
  simp only [Steady, hl, ht] at he
  have hoff : l.rudderFeedback.alarmActive = false := by
    by_contra hon
    have hfail := (he.1 (by simpa using hon)).2
    rw [failing_of_disengage hc] at hfail
    cases hfail
  have hoff' : l'.rudderFeedback.alarmActive = false := ControlLoop.control_monitored hc
  have hother : alarm.path ≠ feedbackPath := by
    cases alarm <;> simp [AutopilotAlarm.path, timeoutPath, headingAlarmPath, feedbackPath]
  simp only [drops_thinking hl ht hc, TickOutcome.disengages, Bool.or_true]
  refine ⟨fun k hk => ?_, fun hd => (by cases hd), fun _ => ⟨?_, alarm, rfl⟩, ha.dated,
    dated_of_no_tick (by simp) (by simp)⟩
  · obtain rfl := Option.some.inj hk
    change lastNotified feedbackPath a.feedback alarm.outputs = _ ↔ _
    rw [lastNotified_alarm, if_neg hother, hoff', ← hoff]
    exact hfeedback
  · simp [cleanAfter, ht, AutopilotSystem.comesTo, hl, hc, TickOutcome.steers]

/-- A steering tick speaks for the monitor alone. -/
theorem Told.steer {rudder error : ℚ} {now : Instant} {outs : List AutopilotOutput}
    (hc : l.control a.sys.config (Snapshot.read a.sys.config st takenAt) shouldEmit a.sys.now =
      some (l', .steer rudder error now outs)) :
    Told { a with
      sys := { a.sys with loop := some l', task := .writing (.steer rudder error now outs) }
      dropped := a.dropped || drops a.sys .proceed
      clean := cleanAfter a.sys .proceed a.clean } := by
  have hfeedback := ha.feedback l hl
  have hquiet := ha.quiet (ha.undropped ht)
  simp only [ht, pending] at hfeedback hquiet
  simp only [Steady, hl, ht] at he
  have halarm : (l.onMode st.mode).rudderFeedback.alarmActive = l.rudderFeedback.alarmActive :=
    onMode_alarm fun h => (he.1 h).1
  obtain ⟨hown, hother⟩ := lastNotified_steer a.feedback (ControlLoop.control_monitored hc)
    (hfeedback.trans (by rw [← halarm]; rfl))
  simp only [drops_thinking hl ht hc, TickOutcome.disengages, Bool.or_false]
  refine ⟨fun k hk => ?_, fun _ => ?_, fun hd => ?_, ha.dated,
    dated_of_no_tick (by simp) (by simp)⟩
  · obtain rfl := Option.some.inj hk
    exact hown
  · change lastNotified timeoutPath a.timeout outs ≠ _ ∧
      lastNotified headingAlarmPath a.heading outs ≠ _
    rw [hother _ _ (by simp [timeoutPath, feedbackPath]),
      hother _ _ (by simp [headingAlarmPath, feedbackPath])]
    exact hquiet
  · rw [ha.undropped ht] at hd
    cases hd

end

theorem Told.proceed (ha : Told a) (he : Steady a .proceed) : Told (a.step .proceed).1 := by
  simp only [step, AutopilotSystem.step]
  have h := AutopilotSystem.proceeds a.sys
  generalize a.sys.proceed.1 = q at h ⊢
  generalize a.sys.proceed.2 = outs at h ⊢
  have hclean : a.dropped = true → cleanAfter a.sys .proceed a.clean = false := by
    intro hd
    have hnot : ∀ st takenAt shouldEmit, a.sys.task ≠ .thinking st takenAt shouldEmit := by
      intro st takenAt shouldEmit ht
      rw [ha.undropped ht] at hd
      cases hd
    rw [cleanAfter_of_not_thinking hnot]
    exact (ha.resting hd).1
  cases h with
  | idle hidle =>
    have hdrops : drops a.sys .proceed = false := by
      refine drops_of_not_thinking (hidle.imp_right fun ht st takenAt shouldEmit => ?_)
      simp [ht]
    simp only [hdrops, Bool.or_false]
    exact ⟨ha.feedback, ha.quiet, fun hd => ⟨hclean hd, (ha.resting hd).2⟩, ha.dated,
      ha.taskDated⟩
  | @looked l st takenAt shouldEmit hl ht =>
    have hdrops : drops a.sys .proceed = false := drops_of_not_thinking (.inr (by simp [ht]))
    have hsame : ∀ path before, lastNotified path before
        (if shouldEmit then [emitAutopilotState st.enabled st.mode st.targetRad] else []) =
          before := by
      intro path before
      cases shouldEmit <;> simp [lastNotified]
    have hpending : pending (if st.enabled then .thinking st takenAt shouldEmit else .asleep) =
        [] := by
      split_ifs <;> rfl
    have hfeedback := ha.feedback
    have hquiet := ha.quiet
    simp only [ht, pending] at hfeedback hquiet
    simp only [hdrops, Bool.or_false]
    refine ⟨?_, ?_, fun hd => ⟨hclean hd, ?_⟩, ha.dated, fun st' takenAt' shouldEmit' h => ?_⟩
    · simp only [hsame, hpending]
      exact hfeedback
    · simp only [hsame, hpending]
      exact hquiet
    · have hrest := (ha.resting hd).2
      simp only [Resting, ht] at hrest
      simp only [Resting, hrest.1]
      exact hrest.2
    · simp only at h
      split_ifs at h
      · cases h.resolve_left (by simp)
        exact ha.taskDated _ _ _ (.inl ht)
      · rcases h with h | h <;> cases h
  | @panicked l st takenAt shouldEmit hl ht hc =>
    have hdrops : drops a.sys .proceed = false := by
      simp [drops, AutopilotSystem.comesTo, hl, ht, hc]
    have hquiet := ha.quiet
    simp only [ht, pending] at hquiet
    simp only [hdrops, Bool.or_false]
    refine ⟨fun _ h => (by cases h), hquiet, fun hd => ?_, ha.dated,
      dated_of_no_tick (by simp) (by simp)⟩
    rw [ha.undropped ht] at hd
    cases hd
  | @skipped l st takenAt shouldEmit l' hl ht hc =>
    have hdrops : drops a.sys .proceed = false := drops_thinking hl ht hc
    have hfeedback := ha.feedback l hl
    have hquiet := ha.quiet
    simp only [ht, pending] at hfeedback hquiet
    simp only [Steady, hl, ht] at he
    have hmonitor : l'.rudderFeedback = (l.onMode st.mode).rudderFeedback :=
      ControlLoop.control_monitored hc
    simp only [hdrops, Bool.or_false]
    refine ⟨fun k hk => ?_, hquiet, fun hd => ?_, ha.dated, dated_of_no_tick (by simp) (by simp)⟩
    · obtain rfl := Option.some.inj hk
      rw [hmonitor, onMode_alarm fun h => (he.1 h).1]
      exact hfeedback
    · rw [ha.undropped ht] at hd
      cases hd
  | @decided l st takenAt shouldEmit l' outcome hl ht hc hne =>
    cases outcome with
    | skip => exact absurd rfl hne
    | disengage alarm => exact ha.disengage he hl ht hc
    | steer rudder error now outs => exact ha.steer he hl ht hc
  | @wrote l outcome hl ht =>
    have hdrops : drops a.sys .proceed = false := drops_of_not_thinking (.inr (by simp [ht]))
    have hfeedback := ha.feedback
    have hquiet := ha.quiet
    simp only [ht, pending] at hfeedback hquiet
    simp only [hdrops, Bool.or_false]
    refine ⟨hfeedback, hquiet, fun hd => ⟨hclean hd, ?_⟩, ?_, dated_of_no_tick (by simp) (by simp)⟩
    · have hrest := (ha.resting hd).2
      simp only [Resting, ht] at hrest
      obtain ⟨alarm, rfl⟩ := hrest
      exact rfl
    · cases outcome <;> exact ha.dated
  | @finished l hl ht =>
    have hdrops : drops a.sys .proceed = false := drops_of_not_thinking (.inr (by simp [ht]))
    have hfeedback := ha.feedback
    have hquiet := ha.quiet
    simp only [ht, pending] at hfeedback hquiet
    simp only [hdrops, Bool.or_false]
    refine ⟨hfeedback, hquiet, fun hd => ⟨hclean hd, ?_⟩, ha.dated,
      dated_of_no_tick (by simp) (by simp)⟩
    have hrest := (ha.resting hd).2
    simp only [Resting, ht] at hrest
    exact hrest
  | @said l output left hl ht =>
    have hdrops : drops a.sys .proceed = false := drops_of_not_thinking (.inr (by simp [ht]))
    have hfeedback := ha.feedback
    have hquiet := ha.quiet
    simp only [ht, pending] at hfeedback hquiet
    simp only [hdrops, Bool.or_false]
    refine ⟨hfeedback, hquiet, fun hd => ⟨hclean hd, ?_⟩, ha.dated,
      dated_of_no_tick (by simp) (by simp)⟩
    have hrest := (ha.resting hd).2
    simp only [Resting, ht] at hrest
    exact hrest

theorem Told.call (ha : Told a) {c : ProviderCall} (he : Steady a (.call c)) :
    Told (a.step (.call c)).1 := by
  simp only [step, AutopilotSystem.step, drops, cleanAfter, Bool.or_false]
  unfold AutopilotSystem.call
  cases hc : a.sys.state.call c with
  | error err => exact ha
  | ok st =>
    have hcalled := AutopilotState.called hc
    refine ⟨ha.feedback, ha.quiet, fun hd => ⟨(ha.resting hd).1, ?_⟩, dated_call ha.dated hc,
      ha.taskDated⟩
    have hrest := (ha.resting hd).2
    have hengages : c.engages = false := by
      by_contra hon
      have hoff := he (by simpa using hon)
      rw [hoff] at hd
      cases hd
    have hdown : a.sys.state.enabled = false → st.enabled = false := by
      intro hoff
      rw [hcalled.enabled, hengages, hoff]
      simp
    unfold Resting at hrest ⊢
    cases ht : a.sys.task with
    | looking seen takenAt shouldEmit =>
      simp only [ht] at hrest ⊢
      exact ⟨hrest.1, hdown hrest.2⟩
    | thinking seen takenAt shouldEmit =>
      simp only [ht] at hrest
    | writing outcome =>
      simp only [ht] at hrest ⊢
      exact hrest
    | asleep =>
      simp only [ht] at hrest ⊢
      exact hdown hrest
    | emitting left =>
      simp only [ht] at hrest ⊢
      exact hdown hrest

omit [AngleMath] in
theorem resting_of_state {p : AutopilotSystem} {st : AutopilotState}
    (h : Resting p) (hst : st.enabled = p.state.enabled) : Resting { p with state := st } := by
  unfold Resting at h ⊢
  simp only [hst]
  exact h

theorem Told.sensors (ha : Told a) (delta : Delta) : Told (a.step (.sensors delta)).1 := by
  have hdated := dated_receive ha.dated a.sys.now delta
  obtain ⟨seen, values, actual, actualSeen, h⟩ := a.sys.state.receive_frame a.sys.now delta
  simp only [step, AutopilotSystem.step, drops, cleanAfter, Bool.or_false]
  unfold AutopilotSystem.sensors
  refine ⟨ha.feedback, ha.quiet, fun hd => ⟨(ha.resting hd).1, ?_⟩, hdated, ha.taskDated⟩
  exact resting_of_state (ha.resting hd).2 (by rw [h])

theorem Told.wake (ha : Told a) : Told (a.step .wake).1 := by
  have hclean : a.dropped = true → cleanAfter a.sys .wake a.clean = false := by
    intro hd
    have hc := (ha.resting hd).1
    unfold cleanAfter
    split
    · rfl
    · rename_i he _
      cases he
    · exact hc
  simp only [step, AutopilotSystem.step, drops, Bool.or_false]
  unfold AutopilotSystem.wake
  split
  · rename_i l hl ht
    have hfeedback := ha.feedback l hl
    have hquiet := ha.quiet
    simp only [ht, pending] at hfeedback hquiet
    refine ⟨fun k hk => ?_, hquiet, fun hd => ⟨hclean hd, ?_⟩, ha.dated,
      fun st takenAt shouldEmit h => ?_⟩
    · obtain rfl := Option.some.inj hk
      exact hfeedback
    · have hrest := (ha.resting hd).2
      simp only [Resting, ht] at hrest
      exact ⟨hrest, hrest⟩
    · rcases h with h | h
      · cases h
        exact ha.dated
      · cases h
  · exact ⟨ha.feedback, ha.quiet, fun hd => ⟨hclean hd, (ha.resting hd).2⟩, ha.dated,
      ha.taskDated⟩

theorem Told.step (ha : Told a) {e : AutopilotEvent} (he : Steady a e) : Told (a.step e).1 := by
  cases e with
  | pass nanoseconds =>
    simp only [AlarmedAutopilot.step, AutopilotSystem.step, drops, cleanAfter, Bool.or_false]
    exact ⟨ha.feedback, ha.quiet, ha.resting, ha.dated, ha.taskDated⟩
  | sensors delta => exact ha.sensors delta
  | call c => exact ha.call he
  | wake => exact ha.wake
  | proceed => exact ha.proceed he

theorem Told.track (ha : Told a) {e : AutopilotEvent} (he : Steady a e) : AlarmsTrack a e := by
  have hafter := ha.step he
  refine ⟨fun l hl ht => ?_, ?_, fun ht hclean => ?_⟩
  · have hfeedback := hafter.feedback l hl
    simp only [ht, pending] at hfeedback
    exact hfeedback
  · rintro l st takenAt rudder error now outs ⟨rfl, hl, shouldEmit, l', ht, hc⟩ hraised
    simp only [Steady, hl, ht] at he
    obtain ⟨-, rfl⟩ := ControlLoop.control_monitored hc
    have hchange : ((l.onMode (Snapshot.read a.sys.config st takenAt).mode).rudderFeedback.update
        rudder (Snapshot.read a.sys.config st takenAt).actualRudder
        a.sys.config.rudderFeedbackThresholdRad
        a.sys.config.rudderFeedbackTimeoutTicks).2 = some true := by
      have hnone : lastNotified feedbackPath none
          (if shouldEmit then [emitRudder rudder] else []) = none := by
        cases shouldEmit <;> simp [lastNotified]
      rw [lastNotified_append, hnone, lastNotified_feedbackOutputs, if_pos rfl] at hraised
      revert hraised
      match ((l.onMode (Snapshot.read a.sys.config st takenAt).mode).rudderFeedback.update
        rudder (Snapshot.read a.sys.config st takenAt).actualRudder
        a.sys.config.rudderFeedbackThresholdRad
        a.sys.config.rudderFeedbackTimeoutTicks).2 with
      | none => simp
      | some true => simp
      | some false => simp
    obtain ⟨hactual, -, hticks, -⟩ := RudderFeedbackMonitor.fires hchange
    obtain ⟨seen, hseen⟩ :=
      Option.isSome_iff_exists.mp (ha.taskDated st takenAt shouldEmit (.inr ht) hactual)
    exact ⟨seen, hseen, he.2 hticks seen hseen⟩
  · have hoff : (a.step e).1.dropped = false := by
      by_contra hd
      have hrest := (hafter.resting (by simpa using hd)).1
      rw [hrest] at hclean
      cases hclean
    have hquiet := hafter.quiet hoff
    simp only [ht, pending] at hquiet
    exact hquiet

/-- In every steady run the alarms track their cause. -/
theorem alarms_track {cfg : AutopilotConfig} {now : Instant} {es : List AutopilotEvent}
    (h : Machine.Meets step Steady (start cfg now) es) :
    ∀ fs e, fs ++ [e] <+: es → AlarmsTrack (Machine.run step (start cfg now) fs) e := by
  have htrack : Machine.Meets step AlarmsTrack (start cfg now) es :=
    Machine.meets_of_inv (fun _ _ ha he => ha.step he) (fun _ _ ha he => ha.track he)
      (told_start cfg now) h
  exact Machine.meets_iff_prefix.mp htrack

end

section
attribute [local instance] AngleMath.plain

/-- The defaults, with an alarm at the first tick of a mismatch. -/
abbrev alarmAtOnce : AutopilotConfig :=
  { AutopilotConfig.default with rudderFeedbackTimeoutTicks := 1 }

abbrev reading (path : String) (value : ℚ) : AutopilotEvent :=
  .sensors (.selfVessel [⟨Source.nmea0183 "gps" "HC", 0, [⟨path, .ofF64 value⟩]⟩])

/-- A tick that has two outputs, from its start to its end. -/
abbrev loudTick : List AutopilotEvent :=
  [.wake, .proceed, .proceed, .proceed, .proceed, .proceed, .proceed]

/-- The rudder is not where it is commanded to be. -/
abbrev rudderStuck : List AutopilotEvent :=
  [reading "navigation.headingMagnetic" 0, reading "steering.rudderAngle" (1 / 2),
    .call (.setTarget (1 / 10)), .call .engage]

theorem alarms_track_rudder :
    (Machine.run step (start alarmAtOnce 0) (rudderStuck ++ loudTick)).feedback = some "alarm" ∧
    AlarmsTrack (Machine.run step (start alarmAtOnce 0)
      (rudderStuck ++ [.wake, .proceed, .proceed, .proceed, .proceed, .proceed])) .proceed := by
  have hmeets : Machine.Meets step Steady (start alarmAtOnce 0) (rudderStuck ++ loudTick) := by
    decide +kernel
  exact ⟨by decide +kernel, alarms_track hmeets _ _ List.prefix_rfl⟩

/-- The rudder follows again, and the mode is changed before the monitor has seen it. -/
abbrev modeChanged : List AutopilotEvent :=
  rudderStuck ++ loudTick ++ [reading "steering.rudderAngle" 0,
    reading "environment.wind.angleApparent" 0, .call (.setMode "wind"), .wake, .proceed,
    .proceed, .proceed]

/-- The rudder angle is a minute old when the autopilot is engaged. -/
abbrev oldRudder : List AutopilotEvent :=
  [reading "steering.rudderAngle" (1 / 2), .pass 60000000000,
    reading "navigation.headingMagnetic" 0, .call (.setTarget (1 / 10)), .call .engage, .wake,
    .proceed]

/-- A tick without a heading disengages; with one, the autopilot is engaged again. -/
abbrev engagedAgain : List AutopilotEvent :=
  [.call (.setTarget (1 / 10)), .call .engage, .wake, .proceed, .proceed, .proceed, .proceed,
    .proceed, .proceed, .proceed, reading "navigation.headingMagnetic" 0, .call .engage, .wake,
    .proceed, .proceed]

/-- An alarm is due although the rudder angle is older than the window. -/
def alarmsOnOldAngle (config : AutopilotConfig) (st : AutopilotState) (takenAt : Instant) :
    TickOutcome → Bool
  | .steer _ _ _ outs => decide (lastNotified feedbackPath none outs = some "alarm" ∧
      ∀ seen ∈ st.actualRudderLastSeen, mismatchWindow config < secsF64 (takenAt - seen))
  | _ => false

/-- All that a tick has to say has been said. -/
def hasEmitted : ControlTask → Bool
  | .emitting [] => true
  | _ => false

/-- An alarm stands whose monitor has been reset, one is raised by an old rudder angle, and
one stays when the autopilot steers again. -/
theorem alarms_left_standing :
    ¬AlarmsTrack (Machine.run step (start alarmAtOnce 0) modeChanged) .proceed ∧
    ¬AlarmsTrack (Machine.run step (start alarmAtOnce 0) oldRudder) .proceed ∧
    ¬AlarmsTrack (Machine.run step (start .default 0) engagedAgain) .proceed := by
  refine ⟨fun h => ?_, fun h => ?_, fun h => ?_⟩
  · let a := (step (Machine.run step (start alarmAtOnce 0) modeChanged) .proceed).1
    have ha : (∃ l ∈ a.sys.loop, l.rudderFeedback.alarmActive = false) ∧
        a.sys.task.isAsleep = true ∧ a.feedback = some "alarm" := by
      decide +kernel
    obtain ⟨⟨l, hl, hoff⟩, htask, hfeedback⟩ := ha
    have hasleep : a.sys.task = .asleep := by
      revert htask
      cases a.sys.task <;> simp [ControlTask.isAsleep]
    rw [(h.follows l hl hasleep).mp hfeedback] at hoff
    cases hoff
  · let a := Machine.run step (start alarmAtOnce 0) oldRudder
    have ha : a.sys.comesTo (fun _ => alarmsOnOldAngle a.sys.config) = true := by
      decide +kernel
    obtain ⟨l, st, takenAt, outcome, hc, hkind⟩ := AutopilotSystem.exists_computes ha
    cases outcome with
    | skip => cases hkind
    | disengage alarm => cases hkind
    | steer rudder error now outs =>
      obtain ⟨halarm, hold⟩ := of_decide_eq_true hkind
      obtain ⟨seen, hseen, hnew⟩ := h.raised l st takenAt rudder error now outs hc halarm
      exact absurd hnew (not_le.mpr (hold seen hseen))
  · let a := (step (Machine.run step (start .default 0) engagedAgain) .proceed).1
    have ha : hasEmitted a.sys.task = true ∧ a.clean = true ∧ a.timeout = some "alarm" := by
      decide +kernel
    obtain ⟨htask, hclean, htimeout⟩ := ha
    have hdone : a.sys.task = .emitting [] := by
      revert htask
      cases a.sys.task with
      | emitting left => cases left <;> simp [hasEmitted]
      | _ => simp [hasEmitted]
    exact (h.cleared hdone hclean).1 htimeout

end

end AlarmedAutopilot

end SignalK

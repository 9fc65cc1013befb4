import SignalK.Autopilot.Tick

/-! An engaged autopilot steers or says that it does not: what a tick needs for that, and
how it can be left without a word. -/
namespace SignalK
open AutopilotOutput

namespace AutopilotState

/-- Of every sensor that was heard there is a value. -/
def Heard (st : AutopilotState) : Prop :=
  ∀ path, st.sensorLastSeen.lookup path ≠ none → st.sensorValues.lookup path ≠ none

theorem Heard.receiveValue {st : AutopilotState} (h : st.Heard) (now : Instant) (source : Source)
    (pv : PathValue) : (st.receiveValue now source pv).Heard := by
  unfold AutopilotState.receiveValue
  cases pv.value.asF64 with
  | none => exact h
  | some v =>
    simp only
    split_ifs
    · exact h
    · exact h
    · intro path
      simp only [updateSensor, HashMap.lookup_insert]
      split_ifs
      · simp
      · exact h path

theorem Heard.receive {st : AutopilotState} (h : st.Heard) (now : Instant) (delta : Delta) :
    (st.receive now delta).Heard := by
  rw [receive_eq]
  induction delta.updates.flatMap fun update => update.values.map (update.source, ·)
    generalizing st with
  | nil => exact h
  | cons e es ih => exact ih (h.receiveValue now e.1 e.2)

/-- As long as the sensor of the mode has not timed out there is a value to steer by. -/
theorem Heard.currentSensor {st : AutopilotState} (h : st.Heard) {now : Instant}
    {timeoutSecs : Nat} (ht : st.sensorTimedOut now timeoutSecs = false) :
    st.currentSensor.isSome = true := by
  have hseen : st.sensorLastSeen.lookup st.mode.sensorPath ≠ none := by
    intro hnone
    rw [sensorTimedOut, hnone] at ht
    cases ht
  exact Option.isSome_iff_ne_none.mpr (h _ hseen)

/-- A heading of either kind has been received. -/
def knowsHeading (st : AutopilotState) : Bool :=
  (st.sensorValues.lookup "navigation.headingMagnetic").isSome ||
    (st.sensorValues.lookup "navigation.headingTrue").isSome

end AutopilotState

namespace ControlLoop
variable [AngleMath]

/-- With the sensors that the mode reads, the mode computes something or panics. -/
theorem dispatch_ready {l l' : ControlLoop} {cfg : AutopilotConfig} {s : Snapshot}
    {heading : Option ℚ} {target : ℚ} {dt yawRate : Option ℚ} {pidCfg : PidConfig}
    (hh : s.mode ≠ .wind → heading.isSome = true)
    (hp : s.mode ≠ .compass → s.primarySensor.isSome = true) :
    l.dispatch cfg s heading target dt yawRate pidCfg ≠ some (l', none) := by
  have hlaw : ∀ (k : ControlLoop) (law : Law), k.withLaw law ≠ some (l', none) := by
    intro k law h
    obtain ⟨out, -, he⟩ := Option.map_eq_some_iff.mp h
    cases he
  unfold dispatch
  cases hm : s.mode with
  | compass =>
    obtain ⟨current, rfl⟩ := Option.isSome_iff_exists.mp (hh (by simp [hm]))
    exact hlaw _ _
  | wind =>
    obtain ⟨raw, hraw⟩ := Option.isSome_iff_exists.mp (hp (by simp [hm]))
    simp only [hraw]
    exact hlaw _ _
  | route =>
    obtain ⟨current, rfl⟩ := Option.isSome_iff_exists.mp (hh (by simp [hm]))
    obtain ⟨btw, hbtw⟩ := Option.isSome_iff_exists.mp (hp (by simp [hm]))
    simp only [hbtw]
    exact hlaw _ _

theorem steer_ne_skip {l l' : ControlLoop} {cfg : AutopilotConfig} {s : Snapshot}
    {heading : Option ℚ} {target : ℚ} {dt : Option ℚ} {shouldEmit : Bool} {now : Instant}
    (hh : s.mode ≠ .wind → heading.isSome = true)
    (hp : s.mode ≠ .compass → s.primarySensor.isSome = true) :
    l.steer cfg s heading target dt shouldEmit now ≠ some (l', .skip) := by
  intro h
  unfold steer at h
  obtain ⟨⟨k, computed⟩, hout, hrest⟩ := Option.bind_eq_some_iff.mp h
  cases computed with
  | none => exact dispatch_ready hh hp hout
  | some computed =>
    obtain ⟨-, rudder, outs, hsteer, -⟩ := finish_spec hrest
    cases hsteer

theorem checkHeading_isSome {l : ControlLoop} {cfg : AutopilotConfig}
    {heading dt result : Option ℚ} (hh : heading.isSome = true)
    (h : (l.checkHeading cfg heading dt).2 = some result) : result.isSome = true := by
  obtain ⟨v, rfl⟩ := Option.isSome_iff_exists.mp hh
  simp only [checkHeading] at h
  split at h
  · obtain rfl := Option.some.inj h
    rfl
  · obtain rfl := Option.some.inj h
    rfl
  · cases h

/-- A tick with a target and the sensors that its mode reads is not left silently. -/
theorem control_ne_skip {l l' : ControlLoop} {cfg : AutopilotConfig} {s : Snapshot}
    {shouldEmit : Bool} {now : Instant} (ht : s.target.isSome = true)
    (hh : s.mode ≠ .wind → s.heading.isSome = true)
    (hp : s.mode ≠ .compass → s.primarySensor.isSome = true) :
    l.control cfg s shouldEmit now ≠ some (l', .skip) := by
  intro h
  unfold control at h
  simp only at h
  split_ifs at h
  · cases h
  · obtain ⟨target, htarget⟩ := Option.isSome_iff_exists.mp ht
    rw [htarget] at h
    simp only at h
    split at h
    · cases h
    · rename_i heading hheading
      exact steer_ne_skip (fun hw => checkHeading_isSome (hh hw) hheading) hp h

end ControlLoop

namespace AutopilotSystem
section
variable [AngleMath]

/-- What is owed at one step: a tick that found the autopilot enabled comes to a rudder,
which is stored, or to an alarm, which disengages and commands a rudder of zero. -/
structure NeverSkips (p : AutopilotSystem) (e : AutopilotEvent) : Prop where
  decides : ∀ l st takenAt shouldEmit, e = .proceed → p.loop = some l →
    p.task = .thinking st takenAt shouldEmit → (p.step e).1.loop ≠ none ∧
      ∃ outcome, (p.step e).1.task = .writing outcome
  stores : ∀ l outcome, e = .proceed → p.loop = some l → p.task = .writing outcome →
    (∃ rudder error now outs, outcome = .steer rudder error now outs ∧
      (p.step e).1.state.lastRudderRad = rudder) ∨
    ∃ alarm left path text, outcome = .disengage alarm ∧
      (p.step e).1.state.enabled = false ∧ (p.step e).1.state.lastRudderRad = 0 ∧
      (p.step e).1.task =
        .emitting (emitRudder 0 :: emitNotification path "alarm" text :: left)

/-- A tick has commanded a rudder. -/
def HasCommanded (p : AutopilotSystem) (es : List AutopilotEvent) : Prop :=
  ∃ fs e, fs ++ [e] <+: es ∧
    (Machine.run step p fs).comesTo (fun _ _ _ outcome => outcome.command.isSome) = true

/-- The sensor of the mode has timed out, or there is a target, in route mode a heading, and
limits that are at least zero. -/
def Equipped (p : AutopilotSystem) (e : AutopilotEvent) : Prop :=
  match e, p.task with
  | .proceed, .thinking st takenAt _ =>
    st.sensorTimedOut takenAt p.config.sensorTimeoutSecs = true ∨
      (st.targetRad.isSome = true ∧ (st.mode = .route → st.knowsHeading = true) ∧
        0 ≤ p.config.maxRudderRad ∧ 0 ≤ p.config.integralLimit)
  | _, _ => True

instance (p : AutopilotSystem) (e : AutopilotEvent) : Decidable (Equipped p e) := by
  unfold Equipped
  generalize p.task = task
  exact match e, task with
    | .proceed, .thinking _ _ _ => inferInstanceAs (Decidable (_ ∨ _))
    | .proceed, .asleep | .proceed, .looking _ _ _ | .proceed, .writing _
    | .proceed, .emitting _ => isTrue trivial
    | .pass _, _ | .sensors _, _ | .call _, _ | .wake, _ => isTrue trivial

/-- What is read has been heard, and the loop has the limit of the configuration. -/
structure Provided (p : AutopilotSystem) : Prop where
  state : p.state.Heard
  task : ∀ st takenAt shouldEmit, p.task = .looking st takenAt shouldEmit ∨
    p.task = .thinking st takenAt shouldEmit → st.Heard
  limit : ∀ l ∈ p.loop, l.pid.integralLimit = p.config.integralLimit
  writing : p.task ≠ .writing .skip

omit [AngleMath] in
theorem provided_start (cfg : AutopilotConfig) (now : Instant) : Provided (start cfg now) := by
  refine ⟨fun _ h => absurd rfl h, fun _ _ _ h => ?_, fun l hl => ?_, fun h => nomatch h⟩
  · rcases h with h | h <;> cases h
  · obtain ⟨windFilter, -, hrest⟩ := Option.bind_eq_some_iff.mp hl
    obtain ⟨gust, -, rfl⟩ := Option.map_eq_some_iff.mp hrest
    rfl

variable {p : AutopilotSystem}

theorem control_limit {l l' : ControlLoop} {cfg : AutopilotConfig} {s : Snapshot}
    {shouldEmit : Bool} {now : Instant} {outcome : TickOutcome}
    (h : l.control cfg s shouldEmit now = some (l', outcome)) :
    l'.pid.integralLimit = l.pid.integralLimit := by
  rw [(ControlLoop.control_spec h).1.limit]
  obtain h | h := l.onMode_pid s.mode
  · rw [h]
  · rw [h]
    rfl

omit [AngleMath] in
theorem heard_write {st : AutopilotState} (h : st.Heard) (outcome : TickOutcome) :
    (write st outcome).Heard := by
  cases outcome <;> exact h

theorem Provided.proceed (hp : Provided p) : Provided p.proceed.1 := by
  have hno : ∀ (st : AutopilotState) (takenAt : Instant) (shouldEmit : Bool)
      (task : ControlTask), (∀ st takenAt shouldEmit, task ≠ .looking st takenAt shouldEmit) →
      (∀ st takenAt shouldEmit, task ≠ .thinking st takenAt shouldEmit) →
      task = .looking st takenAt shouldEmit ∨ task = .thinking st takenAt shouldEmit →
      st.Heard := by
    intro st takenAt shouldEmit task hl ht h
    exact (h.elim (hl _ _ _) (ht _ _ _)).elim
  have h := proceeds p
  generalize p.proceed.1 = q at h ⊢
  generalize p.proceed.2 = outs at h
  cases h with
  | idle => exact hp
  | looked hl ht =>
    refine ⟨hp.state, fun st takenAt shouldEmit h => ?_, hp.limit, fun h => ?_⟩
    · simp only at h
      split_ifs at h
      · cases h.resolve_left (by simp)
        exact hp.task _ _ _ (.inl ht)
      · rcases h with h | h <;> cases h
    · simp only at h
      split_ifs at h
  | panicked hl ht hc =>
    exact ⟨hp.state, fun _ _ _ => hno _ _ _ _ (by simp) (by simp), fun _ h => (by cases h),
      by simp⟩
  | skipped hl ht hc =>
    refine ⟨hp.state, fun _ _ _ => hno _ _ _ _ (by simp) (by simp), fun k hk => ?_, by simp⟩
    obtain rfl := Option.some.inj hk
    exact (control_limit hc).trans (hp.limit _ hl)
  | decided hl ht hc hne =>
    refine ⟨hp.state, fun _ _ _ => hno _ _ _ _ (by simp) (by simp), fun k hk => ?_, ?_⟩
    · obtain rfl := Option.some.inj hk
      exact (control_limit hc).trans (hp.limit _ hl)
    · simpa using hne
  | wrote hl ht =>
    exact ⟨heard_write hp.state _, fun _ _ _ => hno _ _ _ _ (by simp) (by simp), hp.limit,
      by simp⟩
  | finished hl ht =>
    exact ⟨hp.state, fun _ _ _ => hno _ _ _ _ (by simp) (by simp), hp.limit, by simp⟩
  | said hl ht =>
    exact ⟨hp.state, fun _ _ _ => hno _ _ _ _ (by simp) (by simp), hp.limit, by simp⟩

theorem Provided.step (hp : Provided p) (e : AutopilotEvent) : Provided (p.step e).1 := by
  cases e with
  | pass nanoseconds => exact ⟨hp.state, hp.task, hp.limit, hp.writing⟩
  | sensors delta => exact ⟨hp.state.receive p.now delta, hp.task, hp.limit, hp.writing⟩
  | call c =>
    change Provided (p.call c)
    unfold AutopilotSystem.call
    cases hcall : p.state.call c with
    | error _ => exact hp
    | ok st =>
      have hcalled := AutopilotState.called hcall
      refine ⟨fun path => ?_, hp.task, hp.limit, hp.writing⟩
      simp only [hcalled.seen, hcalled.values]
      exact hp.state path
  | wake =>
    change Provided p.wake
    unfold AutopilotSystem.wake
    split
    · rename_i l hl ht
      refine ⟨hp.state, fun st takenAt shouldEmit h => ?_, fun k hk => ?_, by simp⟩
      · rcases h with h | h
        · cases h
          exact hp.state
        · cases h
      · obtain rfl := Option.some.inj hk
        exact hp.limit l hl
    · exact hp
  | proceed => exact hp.proceed

/-- A tick with what it needs comes to a rudder or to an alarm. -/
theorem Provided.neverSkips (hp : Provided p) {e : AutopilotEvent} (he : Equipped p e) :
    NeverSkips p e := by
  constructor
  · rintro l st takenAt shouldEmit rfl hl ht
    simp only [Equipped, ht] at he
    have hheard := hp.task st takenAt shouldEmit (.inr ht)
    have hout : ∃ l' outcome, outcome ≠ .skip ∧
        l.control p.config (Snapshot.read p.config st takenAt) shouldEmit p.now =
          some (l', outcome) := by
      by_cases htimeout : st.sensorTimedOut takenAt p.config.sensorTimeoutSecs = true
      · refine ⟨((l.onMode st.mode).dropOut), .disengage (.dataTimeout st.mode), by simp, ?_⟩
        simp [ControlLoop.control, Snapshot.read, htimeout]
      · obtain ⟨htarget, hheading, hm, hi⟩ := he.resolve_left htimeout
        have hsensor := hheard.currentSensor (by simpa using htimeout)
        obtain ⟨⟨l', outcome⟩, hc⟩ := Option.isSome_iff_exists.mp
          (l.control_isSome hm ((hp.limit l hl).symm ▸ hi)
            (Snapshot.read p.config st takenAt) shouldEmit p.now)
        refine ⟨l', outcome, ?_, hc⟩
        rintro rfl
        refine ControlLoop.control_ne_skip htarget (fun hw => ?_) (fun _ => hsensor) hc
        cases hmode : st.mode with
        | wind => exact absurd hmode hw
        | compass =>
          rw [AutopilotState.currentSensor, hmode] at hsensor
          obtain ⟨v, hv⟩ := Option.isSome_iff_exists.mp hsensor
          simp only [AutopilotMode.sensorPath] at hv
          simp [Snapshot.read, hv]
        | route =>
          have hknown := hheading hmode
          simpa [Snapshot.read, AutopilotState.knowsHeading] using hknown
    obtain ⟨l', outcome, hne, hc⟩ := hout
    have hstep : p.proceed.1 = { p with loop := some l', task := .writing outcome } := by
      rw [proceed_thinking hl ht, think, hc]
      cases outcome with
      | skip => exact absurd rfl hne
      | disengage alarm => rfl
      | steer rudder error now outs => rfl
    change p.proceed.1.loop ≠ none ∧ ∃ outcome, p.proceed.1.task = .writing outcome
    rw [hstep]
    exact ⟨by simp, outcome, rfl⟩
  · rintro l outcome rfl hl ht
    change (∃ rudder error now outs, outcome = .steer rudder error now outs ∧
        p.proceed.1.state.lastRudderRad = rudder) ∨
      ∃ alarm left path text, outcome = .disengage alarm ∧
        p.proceed.1.state.enabled = false ∧ p.proceed.1.state.lastRudderRad = 0 ∧
        p.proceed.1.task = .emitting (emitRudder 0 :: emitNotification path "alarm" text :: left)
    rw [proceed_writing hl ht]
    cases outcome with
    | skip => exact absurd ht hp.writing
    | steer rudder error now outs => exact .inl ⟨rudder, error, now, outs, rfl, rfl⟩
    | disengage alarm =>
      cases alarm with
      | dataTimeout mode => exact .inr ⟨_, _, _, _, rfl, rfl, rfl, rfl⟩
      | headingFailure => exact .inr ⟨_, _, _, _, rfl, rfl, rfl, rfl⟩

end

section
attribute [local instance] AngleMath.plain

abbrev measured (path : String) (value : ℚ) : AutopilotEvent :=
  .sensors (.selfVessel [⟨Source.nmea0183 "gps" "HC", 0, [⟨path, .ofF64 value⟩]⟩])

/-- A tick that has nothing to emit, up to where the task sleeps again. -/
abbrev silentTick : List AutopilotEvent := [.wake, .proceed, .proceed, .proceed, .proceed]

/-- The autopilot has steered by the apparent wind for one tick. -/
abbrev steeredByWind : List AutopilotEvent :=
  [measured "environment.wind.angleApparent" 0, .call (.setTarget (1 / 10)),
    .call (.setMode "wind"), .call .engage] ++ silentTick

/-- Then it is to follow a route, of which there is a bearing but no heading. -/
abbrev routeWithoutHeading : List AutopilotEvent :=
  steeredByWind ++ [.call (.setMode "route"),
    measured "navigation.course.calcValues.bearingTrackTrue" (1 / 10), .wake, .proceed]

end

end AutopilotSystem

end SignalK

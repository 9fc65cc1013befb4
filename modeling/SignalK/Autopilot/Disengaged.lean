import SignalK.Autopilot.Tick

/-! A disengaged autopilot does not steer, and starts afresh when it is engaged again:
as long as no call comes into the middle of a tick, and the loop has something to forget. -/
namespace SignalK
open AutopilotOutput

/-- No other rudder is commanded than zero. -/
def OnlyZero (outputs : List AutopilotOutput) : Bool :=
  outputs.all fun output => output.rudders.all fun r => decide (r = Json.ofF64 0)

namespace ControlTask

/-- Nothing of a steering tick is to come. -/
def quiet (task : ControlTask) : Bool :=
  !task.midTick &&
    match task with
    | emitting left => OnlyZero left
    | _ => true

end ControlTask

namespace AutopilotSystem
section
variable [AngleMath]

/-- What is owed at one step of a run. -/
structure Rests (p : AutopilotSystem) (e : AutopilotEvent) : Prop where
  still : p.engagement = .resting → OnlyZero (p.step e).2 = true
  afresh : e = .wake → p.task.isAsleep = true → p.engagement = .resumed → ∀ l ∈ p.loop,
    (l.onMode p.state.mode).pid.integral = 0 ∧ p.state.lastTickAt = none ∧
      p.state.lastErrorRad = 0

/-- Calls that disengage or change the mode come between ticks. The first tick after a rest
is one in another mode than the last tick, or one that finds nothing to forget. -/
def InOrder (p : AutopilotSystem) : AutopilotEvent → Prop
  | .call c =>
    (c.disengages = true → p.task.quiet = true) ∧
      ((p.call c).state.mode ≠ p.state.mode → p.task.midTick = false)
  | .wake =>
    p.task.isAsleep = true → p.engagement = .resumed → ∀ l ∈ p.loop,
      l.prevMode ≠ some p.state.mode ∨ (l.pid.integral = 0 ∧ p.state.lastErrorRad = 0)
  | _ => True

instance (p : AutopilotSystem) : (e : AutopilotEvent) → Decidable (InOrder p e)
  | .call _ => inferInstanceAs (Decidable ((_ → _) ∧ (_ → _)))
  | .wake => inferInstanceAs (Decidable (_ → _ → ∀ l ∈ p.loop, _ ∨ _))
  | .pass _ | .sensors _ | .proceed => isTrue trivial

/-- What a tick under way has seen is still the mode, and after it has computed its mode
is the one of the loop. -/
def InMode (p : AutopilotSystem) : Prop :=
  match p.task with
  | .looking st _ _ => st.enabled = true → st.mode = p.state.mode
  | .thinking st _ _ => st.mode = p.state.mode
  | .writing _ => ∀ l ∈ p.loop, l.prevMode = some p.state.mode
  | _ => True

/-- Between ticks, an error that is left is one of the mode of the loop. -/
structure Settled (p : AutopilotSystem) : Prop where
  resting : p.engagement = .resting → p.state.enabled = false
  quiet : p.engagement ≠ .ordinary → p.task.quiet = true ∧ p.state.lastTickAt = none
  inMode : p.InMode
  error : ∀ l ∈ p.loop, l.prevMode ≠ some p.state.mode → p.state.lastErrorRad = 0

omit [AngleMath] in
theorem settled_start (cfg : AutopilotConfig) (now : Instant) : Settled (start cfg now) :=
  ⟨fun h => (by cases h), fun h => absurd rfl h, trivial, fun _ _ _ => rfl⟩

variable {p : AutopilotSystem}

/-- A call leaves the task where it is. -/
theorem Settled.call (hp : Settled p) {c : ProviderCall} (hc : InOrder p (.call c)) :
    Settled (p.call c) := by
  obtain ⟨hquiet, hmode⟩ := hc
  unfold AutopilotSystem.call at hmode ⊢
  cases hcall : p.state.call c with
  | error e => exact hp
  | ok st =>
    have hcalled := AutopilotState.called hcall
    rw [hcall] at hmode
    simp only at hmode ⊢
    refine ⟨fun h => ?_, fun h => ?_, ?_, fun l hl hne => ?_⟩
    · show st.enabled = false
      rw [hcalled.enabled]
      by_cases hd : c.disengages = true
      · rw [if_pos hd]
      · have ha : p.engagement.after c = .resting := h
        rw [Engagement.after, if_neg hd] at ha
        split_ifs at ha with he
        have hne : ¬c.engages = true := fun hce => he ⟨hce, ha⟩
        rw [if_neg hd, if_neg hne]
        exact hp.resting ha
    · by_cases hd : c.disengages = true
      · exact ⟨hquiet hd, hcalled.rests hd⟩
      · have hbefore : p.engagement ≠ .ordinary := by
          intro ho
          apply h
          simp [Engagement.after, hd, ho]
        obtain ⟨hq, hlast⟩ := hp.quiet hbefore
        refine ⟨hq, ?_⟩
        obtain ht | ht := hcalled.tick
        · exact ht.trans hlast
        · exact ht
    · by_cases hm : st.mode = p.state.mode
      · have hin := hp.inMode
        unfold InMode at hin ⊢
        simp only [hm]
        exact hin
      · have hmid := hmode hm
        unfold InMode
        cases ht : p.task with
        | looking seen takenAt shouldEmit =>
          rw [ht] at hmid
          intro he
          rw [ControlTask.midTick, he] at hmid
          cases hmid
        | thinking seen takenAt shouldEmit =>
          rw [ht] at hmid
          cases hmid
        | writing outcome =>
          rw [ht] at hmid
          cases hmid
        | asleep => trivial
        | emitting left => trivial
    · by_cases hm : st.mode = p.state.mode
      · have hzero := hp.error l hl (hm ▸ hne)
        obtain he | he := hcalled.error
        · exact he.trans hzero
        · exact he
      · exact hcalled.moved hm

omit [AngleMath] in
theorem Settled.sensors (hp : Settled p) (delta : Delta) : Settled (p.sensors delta) := by
  obtain ⟨seen, values, actual, actualSeen, h⟩ := p.state.receive_frame p.now delta
  unfold AutopilotSystem.sensors
  rw [h]
  exact ⟨hp.resting, hp.quiet, hp.inMode, hp.error⟩

omit [AngleMath] in
theorem Settled.wake (hp : Settled p) : Settled p.wake := by
  unfold AutopilotSystem.wake
  split
  · rename_i l hl ht
    refine ⟨fun h => ?_, fun h => ?_, fun _ => rfl, fun l' hl' hne => ?_⟩
    · by_cases hr : p.state.enabled = true ∧ p.engagement = .resumed
      · simp [hr] at h
      · have hrest : p.engagement = .resting := by simpa [hr] using h
        exact hp.resting hrest
    · by_cases hr : p.state.enabled = true ∧ p.engagement = .resumed
      · simp [hr] at h
      · have hbefore : p.engagement ≠ .ordinary := by simpa [hr] using h
        have hoff : p.state.enabled = false := by
          cases he : p.engagement with
          | ordinary => exact absurd he hbefore
          | resting => exact hp.resting he
          | resumed => simpa [he] using hr
        exact ⟨by simp [ControlTask.quiet, ControlTask.midTick, hoff], (hp.quiet hbefore).2⟩
    · obtain rfl := Option.some.inj hl'
      exact hp.error l hl hne
  · exact hp

theorem Settled.think (hp : Settled p) {st : AutopilotState} {takenAt : Instant}
    {shouldEmit : Bool} (ht : p.task = .thinking st takenAt shouldEmit) (l : ControlLoop) :
    Settled (p.think l (Snapshot.read p.config st takenAt) shouldEmit) := by
  have hordinary : p.engagement = .ordinary := by
    by_contra hne
    have hq := (hp.quiet hne).1
    rw [ht] at hq
    cases hq
  have hmode : st.mode = p.state.mode := by
    have hin := hp.inMode
    rw [InMode, ht] at hin
    exact hin
  have hresting : p.engagement ≠ .resting := by simp [hordinary]
  unfold AutopilotSystem.think
  cases hc : l.control p.config (Snapshot.read p.config st takenAt) shouldEmit p.now with
  | none =>
    exact ⟨fun h => absurd h hresting, fun h => absurd hordinary h, trivial, fun _ h => by cases h⟩
  | some out =>
    obtain ⟨l', outcome⟩ := out
    have hprev : l'.prevMode = some p.state.mode := by
      have hcarries := (ControlLoop.control_spec hc).1
      rw [hcarries.prevMode, ControlLoop.onMode_prevMode, ← hmode]
      rfl
    have herror : ∀ k ∈ some l', k.prevMode ≠ some p.state.mode → p.state.lastErrorRad = 0 := by
      intro k hk hne
      obtain rfl := Option.some.inj hk
      exact absurd hprev hne
    have hloop : ∀ k ∈ some l', k.prevMode = some p.state.mode := by
      intro k hk
      obtain rfl := Option.some.inj hk
      exact hprev
    cases outcome with
    | skip =>
      exact ⟨fun h => absurd h hresting, fun h => absurd hordinary h, trivial, herror⟩
    | disengage alarm =>
      exact ⟨fun h => absurd h hresting, fun h => absurd hordinary h, hloop, herror⟩
    | steer rudder error now outs =>
      exact ⟨fun h => absurd h hresting, fun h => absurd hordinary h, hloop, herror⟩

omit [AngleMath] in
theorem write_mode (st : AutopilotState) (outcome : TickOutcome) :
    (write st outcome).mode = st.mode := by
  cases outcome <;> rfl

/-- The rest of a tick keeps the invariant and is still while the autopilot rests. -/
theorem Settled.proceed (hp : Settled p) :
    Settled p.proceed.1 ∧ (p.engagement = .resting → OnlyZero p.proceed.2 = true) := by
  cases hl : p.loop with
  | none =>
    rw [proceed_dead hl]
    exact ⟨hp, fun _ => rfl⟩
  | some l =>
    cases ht : p.task with
    | asleep =>
      rw [proceed_asleep ht]
      exact ⟨hp, fun _ => rfl⟩
    | looking st takenAt shouldEmit =>
      rw [proceed_looking hl ht]
      refine ⟨⟨hp.resting, fun h => ⟨?_, (hp.quiet h).2⟩, ?_, hp.error⟩, fun _ => ?_⟩
      · have hq := (hp.quiet h).1
        have hoff : st.enabled = false := by
          simpa [ht, ControlTask.quiet, ControlTask.midTick] using hq
        simp [hoff, ControlTask.quiet, ControlTask.midTick]
      · have hin := hp.inMode
        rw [InMode, ht] at hin
        unfold InMode
        cases he : st.enabled with
        | true => exact hin he
        | false => trivial
      · cases shouldEmit with
        | true => simp [OnlyZero]
        | false => rfl
    | thinking st takenAt shouldEmit =>
      rw [proceed_thinking hl ht]
      exact ⟨hp.think ht l, fun _ => rfl⟩
    | writing outcome =>
      rw [proceed_writing hl ht]
      have hordinary : p.engagement = .ordinary := by
        by_contra hne
        have hq := (hp.quiet hne).1
        rw [ht] at hq
        cases hq
      have hin := hp.inMode
      rw [InMode, ht] at hin
      refine ⟨⟨fun h => ?_, fun h => absurd hordinary h, trivial, fun k hk hne => ?_⟩, fun _ => rfl⟩
      · have hrest : p.engagement = .resting := h
        rw [hordinary] at hrest
        cases hrest
      · rw [write_mode] at hne
        exact absurd (hin k hk) hne
    | emitting left =>
      cases left with
      | nil =>
        rw [proceed_emitted hl ht]
        exact ⟨⟨hp.resting, fun h => ⟨rfl, (hp.quiet h).2⟩, trivial, hp.error⟩, fun _ => rfl⟩
      | cons output left =>
        rw [proceed_emitting hl ht]
        have hzero : p.engagement ≠ .ordinary →
            OnlyZero [output] = true ∧ OnlyZero left = true := by
          intro h
          have hq := (hp.quiet h).1
          simpa [ht, ControlTask.quiet, ControlTask.midTick, OnlyZero] using hq
        refine ⟨⟨hp.resting, fun h => ⟨?_, (hp.quiet h).2⟩, trivial, hp.error⟩, fun h => ?_⟩
        · simpa [ControlTask.quiet, ControlTask.midTick] using (hzero h).2
        · exact (hzero (by simp [h])).1

theorem Settled.step (hp : Settled p) {e : AutopilotEvent} (he : InOrder p e) :
    Settled (p.step e).1 := by
  cases e with
  | pass nanoseconds => exact ⟨hp.resting, hp.quiet, hp.inMode, hp.error⟩
  | sensors delta => exact hp.sensors delta
  | call c => exact hp.call he
  | wake => exact hp.wake
  | proceed => exact hp.proceed.1

theorem Settled.rests (hp : Settled p) {e : AutopilotEvent} (he : InOrder p e) : Rests p e := by
  refine ⟨fun h => ?_, fun hw hasleep hresumed l hl => ?_⟩
  · cases e with
    | proceed => exact hp.proceed.2 h
    | pass nanoseconds => rfl
    | sensors delta => rfl
    | call c => rfl
    | wake => rfl
  · subst hw
    have hlast := (hp.quiet (by simp [hresumed])).2
    obtain hne | ⟨hintegral, herror⟩ := he hasleep hresumed l hl
    · exact ⟨ControlLoop.onMode_integral hne, hlast, hp.error l hl hne⟩
    · refine ⟨?_, hlast, herror⟩
      obtain h | h := l.onMode_pid p.state.mode
      · rw [h]
        exact hintegral
      · rw [h]
        rfl

/-- In every run whose calls are in order, a disengaged autopilot commands no rudder but
zero, and the first tick after it was engaged again has forgotten the ticks before. -/
theorem disengaged_rests {cfg : AutopilotConfig} {now : Instant} {es : List AutopilotEvent}
    (h : Machine.Meets step InOrder (start cfg now) es) :
    ∀ fs e, fs ++ [e] <+: es → Rests (Machine.run step (start cfg now) fs) e := by
  have hrests : Machine.Meets step Rests (start cfg now) es :=
    Machine.meets_of_inv (fun _ _ hp he => hp.step he) (fun _ _ hp he => hp.rests he)
      (settled_start cfg now) h
  exact Machine.meets_iff_prefix.mp hrests

end

section
attribute [local instance] AngleMath.plain

/-- The defaults, with a command emitted on every tick. -/
abbrev everyTick : AutopilotConfig := { AutopilotConfig.default with outputRateHz := 10 }

abbrev sensorDelta (path : String) (value : ℚ) : Delta :=
  .selfVessel [⟨Source.nmea0183 "gps" "HC", 0, [⟨path, .ofF64 value⟩]⟩]

/-- Engaged by compass, a second later a tick begins. -/
abbrev engagedByCompass : List AutopilotEvent :=
  [.sensors (sensorDelta "navigation.headingMagnetic" 0), .call (.setTarget (1 / 10)), .call .engage,
    .pass 1000000000, .wake]

/-- A steering tick runs to its end, the autopilot rests and is engaged again by wind. -/
abbrev resumedByWind : List AutopilotEvent :=
  engagedByCompass ++ [.proceed, .proceed, .proceed, .proceed, .proceed, .call .disengage,
    .call (.setMode "wind"), .sensors (sensorDelta "environment.wind.angleApparent" 0),
    .call .engage]

theorem disengaged_rests_by_wind :
    let p := Machine.run step (start everyTick 0) resumedByWind
    p.engagement = .resumed ∧ (∃ l ∈ p.loop, l.pid.integral = 1 / 100) ∧ Rests p .wake := by
  have hmeets : Machine.Meets step InOrder (start everyTick 0) (resumedByWind ++ [.wake]) := by
    decide +kernel
  have hp : (Machine.run step (start everyTick 0) resumedByWind).engagement = .resumed ∧
      ∃ l ∈ (Machine.run step (start everyTick 0) resumedByWind).loop,
        l.pid.integral = 1 / 100 := by
    decide +kernel
  exact ⟨hp.1, hp.2, disengaged_rests hmeets _ _ List.prefix_rfl⟩

/-- A call that comes after the snapshot does not stop the tick, and a rest in the same
mode leaves the integral and the error in place. -/
theorem steers_after_disengage :
    ¬Rests (Machine.run step (start everyTick 0) (engagedByCompass ++ [.proceed, .call .disengage,
      .proceed, .proceed])) .proceed ∧
    ¬Rests (Machine.run step (start everyTick 0) (engagedByCompass ++ [.proceed, .proceed,
      .proceed, .proceed, .proceed, .call .disengage, .call .engage])) .wake := by
  constructor
  · intro h
    exact absurd (h.still (by decide +kernel)) (by decide +kernel)
  · intro h
    let p := Machine.run step (start everyTick 0) (engagedByCompass ++ [.proceed, .proceed,
      .proceed, .proceed, .proceed, .call .disengage, .call .engage])
    have hl : ∃ l ∈ p.loop, (l.onMode p.state.mode).pid.integral ≠ 0 := by decide +kernel
    obtain ⟨l, hl, hne⟩ := hl
    exact hne (h.afresh rfl (by decide +kernel) (by decide +kernel) l hl).1

end

end AutopilotSystem

end SignalK

import SignalK.Autopilot.Tick

/-! How old a heading may be that the autopilot steers by. The timeout looks at the sensor
of the mode; the heading comes from a path of its own, or from before a glitch. -/
namespace SignalK

namespace AutopilotState

/-- Received, and within the timeout in whole seconds. -/
def fresh (st : AutopilotState) (now : Instant) (timeoutSecs : Nat) (path : String) : Bool :=
  (st.sensorLastSeen.lookup path).any fun last => decide (wholeSecs (now - last) ≤ timeoutSecs)

/-- Received, but too long ago. -/
def stale (st : AutopilotState) (now : Instant) (timeoutSecs : Nat) (path : String) : Bool :=
  (st.sensorLastSeen.lookup path).any fun last => decide (timeoutSecs < wholeSecs (now - last))

theorem sensorTimedOut_eq (st : AutopilotState) (now : Instant) (timeoutSecs : Nat) :
    st.sensorTimedOut now timeoutSecs = !st.fresh now timeoutSecs st.mode.sensorPath := by
  unfold sensorTimedOut fresh
  cases st.sensorLastSeen.lookup st.mode.sensorPath with
  | none => rfl
  | some last => simp only [Option.any_some, ← decide_not, not_le]

/-- Where the loop takes its heading from: the magnetic one once there was any. -/
def headingPath (st : AutopilotState) : String :=
  if (st.sensorValues.lookup "navigation.headingMagnetic").isSome then
    "navigation.headingMagnetic"
  else "navigation.headingTrue"

theorem read_heading (cfg : AutopilotConfig) (st : AutopilotState) (now : Instant) :
    (Snapshot.read cfg st now).heading = st.sensorValues.lookup st.headingPath := by
  unfold Snapshot.read headingPath
  cases h : st.sensorValues.lookup "navigation.headingMagnetic" with
  | none => rfl
  | some v => simp [h]

/-- Every heading that is stored was received when it says. -/
def Tracks (st : AutopilotState) (now : Instant) (headings : List (Instant × ℚ)) : Prop :=
  ∀ path ∈ AutopilotSystem.headingPaths,
    (st.sensorLastSeen.lookup path = none ∧ st.sensorValues.lookup path = none) ∨
    ∃ t v, st.sensorLastSeen.lookup path = some t ∧ st.sensorValues.lookup path = some v ∧
      t ≤ now ∧ (t, v) ∈ headings

theorem Tracks.mono {st : AutopilotState} {now now' : Instant} {headings more : List (Instant × ℚ)}
    (h : Tracks st now headings) (hnow : now ≤ now') : Tracks st now' (headings ++ more) := by
  intro path hp
  obtain hnone | ⟨t, v, hseen, hval, ht, hmem⟩ := h path hp
  · exact .inl hnone
  · exact .inr ⟨t, v, hseen, hval, ht.trans hnow, List.mem_append_left _ hmem⟩

theorem Tracks.congr {st st' : AutopilotState} {now : Instant} {headings : List (Instant × ℚ)}
    (h : Tracks st now headings) (hseen : st'.sensorLastSeen = st.sensorLastSeen)
    (hvalues : st'.sensorValues = st.sensorValues) : Tracks st' now headings := by
  intro path hp
  rw [hseen, hvalues]
  exact h path hp

theorem tracks_receiveValue {st : AutopilotState} {now : Instant} {headings : List (Instant × ℚ)}
    (h : Tracks st now headings) (source : Source) (pv : PathValue) :
    Tracks (st.receiveValue now source pv) now
      (headings ++ ((if pv.path ∈ AutopilotSystem.headingPaths then pv.value.asF64
        else none).toList.map (now, ·))) := by
  unfold receiveValue
  cases hv : pv.value.asF64 with
  | none => exact h.mono le_rfl
  | some v =>
    simp only
    by_cases hrudder : pv.path = "steering.rudderAngle"
    · rw [if_pos hrudder]
      split_ifs
      · exact h.mono le_rfl
      · exact h.mono le_rfl
      · exact (h.congr rfl rfl).mono le_rfl
      · exact (h.congr rfl rfl).mono le_rfl
    · rw [if_neg hrudder]
      intro path hp
      by_cases he : path = pv.path
      · refine .inr ⟨now, v, ?_, ?_, le_rfl, ?_⟩
        · rw [updateSensor, HashMap.lookup_insert, if_pos he]
        · rw [updateSensor, HashMap.lookup_insert, if_pos he]
        · rw [if_pos (he ▸ hp)]
          simp
      · rw [updateSensor, HashMap.lookup_insert, HashMap.lookup_insert, if_neg he, if_neg he]
        obtain hnone | ⟨t, w, hseen, hval, ht, hmem⟩ := h path hp
        · exact .inl hnone
        · exact .inr ⟨t, w, hseen, hval, ht, List.mem_append_left _ hmem⟩

theorem tracks_receive {st : AutopilotState} {now : Instant} {headings : List (Instant × ℚ)}
    (h : Tracks st now headings) (delta : Delta) :
    Tracks (st.receive now delta) now
      (headings ++ (AutopilotSystem.headingsOf delta).map (now, ·)) := by
  have hvalues : delta.pathValues =
      (delta.updates.flatMap fun update => update.values.map (update.source, ·)).map Prod.snd := by
    simp [Delta.pathValues, List.map_flatMap, Function.comp_def]
  rw [receive_eq, AutopilotSystem.headingsOf, hvalues]
  induction delta.updates.flatMap fun update => update.values.map (update.source, ·)
    generalizing st headings with
  | nil => simpa using h
  | cons e es ih =>
    have hrest := ih (tracks_receiveValue h e.1 e.2)
    rw [List.foldl_cons, List.map_cons, List.filterMap_cons]
    cases hf : if e.2.path ∈ AutopilotSystem.headingPaths then e.2.value.asF64 else none with
    | none => simpa [hf] using hrest
    | some v => simpa [hf, List.append_assoc] using hrest

/-- A stored heading is as old as its path. -/
theorem Tracks.received {st : AutopilotState} {now : Instant} {headings : List (Instant × ℚ)}
    (h : Tracks st now headings) {path : String} (hp : path ∈ AutopilotSystem.headingPaths)
    {v : ℚ} (hv : st.sensorValues.lookup path = some v) :
    ∃ t, st.sensorLastSeen.lookup path = some t ∧ t ≤ now ∧ (t, v) ∈ headings := by
  obtain ⟨-, hnone⟩ | ⟨t, w, hseen, hval, ht, hmem⟩ := h path hp
  · rw [hv] at hnone
    cases hnone
  · obtain rfl := Option.some.inj (hv.symm.trans hval)
    exact ⟨t, hseen, ht, hmem⟩

theorem headingPath_mem (st : AutopilotState) : st.headingPath ∈ AutopilotSystem.headingPaths := by
  unfold headingPath AutopilotSystem.headingPaths
  split_ifs <;> simp

/-- While the magnetic heading is fresh, it is the one in use. -/
theorem Tracks.headingPath_eq {st : AutopilotState} {now : Instant}
    {headings : List (Instant × ℚ)} (h : Tracks st now headings) {timeoutSecs : Nat}
    (hf : st.fresh now timeoutSecs "navigation.headingMagnetic" = true) :
    st.headingPath = "navigation.headingMagnetic" := by
  obtain ⟨hnone, -⟩ | ⟨t, v, -, hval, -⟩ := h "navigation.headingMagnetic" List.mem_cons_self
  · rw [fresh, hnone] at hf
    cases hf
  · rw [headingPath, hval]
    rfl

end AutopilotState

namespace AutopilotSystem

/-- The value came in as a heading within the timeout before that time. -/
def recently (p : AutopilotSystem) (takenAt : Instant) (v : ℚ) : Bool :=
  p.headings.any fun r => decide (r.2 = v ∧ r.1 ≤ takenAt ∧
    wholeSecs (takenAt - r.1) ≤ p.config.sensorTimeoutSecs)

/-- One of the two headings is fresh. -/
def headingFresh (p : AutopilotSystem) (st : AutopilotState) (takenAt : Instant) : Bool :=
  headingPaths.any (st.fresh takenAt p.config.sensorTimeoutSecs)

section
variable [AngleMath]

/-- What is owed at one step: no rudder but zero by a heading that is not recent, and no
timeout while a heading is. -/
structure SteersFresh (p : AutopilotSystem) (e : AutopilotEvent) : Prop where
  recent : ∀ l st takenAt outcome rudder, Computes p e l st takenAt outcome →
    outcome.command = some rudder → rudder ≠ 0 → st.mode ≠ .wind →
    ∃ v, l.trusted p.config (Snapshot.read p.config st takenAt) p.now = some v ∧
      p.recently takenAt v = true
  engaged : ∀ l st takenAt mode,
    Computes p e l st takenAt (.disengage (.dataTimeout mode)) → st.mode ≠ .wind →
    p.headingFresh st takenAt = false

/-- In compass mode the true heading is not the only fresh one. In route mode the bearing
is fresh while a heading is, and the heading in use is not stale while the bearing is fresh. -/
def Sourced (p : AutopilotSystem) (st : AutopilotState) (takenAt : Instant) : Bool :=
  let fresh := st.fresh takenAt p.config.sensorTimeoutSecs
  match st.mode with
  | .compass => !fresh "navigation.headingTrue" || fresh "navigation.headingMagnetic"
  | .route =>
    (!p.headingFresh st takenAt || fresh "navigation.course.calcValues.bearingTrackTrue") &&
      (!fresh "navigation.course.calcValues.bearingTrackTrue" ||
        !st.stale takenAt p.config.sensorTimeoutSecs st.headingPath)
  | .wind => true

/-- A heading that is taken for a glitch leaves one to fall back to that is recent itself. -/
def Plausible (p : AutopilotSystem) (l : ControlLoop) (st : AutopilotState) (takenAt : Instant) :
    Prop :=
  ∀ h ∈ st.sensorValues.lookup st.headingPath,
    ∀ prev ∈ (l.onMode st.mode).headingPlausibility.prevValue,
      HeadingPlausibility.within |Pd.normalizeAngle (h - prev)| p.config.maxHeadingRateRadPerSec
          (tickDt p.config st.lastTickAt p.now) = true ∨
        p.recently takenAt prev = true

instance (p : AutopilotSystem) (l : ControlLoop) (st : AutopilotState) (takenAt : Instant) :
    Decidable (Plausible p l st takenAt) := by
  unfold Plausible
  infer_instance

/-- The condition on a tick that is about to compute. -/
def Guarded (p : AutopilotSystem) (e : AutopilotEvent) : Prop :=
  match e, p.loop, p.task with
  | .proceed, some l, .thinking st takenAt _ =>
    Sourced p st takenAt = true ∧
      (st.mode ≠ .wind → st.fresh takenAt p.config.sensorTimeoutSecs st.mode.sensorPath = true →
        Plausible p l st takenAt)
  | _, _, _ => True

instance (p : AutopilotSystem) (e : AutopilotEvent) : Decidable (Guarded p e) := by
  unfold Guarded
  split <;> infer_instance

/-- The headings in the state, and in one that a tick has read, are those received. -/
structure Known (p : AutopilotSystem) : Prop where
  state : p.state.Tracks p.now p.headings
  task : ∀ st takenAt shouldEmit, p.task = .looking st takenAt shouldEmit ∨
    p.task = .thinking st takenAt shouldEmit → st.Tracks takenAt p.headings

omit [AngleMath] in
theorem known_start (cfg : AutopilotConfig) (now : Instant) : Known (start cfg now) :=
  ⟨fun _ _ => .inl ⟨rfl, rfl⟩, fun _ _ _ h => by rcases h with h | h <;> cases h⟩

variable {p : AutopilotSystem}

theorem Known.proceed (hp : Known p) : Known p.proceed.1 := by
  cases hl : p.loop with
  | none =>
    rw [proceed_dead hl]
    exact hp
  | some l =>
    cases ht : p.task with
    | asleep =>
      rw [proceed_asleep ht]
      exact hp
    | looking st takenAt shouldEmit =>
      rw [proceed_looking hl ht]
      refine ⟨hp.state, fun st' takenAt' shouldEmit' h => ?_⟩
      simp only at h
      split_ifs at h
      · obtain h | h := h
        · cases h
        · cases h
          exact hp.task _ _ _ (.inl ht)
      · rcases h with h | h <;> cases h
    | thinking st takenAt shouldEmit =>
      rw [proceed_thinking hl ht]
      unfold think
      split
      · exact ⟨hp.state, fun _ _ _ h => by rcases h with h | h <;> cases h⟩
      · exact ⟨hp.state, fun _ _ _ h => by rcases h with h | h <;> cases h⟩
      · exact ⟨hp.state, fun _ _ _ h => by rcases h with h | h <;> cases h⟩
    | writing outcome =>
      rw [proceed_writing hl ht]
      refine ⟨hp.state.congr ?_ ?_, fun _ _ _ h => by rcases h with h | h <;> cases h⟩
      · cases outcome <;> rfl
      · cases outcome <;> rfl
    | emitting left =>
      cases left with
      | nil =>
        rw [proceed_emitted hl ht]
        exact ⟨hp.state, fun _ _ _ h => by rcases h with h | h <;> cases h⟩
      | cons output left =>
        rw [proceed_emitting hl ht]
        exact ⟨hp.state, fun _ _ _ h => by rcases h with h | h <;> cases h⟩

theorem Known.step (hp : Known p) (e : AutopilotEvent) : Known (p.step e).1 := by
  cases e with
  | pass nanoseconds =>
    have h : p.state.Tracks (p.now + nanoseconds) (p.headings ++ []) :=
      hp.state.mono (Nat.le_add_right p.now nanoseconds)
    rw [List.append_nil] at h
    exact ⟨h, hp.task⟩
  | sensors delta =>
    exact ⟨AutopilotState.tracks_receive hp.state delta,
      fun st takenAt shouldEmit h => (hp.task st takenAt shouldEmit h).mono le_rfl⟩
  | call c =>
    simp only [AutopilotSystem.step, AutopilotSystem.call]
    cases hc : p.state.call c with
    | error e => exact hp
    | ok st =>
      have hcalled := AutopilotState.called hc
      exact ⟨hp.state.congr hcalled.seen hcalled.values, hp.task⟩
  | wake =>
    simp only [AutopilotSystem.step, AutopilotSystem.wake]
    split
    · refine ⟨hp.state, fun st takenAt shouldEmit h => ?_⟩
      obtain h | h := h
      · cases h
        exact hp.state
      · cases h
    · exact hp
  | proceed => exact hp.proceed

/-- A tick steers by the heading of its snapshot or, in a glitch, by the one before. -/
theorem trusted_cases {l : ControlLoop} {cfg : AutopilotConfig} {s : Snapshot} {now : Instant}
    {v : ℚ} (h : l.trusted cfg s now = some v) :
    ∃ heading, s.heading = some heading ∧ (v = heading ∨
      (l.onMode s.mode).headingPlausibility.prevValue = some v ∧
        HeadingPlausibility.within |Pd.normalizeAngle (heading - v)| cfg.maxHeadingRateRadPerSec
          (tickDt cfg s.lastTick now) = false) := by
  unfold ControlLoop.trusted ControlLoop.checkHeading at h
  cases hs : s.heading with
  | none =>
    rw [hs] at h
    cases h
  | some heading =>
    rw [hs] at h
    refine ⟨heading, rfl, ?_⟩
    simp only [HeadingPlausibility.check] at h
    cases hprev : (l.onMode s.mode).headingPlausibility.prevValue with
    | none =>
      rw [hprev] at h
      exact .inl (Option.some.inj h).symm
    | some prev =>
      rw [hprev] at h
      simp only at h
      cases hwithin : HeadingPlausibility.within |Pd.normalizeAngle (heading - prev)|
          cfg.maxHeadingRateRadPerSec (tickDt cfg s.lastTick now) with
      | true =>
        rw [hwithin] at h
        exact .inl (Option.some.inj h).symm
      | false =>
        rw [hwithin] at h
        simp only [Bool.false_eq_true, if_false] at h
        split_ifs at h
        · cases h
        · obtain rfl : prev = v := Option.some.inj h
          exact .inr ⟨rfl, hwithin⟩

omit [AngleMath] in
/-- In a mode that steers by a heading, the one in use is fresh as long as there is no timeout. -/
theorem Known.fresh_heading (hp : Known p) {st : AutopilotState} {takenAt : Instant}
    {shouldEmit : Bool} (ht : p.task = .thinking st takenAt shouldEmit) (hw : st.mode ≠ .wind)
    (hs : Sourced p st takenAt = true)
    (hf : st.fresh takenAt p.config.sensorTimeoutSecs st.mode.sensorPath = true) {v : ℚ}
    (hv : st.sensorValues.lookup st.headingPath = some v) : p.recently takenAt v = true := by
  have htracks := hp.task st takenAt shouldEmit (.inr ht)
  obtain ⟨t, hseen, hbefore, hmem⟩ := htracks.received st.headingPath_mem hv
  have hage : wholeSecs (takenAt - t) ≤ p.config.sensorTimeoutSecs := by
    cases hm : st.mode with
    | compass =>
      rw [hm] at hf
      have hpath := htracks.headingPath_eq hf
      rw [hpath] at hseen
      simpa [AutopilotState.fresh, AutopilotMode.sensorPath, hseen] using hf
    | route =>
      rw [hm] at hf
      simp only [Sourced, hm, Bool.and_eq_true, Bool.or_eq_true, Bool.not_eq_true'] at hs
      obtain hn | hstale := hs.2
      · rw [AutopilotMode.sensorPath, hn] at hf
        cases hf
      · simpa [AutopilotState.stale, hseen] using hstale
    | wind => exact absurd hm hw
  exact List.any_eq_true.mpr ⟨(t, v), hmem, by simpa using ⟨hbefore, hage⟩⟩

theorem Known.steersFresh (hp : Known p) {e : AutopilotEvent} (he : Guarded p e) :
    SteersFresh p e := by
  constructor
  · rintro l st takenAt outcome rudder ⟨rfl, hl, shouldEmit, l', ht, hc⟩ hcommand hne hw
    have hguard := he
    simp only [Guarded, hl, ht] at hguard
    obtain ⟨hs, hplausible⟩ := hguard
    obtain ⟨-, ⟨-, rfl⟩ | ⟨htimely, rfl | rfl | ⟨_, _, _, rfl, hsome, -⟩⟩⟩ :=
      ControlLoop.control_spec hc
    · exact absurd (Option.some.inj hcommand).symm hne
    · cases hcommand
    · exact absurd (Option.some.inj hcommand).symm hne
    · have hf : st.fresh takenAt p.config.sensorTimeoutSecs st.mode.sensorPath = true := by
        have h : st.sensorTimedOut takenAt p.config.sensorTimeoutSecs = false := htimely
        simpa [AutopilotState.sensorTimedOut_eq] using h
      obtain ⟨v, hv⟩ := Option.isSome_iff_exists.mp (hsome hw)
      refine ⟨v, hv, ?_⟩
      obtain ⟨heading, hheading, rfl | ⟨hprev, hfar⟩⟩ := trusted_cases hv
      · rw [AutopilotState.read_heading] at hheading
        exact hp.fresh_heading ht hw hs hf hheading
      · rw [AutopilotState.read_heading] at hheading
        obtain hnear | hrecent := hplausible hw hf heading hheading v hprev
        · exact absurd (hnear.symm.trans hfar) (by decide)
        · exact hrecent
  · rintro l st takenAt mode ⟨rfl, hl, shouldEmit, l', ht, hc⟩ hw
    have hguard := he
    simp only [Guarded, hl, ht] at hguard
    obtain ⟨hs, -⟩ := hguard
    obtain ⟨-, ⟨htimeout, -⟩ | ⟨-, h | h | ⟨_, _, _, h, -⟩⟩⟩ := ControlLoop.control_spec hc
    · have hf : st.fresh takenAt p.config.sensorTimeoutSecs st.mode.sensorPath = false := by
        have h : st.sensorTimedOut takenAt p.config.sensorTimeoutSecs = true := htimeout
        simpa [AutopilotState.sensorTimedOut_eq] using h
      cases hm : st.mode with
      | compass =>
        simp only [Sourced, hm, Bool.or_eq_true, Bool.not_eq_true'] at hs
        rw [hm] at hf
        have hmag : st.fresh takenAt p.config.sensorTimeoutSecs "navigation.headingMagnetic" =
            false := hf
        have htrue := hs.resolve_right (by simp [hmag])
        simp [headingFresh, headingPaths, hmag, htrue]
      | route =>
        simp only [Sourced, hm, Bool.and_eq_true, Bool.or_eq_true, Bool.not_eq_true'] at hs
        rw [hm] at hf
        have hbearing : st.fresh takenAt p.config.sensorTimeoutSecs
            "navigation.course.calcValues.bearingTrackTrue" = false := hf
        exact hs.1.resolve_right (by simp [hbearing])
      | wind => exact absurd hm hw
    · cases h
    · cases h
    · cases h

/-- In every run whose ticks find their sensors guarded, the autopilot steers by recent
headings only, and does not time out while it has one. -/
theorem guarded_steers_fresh {cfg : AutopilotConfig} {now : Instant} {es : List AutopilotEvent}
    (h : Machine.Meets step Guarded (start cfg now) es) :
    ∀ fs e, fs ++ [e] <+: es → SteersFresh (Machine.run step (start cfg now) fs) e := by
  have hfresh : Machine.Meets step SteersFresh (start cfg now) es :=
    Machine.meets_of_inv (fun _ e hp _ => hp.step e) (fun _ _ hp he => hp.steersFresh he)
      (known_start cfg now) h
  exact Machine.meets_iff_prefix.mp hfresh

end

section
attribute [local instance] AngleMath.plain

abbrev sensor (path : String) (value : ℚ) : AutopilotEvent :=
  .sensors (.selfVessel [⟨Source.nmea0183 "gps" "HC", 0, [⟨path, .ofF64 value⟩]⟩])

/-- The autopilot is engaged by compass, and five seconds later a tick is about to compute. -/
abbrev headingFiveSecondsOld : List AutopilotEvent :=
  [sensor "navigation.headingMagnetic" 0, .call (.setTarget (1 / 10)), .call .engage,
    .pass 5000000000, .wake, .proceed]

theorem guarded_steers_fresh_compass :
    (Machine.run step (start .default 0)
      (headingFiveSecondsOld ++ [.proceed, .proceed])).state.lastRudderRad = 9 / 1000 ∧
    SteersFresh (Machine.run step (start .default 0) headingFiveSecondsOld) .proceed := by
  have hmeets : Machine.Meets step Guarded (start .default 0)
      (headingFiveSecondsOld ++ [.proceed]) := by
    decide +kernel
  exact ⟨by decide +kernel, guarded_steers_fresh hmeets _ _ List.prefix_rfl⟩

/-- A minute after its last heading, the autopilot is sent along a route. -/
abbrev headingMinuteOld : List AutopilotEvent :=
  [sensor "navigation.headingTrue" 0, .pass 60000000000,
    sensor "navigation.course.calcValues.bearingTrackTrue" (1 / 10),
    .call (.courseCurrentPoint (some (.ofF64 (1 / 10)))), .wake, .proceed]

/-- In compass mode there is a true heading and no magnetic one. -/
abbrev trueHeadingOnly : List AutopilotEvent :=
  [sensor "navigation.headingTrue" 0, .call (.setTarget (1 / 10)), .call .engage, .wake, .proceed]

theorem steers_by_stale_heading :
    ¬SteersFresh (Machine.run step (start .default 0) headingMinuteOld) .proceed ∧
    ¬SteersFresh (Machine.run step (start .default 0) trueHeadingOnly) .proceed := by
  constructor
  · intro h
    let p := Machine.run step (start .default 0) headingMinuteOld
    have hp : p.comesTo (fun _ st takenAt outcome => decide (outcome.command = some (9 / 1000) ∧
        st.mode = .route ∧ ∀ v ∈ p.headings.map Prod.snd, p.recently takenAt v = false)) = true := by
      decide +kernel
    obtain ⟨l, st, takenAt, outcome, hc, hq⟩ := exists_computes hp
    obtain ⟨hcommand, hmode, hold⟩ := of_decide_eq_true hq
    obtain ⟨v, -, hrecent⟩ := h.recent l st takenAt outcome _ hc hcommand (by norm_num)
      (by simp [hmode])
    obtain ⟨r, hr, hrv⟩ := List.any_eq_true.mp hrecent
    obtain rfl := (of_decide_eq_true hrv).1
    exact absurd ((hold r.2 (List.mem_map_of_mem hr)).symm.trans hrecent) (by decide)
  · intro h
    let p := Machine.run step (start .default 0) trueHeadingOnly
    have hp : p.comesTo (fun _ st takenAt outcome => decide
        (outcome = .disengage (.dataTimeout .compass) ∧ st.mode = .compass ∧
          p.headingFresh st takenAt = true)) = true := by
      decide +kernel
    obtain ⟨l, st, takenAt, outcome, hc, hq⟩ := exists_computes hp
    obtain ⟨rfl, hmode, hfresh⟩ := of_decide_eq_true hq
    exact absurd ((h.engaged l st takenAt _ hc (by simp [hmode])).symm.trans hfresh) (by decide)

end

end AutopilotSystem

end SignalK

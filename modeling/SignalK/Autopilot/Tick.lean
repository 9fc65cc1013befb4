import SignalK.Autopilot.Loop

/-! What a tick, a call of the provider and a sensor delta can do. -/
namespace SignalK
open AutopilotOutput

namespace AutopilotOutput

@[simp] theorem emitRudder_rudders (r : ℚ) : (emitRudder r).rudders = [.ofF64 r] := by
  simp [emitRudder, rudders]

@[simp] theorem emitAutopilotState_rudders (enabled : Bool) (mode : AutopilotMode)
    (target : Option ℚ) : (emitAutopilotState enabled mode target).rudders = [] := by
  cases target <;> cases mode <;> simp [emitAutopilotState, rudders, AutopilotMode.targetPath]

@[simp] theorem emitNotification_rudders (path state text : String) :
    (emitNotification path state text).rudders = [] := by
  have hne : "notifications." ++ path ≠ "steering.rudderAngle" := by
    intro h
    have hc := congrArg (fun s : String => s.toList.head?) h
    simp at hc
  simp [emitNotification, rudders, hne]

@[simp] theorem status_rudders (text : String) : (status text).rudders = [] := rfl

/-- No rudder angle is among the outputs but that one. -/
def OnlyRudder (rudder : ℚ) (outputs : List AutopilotOutput) : Prop :=
  ∀ output ∈ outputs, ∀ v ∈ output.rudders, v = .ofF64 rudder

end AutopilotOutput

/-- The rudder feedback speaks of the rudder but commands none. -/
theorem feedbackOutputs_rudders [AngleMath] {change : Option Bool} {rudder : ℚ}
    {actual : Option ℚ} {output : AutopilotOutput}
    (h : output ∈ feedbackOutputs change rudder actual) : output.rudders = [] := by
  match change with
  | none => cases h
  | some true =>
    obtain rfl | rfl : output = _ ∨ output = _ := by simpa [feedbackOutputs] using h
    · simp
    · simp
  | some false =>
    obtain rfl | rfl : output = _ ∨ output = _ := by simpa [feedbackOutputs] using h
    · simp
    · simp

namespace AutopilotState

theorem receiveValue_frame (st : AutopilotState) (now : Instant) (source : Source)
    (pv : PathValue) :
    ∃ seen values actual actualSeen, st.receiveValue now source pv =
      { st with
        sensorLastSeen := seen
        sensorValues := values
        actualRudderRad := actual
        actualRudderLastSeen := actualSeen } := by
  unfold receiveValue
  split
  · exact ⟨_, _, _, _, rfl⟩
  · split_ifs
    · exact ⟨_, _, _, _, rfl⟩
    · exact ⟨_, _, _, _, rfl⟩
    · exact ⟨_, _, _, _, rfl⟩

/-- The callback goes over the values of a delta with their sources. -/
theorem receive_eq (st : AutopilotState) (now : Instant) (delta : Delta) :
    st.receive now delta =
      (delta.updates.flatMap fun update => update.values.map (update.source, ·)).foldl
        (fun st e => st.receiveValue now e.1 e.2) st := by
  unfold receive
  induction delta.updates generalizing st with
  | nil => rfl
  | cons update updates ih => simp [ih, List.foldl_map]

/-- Sensor deltas go to the sensors only. -/
theorem receive_frame (st : AutopilotState) (now : Instant) (delta : Delta) :
    ∃ seen values actual actualSeen, st.receive now delta =
      { st with
        sensorLastSeen := seen
        sensorValues := values
        actualRudderRad := actual
        actualRudderLastSeen := actualSeen } := by
  rw [receive_eq]
  induction delta.updates.flatMap fun update => update.values.map (update.source, ·)
    generalizing st with
  | nil => exact ⟨_, _, _, _, rfl⟩
  | cons e es ih =>
    obtain ⟨_, _, _, _, hrest⟩ := ih (st.receiveValue now e.1 e.2)
    obtain ⟨_, _, _, _, hfirst⟩ := receiveValue_frame st now e.1 e.2
    rw [List.foldl_cons, hrest, hfirst]
    exact ⟨_, _, _, _, rfl⟩

/-- What the state holds of a path; the rudder has a place of its own. -/
def reading (st : AutopilotState) (path : String) : Option ℚ :=
  if path = "steering.rudderAngle" then st.actualRudderRad else st.sensorValues.lookup path

/-- The number that a value brings for a path. -/
def sensed (path : String) (source : Source) (pv : PathValue) : Option ℚ :=
  if pv.path = path ∧
      ¬(path = "steering.rudderAngle" ∧ source.type = "Plugin" ∧ source.label = "autopilot") then
    pv.value.asF64
  else none

/-- The values of a delta with their sources. -/
def sourced (delta : Delta) : List (Source × PathValue) :=
  delta.updates.flatMap fun update => update.values.map (update.source, ·)

theorem reading_receiveValue (st : AutopilotState) (now : Instant) (source : Source)
    (pv : PathValue) (path : String) :
    (st.receiveValue now source pv).reading path =
      (sensed path source pv).or (st.reading path) := by
  unfold receiveValue sensed
  cases hv : pv.value.asF64 with
  | none => simp
  | some v =>
    simp only
    by_cases hpath : pv.path = path
    · subst hpath
      by_cases hrudder : pv.path = "steering.rudderAngle"
      · by_cases hown : source.type = "Plugin" ∧ source.label = "autopilot"
        · simp [hrudder, hown]
        · simp [hrudder, hown, reading]
      · simp [hrudder, reading, updateSensor]
    · have hnone : ∀ q, ¬(pv.path = path ∧ q) := fun _ h => hpath h.1
      rw [if_neg (hnone _), Option.none_or]
      by_cases hrudder : pv.path = "steering.rudderAngle"
      · have hne : ¬path = "steering.rudderAngle" := fun hp => hpath (hrudder.trans hp.symm)
        rw [if_pos hrudder]
        split_ifs
        · rfl
        · simp only [reading, if_neg hne]
      · rw [if_neg hrudder]
        simp [reading, updateSensor, Ne.symm hpath]

/-- The last number of a delta for a path is kept. -/
theorem reading_receive (st : AutopilotState) (now : Instant) (delta : Delta) (path : String) :
    (st.receive now delta).reading path =
      ((sourced delta).filterMap fun e => sensed path e.1 e.2).getLast?.or (st.reading path) := by
  rw [receive_eq]
  change ((sourced delta).foldl _ st).reading path = _
  induction sourced delta using List.reverseRecOn with
  | nil => rfl
  | append_singleton l e ih =>
    rw [List.foldl_append, List.foldl_cons, List.foldl_nil, reading_receiveValue, ih,
      List.filterMap_append]
    cases hx : sensed path e.1 e.2 with
    | none => simp [hx]
    | some x => simp [hx]

/-- What a call that succeeds does to the state. -/
structure Called (st : AutopilotState) (c : ProviderCall) (st' : AutopilotState) : Prop where
  enabled : st'.enabled = if c.disengages then false else if c.engages then true else st.enabled
  tick : st'.lastTickAt = st.lastTickAt ∨ st'.lastTickAt = none
  rests : c.disengages = true → st'.lastTickAt = none
  error : st'.lastErrorRad = st.lastErrorRad ∨ st'.lastErrorRad = 0
  moved : st'.mode ≠ st.mode → st'.lastErrorRad = 0
  rudder : st'.lastRudderRad = st.lastRudderRad
  seen : st'.sensorLastSeen = st.sensorLastSeen
  values : st'.sensorValues = st.sensorValues

theorem called_turn {st st' : AutopilotState} {name : String} {direction : TackDirection}
    (h : st.turn name direction = .ok st') :
    ∃ target, st' = { st with
      targetRad := target
      lastErrorRad := 0 } := by
  unfold turn at h
  simp only at h
  split_ifs at h
  obtain rfl := Except.ok.inj h
  exact ⟨_, rfl⟩

theorem called [AngleMath] {st st' : AutopilotState} {c : ProviderCall} (h : st.call c = .ok st') :
    Called st c st' := by
  cases c with
  | setState state =>
    simp only [call] at h
    split_ifs at h with hen hdis
    · obtain rfl := Except.ok.inj h
      subst hen
      exact ⟨rfl, .inl rfl, fun hd => (by simp [ProviderCall.disengages] at hd), .inl rfl,
        fun hm => absurd rfl hm, rfl, rfl, rfl⟩
    · obtain rfl := Except.ok.inj h
      subst hdis
      exact ⟨rfl, .inr rfl, fun _ => rfl, .inl rfl, fun hm => absurd rfl hm, rfl, rfl, rfl⟩
  | setMode mode =>
    simp only [call] at h
    cases hp : AutopilotMode.parse mode with
    | error e =>
      rw [hp] at h
      cases h
    | ok m =>
      rw [hp] at h
      obtain rfl := Except.ok.inj h
      exact ⟨rfl, .inr rfl, fun hd => (by cases hd), .inr rfl, fun _ => rfl, rfl, rfl, rfl⟩
  | setTarget value =>
    obtain rfl := Except.ok.inj h
    exact ⟨rfl, .inl rfl, fun hd => (by cases hd), .inl rfl, fun hm => absurd rfl hm, rfl, rfl, rfl⟩
  | adjustTarget delta =>
    obtain rfl := Except.ok.inj h
    exact ⟨rfl, .inl rfl, fun hd => (by cases hd), .inl rfl, fun hm => absurd rfl hm, rfl, rfl, rfl⟩
  | engage =>
    obtain rfl := Except.ok.inj h
    exact ⟨rfl, .inl rfl, fun hd => (by cases hd), .inl rfl, fun hm => absurd rfl hm, rfl, rfl, rfl⟩
  | disengage =>
    obtain rfl := Except.ok.inj h
    exact ⟨rfl, .inr rfl, fun _ => rfl, .inl rfl, fun hm => absurd rfl hm, rfl, rfl, rfl⟩
  | tack direction =>
    obtain ⟨target, rfl⟩ := called_turn h
    exact ⟨rfl, .inl rfl, fun hd => (by cases hd), .inr rfl, fun _ => rfl, rfl, rfl, rfl⟩
  | gybe direction =>
    obtain ⟨target, rfl⟩ := called_turn h
    exact ⟨rfl, .inl rfl, fun hd => (by cases hd), .inr rfl, fun _ => rfl, rfl, rfl, rfl⟩
  | dodge offset =>
    obtain rfl := Except.ok.inj h
    exact ⟨rfl, .inl rfl, fun hd => (by cases hd), .inl rfl, fun hm => absurd rfl hm, rfl, rfl, rfl⟩
  | courseCurrentPoint stored =>
    simp only [call] at h
    cases hb : stored.bind Json.asF64 with
    | none =>
      rw [hb] at h
      cases h
    | some bearing =>
      rw [hb] at h
      obtain rfl := Except.ok.inj h
      have he : ProviderCall.engages (.courseCurrentPoint stored) = true := by
        simp [ProviderCall.engages, hb]
      exact ⟨by rw [he]; rfl, .inr rfl, fun hd => (by cases hd), .inr rfl, fun _ => rfl, rfl, rfl,
        rfl⟩
  | courseNextPoint =>
    simp only [call] at h
    split_ifs at h
    · obtain rfl := Except.ok.inj h
      exact ⟨rfl, .inr rfl, fun hd => (by cases hd), .inr rfl, fun _ => rfl, rfl, rfl, rfl⟩
    · obtain rfl := Except.ok.inj h
      exact ⟨rfl, .inl rfl, fun hd => (by cases hd), .inl rfl, fun hm => absurd rfl hm, rfl, rfl,
        rfl⟩

/-- Calls do not touch the rudder angle. -/
theorem called_actual [AngleMath] {st st' : AutopilotState} {c : ProviderCall}
    (h : st.call c = .ok st') :
    st'.actualRudderRad = st.actualRudderRad ∧
      st'.actualRudderLastSeen = st.actualRudderLastSeen := by
  have hok : ∀ {new : AutopilotState},
      (Except.ok new : Except PluginError AutopilotState) = .ok st' →
      new.actualRudderRad = st.actualRudderRad →
      new.actualRudderLastSeen = st.actualRudderLastSeen →
      st'.actualRudderRad = st.actualRudderRad ∧
        st'.actualRudderLastSeen = st.actualRudderLastSeen := by
    intro new he hrudder hseen
    obtain rfl := Except.ok.inj he
    exact ⟨hrudder, hseen⟩
  cases c with
  | setState state =>
    simp only [call] at h
    split_ifs at h
    · exact hok h rfl rfl
    · exact hok h rfl rfl
  | setMode mode =>
    simp only [call] at h
    split at h
    · exact hok h rfl rfl
    · cases h
  | setTarget value => exact hok h rfl rfl
  | adjustTarget delta => exact hok h rfl rfl
  | engage => exact hok h rfl rfl
  | disengage => exact hok h rfl rfl
  | tack direction =>
    obtain ⟨_, rfl⟩ := called_turn h
    exact ⟨rfl, rfl⟩
  | gybe direction =>
    obtain ⟨_, rfl⟩ := called_turn h
    exact ⟨rfl, rfl⟩
  | dodge offset => exact hok h rfl rfl
  | courseCurrentPoint stored =>
    simp only [call] at h
    split at h
    · cases h
    · exact hok h rfl rfl
  | courseNextPoint =>
    simp only [call] at h
    split_ifs at h
    · exact hok h rfl rfl
    · exact hok h rfl rfl

/-- Calls leave the readings alone. -/
theorem called_reading [AngleMath] {st st' : AutopilotState} {c : ProviderCall}
    (h : st.call c = .ok st') (path : String) : st'.reading path = st.reading path := by
  unfold reading
  rw [(called_actual h).1, (called h).values]

end AutopilotState

namespace ControlLoop

/-- What no part of a tick changes after the mode has been looked at. -/
structure Carries (l l' : ControlLoop) : Prop where
  prevMode : l'.prevMode = l.prevMode
  limit : l'.pid.integralLimit = l.pid.integralLimit
  bounded : 0 ≤ l.pid.integralLimit → l.pid.Bounded → l'.pid.Bounded

theorem Carries.of_pid {l l' : ControlLoop} (hm : l'.prevMode = l.prevMode) (hp : l'.pid = l.pid) :
    Carries l l' :=
  ⟨hm, by rw [hp], fun _ hb => by rw [hp]; exact hb⟩

theorem Carries.trans {l l' l'' : ControlLoop} (h : Carries l l') (h' : Carries l' l'') :
    Carries l l'' :=
  ⟨h'.prevMode.trans h.prevMode, h'.limit.trans h.limit,
    fun hn hb => h'.bounded (h.limit ▸ hn) (h.bounded hn hb)⟩

theorem onMode_prevMode (l : ControlLoop) (mode : AutopilotMode) :
    (l.onMode mode).prevMode = some mode := by
  unfold onMode
  split_ifs with h
  · exact h
  · rfl

/-- A tick in another mode starts without an integral. -/
theorem onMode_integral {l : ControlLoop} {mode : AutopilotMode} (h : l.prevMode ≠ some mode) :
    (l.onMode mode).pid.integral = 0 := by
  rw [onMode, if_neg h]
  rfl

theorem onMode_pid (l : ControlLoop) (mode : AutopilotMode) :
    (l.onMode mode).pid = l.pid ∨ (l.onMode mode).pid = l.pid.reset := by
  unfold onMode
  split_ifs
  · exact .inl rfl
  · exact .inr rfl

theorem bounded_reset {pid : PidController} (h : 0 ≤ pid.integralLimit) : pid.reset.Bounded := by
  simpa [PidController.Bounded, PidController.reset] using h

theorem carries_dropOut (l : ControlLoop) : Carries l l.dropOut :=
  ⟨rfl, rfl, fun hn _ => bounded_reset hn⟩

theorem carries_gust (l : ControlLoop) (cfg : AutopilotConfig) (windSpeed dt : Option ℚ) :
    Carries l (l.gustCompensation cfg windSpeed dt).1 := by
  unfold gustCompensation
  cases windSpeed with
  | none => exact .of_pid rfl rfl
  | some ws =>
    by_cases hg : cfg.gustGain ≠ 0
    · simp only [if_pos hg]
      exact .of_pid rfl rfl
    · simp only [if_neg hg]
      exact .of_pid rfl rfl

variable [AngleMath]

theorem carries_checkHeading (l : ControlLoop) (cfg : AutopilotConfig) (heading dt : Option ℚ) :
    Carries l (l.checkHeading cfg heading dt).1 := by
  cases heading with
  | none => exact .of_pid rfl rfl
  | some h => exact .of_pid rfl rfl

theorem carries_recover (l : ControlLoop) (cfg : AutopilotConfig) (s : Snapshot)
    (heading : Option ℚ) (target : ℚ) : Carries l (l.recover cfg s heading target) := by
  unfold recover
  simp only
  split
  · exact .of_pid rfl rfl
  · exact .of_pid rfl rfl

/-- A mode either lacks a sensor or computes a command from some error. -/
theorem dispatch_eq (l : ControlLoop) (cfg : AutopilotConfig) (s : Snapshot) (heading : Option ℚ)
    (target : ℚ) (dt yawRate : Option ℚ) (pidCfg : PidConfig) :
    l.dispatch cfg s heading target dt yawRate pidCfg = some (l, none) ∨
      ∃ windFilter error d, (s.mode ≠ .wind → heading.isSome = true) ∧
        l.dispatch cfg s heading target dt yawRate pidCfg =
          (l.pid.compute error d dt pidCfg).map fun out =>
            ({ l with
              windFilter := windFilter
              pid := out.1 }, some (out.2, error)) := by
  have hlaw : ∀ (windFilter : CircularFilter) (error d : ℚ),
      withLaw { l with windFilter := windFilter }
        ((l.pid.compute error d dt pidCfg).map fun out => (out.1, out.2, error)) =
      (l.pid.compute error d dt pidCfg).map fun out =>
        ({ l with
          windFilter := windFilter
          pid := out.1 }, some (out.2, error)) := by
    intro windFilter error d
    cases l.pid.compute error d dt pidCfg with
    | none => rfl
    | some out => rfl
  unfold dispatch
  cases s.mode with
  | compass =>
    cases heading with
    | none => exact .inl rfl
    | some current => exact .inr ⟨l.windFilter, _, _, fun _ => rfl, hlaw l.windFilter _ _⟩
  | wind =>
    cases s.primarySensor with
    | none => exact .inl rfl
    | some raw =>
      exact .inr ⟨(l.windFilter.update raw).1, _, _, fun hw => absurd rfl hw, hlaw _ _ _⟩
  | route =>
    cases heading with
    | none => exact .inl rfl
    | some current =>
      cases s.primarySensor with
      | none => exact .inl rfl
      | some btw => exact .inr ⟨l.windFilter, _, _, fun _ => rfl, hlaw l.windFilter _ _⟩

/-- What can be said of a rudder that is commanded after another one. -/
structure Commanded (cfg : AutopilotConfig) (last : ℚ) (dt : Option ℚ) (rudder : ℚ) : Prop where
  bounded : |last| ≤ cfg.maxRudderRad → |rudder| ≤ cfg.maxRudderRad
  slow : ∀ t, dt = some t → 0 < cfg.maxRudderRateRadPerSec → 0 < t →
    |rudder - last| ≤ cfg.maxRudderRateRadPerSec * t

theorem finish_spec {l l' : ControlLoop} {cfg : AutopilotConfig} {s : Snapshot} {dt : Option ℚ}
    {shouldEmit : Bool} {now : Instant} {raw error : ℚ} {outcome : TickOutcome}
    (h : l.finish cfg s dt shouldEmit now raw error = some (l', outcome)) :
    Carries l l' ∧ ∃ rudder outs, outcome = .steer rudder error now outs ∧
      Commanded cfg s.lastRudder dt rudder ∧ OnlyRudder rudder outs := by
  unfold finish at h
  obtain ⟨withFf, hclamp, hrate⟩ := Option.bind_eq_some_iff.mp h
  obtain ⟨rudder, hlimit, he⟩ := Option.map_eq_some_iff.mp hrate
  obtain ⟨rfl, rfl⟩ := Prod.mk.inj he
  have hgust := carries_gust l cfg s.windSpeed dt
  refine ⟨hgust.trans (.of_pid rfl rfl), rudder, _, rfl,
    ⟨fun hlast => ?_, fun t ht hr hp => ?_⟩, fun output ho v hv => ?_⟩
  · obtain ⟨r, hr, hlow, hhigh, -⟩ :=
      Pd.rateLimit_spec s.lastRudder withFf cfg.maxRudderRateRadPerSec dt
    obtain rfl := Option.some.inj (hr.symm.trans hlimit)
    obtain ⟨hl1, hl2⟩ := abs_le.mp hlast
    obtain ⟨hw1, hw2⟩ := Clamp.clamp_bounds hclamp
    exact abs_le.mpr ⟨(le_min hl1 hw1).trans hlow, hhigh.trans (max_le hl2 hw2)⟩
  · obtain ⟨r, hr', -, -, hslow⟩ :=
      Pd.rateLimit_spec s.lastRudder withFf cfg.maxRudderRateRadPerSec dt
    obtain rfl := Option.some.inj (hr'.symm.trans hlimit)
    exact hslow t ht hr hp
  · obtain ho | ho := List.mem_append.mp ho
    · split_ifs at ho
      · obtain rfl := List.mem_singleton.mp ho
        simpa using hv
      · cases ho
    · rw [feedbackOutputs_rudders ho] at hv
      cases hv

theorem finish_isSome (l : ControlLoop) {cfg : AutopilotConfig} (hm : 0 ≤ cfg.maxRudderRad)
    (s : Snapshot) (dt : Option ℚ) (shouldEmit : Bool) (now : Instant) (raw error : ℚ) :
    (l.finish cfg s dt shouldEmit now raw error).isSome = true := by
  unfold finish
  simp only
  rw [Clamp.clamp_of_le (by linarith : -cfg.maxRudderRad ≤ cfg.maxRudderRad), Option.bind_some]
  obtain ⟨r, hr, -⟩ := Pd.rateLimit_spec s.lastRudder _ cfg.maxRudderRateRadPerSec dt
  rw [hr]
  rfl

/-- What a tick leaves that got as far as its mode. -/
theorem steer_spec {l l' : ControlLoop} {cfg : AutopilotConfig} {s : Snapshot}
    {heading : Option ℚ} {target : ℚ} {dt : Option ℚ} {shouldEmit : Bool} {now : Instant}
    {outcome : TickOutcome}
    (h : l.steer cfg s heading target dt shouldEmit now = some (l', outcome)) :
    Carries l l' ∧ (outcome = .skip ∨ ∃ rudder error outs, outcome = .steer rudder error now outs ∧
      (s.mode ≠ .wind → heading.isSome = true) ∧ Commanded cfg s.lastRudder dt rudder ∧
        OnlyRudder rudder outs) := by
  unfold steer at h
  have hrec := carries_recover l cfg s heading target
  obtain ⟨out, hout, hrest⟩ := Option.bind_eq_some_iff.mp h
  obtain hskip | ⟨windFilter, error, d, hheading, heq⟩ := dispatch_eq (l.recover cfg s heading target)
    cfg s heading target dt (Pd.validateYawRate s.yawRate cfg.maxYawRateRadPerSec)
    ((l.recover cfg s heading target).recovery.apply (gains cfg s) cfg.recoveryGainFactor)
  · obtain rfl := Option.some.inj (hskip.symm.trans hout)
    obtain ⟨rfl, rfl⟩ := Prod.mk.inj (Option.some.inj hrest)
    exact ⟨hrec, .inl rfl⟩
  · rw [heq] at hout
    obtain ⟨⟨pid, raw⟩, hpid, rfl⟩ := Option.map_eq_some_iff.mp hout
    obtain ⟨hlimit, hbounded⟩ := PidController.compute_spec hpid
    have hlaw : Carries (l.recover cfg s heading target)
        { l.recover cfg s heading target with
          windFilter := windFilter
          pid := pid } := ⟨rfl, hlimit, fun _ => hbounded⟩
    obtain ⟨hfinish, rudder, outs, rfl, hcommanded⟩ := finish_spec hrest
    exact ⟨(hrec.trans hlaw).trans hfinish, .inr ⟨rudder, error, outs, rfl, hheading, hcommanded⟩⟩

theorem steer_isSome (l : ControlLoop) {cfg : AutopilotConfig} (hm : 0 ≤ cfg.maxRudderRad)
    (hl : 0 ≤ l.pid.integralLimit) (s : Snapshot) (heading : Option ℚ) (target : ℚ)
    (dt : Option ℚ) (shouldEmit : Bool) (now : Instant) :
    (l.steer cfg s heading target dt shouldEmit now).isSome = true := by
  unfold steer
  simp only
  have hrec := carries_recover l cfg s heading target
  have hmax : ((l.recover cfg s heading target).recovery.apply (gains cfg s)
      cfg.recoveryGainFactor).maxRudderRad = cfg.maxRudderRad := by
    rw [RecoveryState.apply_maxRudderRad]
    unfold gains
    simp only
    split_ifs <;> split <;> simp [AutopilotConfig.pidConfig]
  obtain hskip | ⟨windFilter, error, d, -, heq⟩ := dispatch_eq (l.recover cfg s heading target)
    cfg s heading target dt (Pd.validateYawRate s.yawRate cfg.maxYawRateRadPerSec)
    ((l.recover cfg s heading target).recovery.apply (gains cfg s) cfg.recoveryGainFactor)
  · rw [hskip]
    rfl
  · obtain ⟨out, hout⟩ := PidController.compute_isSome (l.recover cfg s heading target).pid error d
      dt (hmax.symm ▸ hm) (hrec.limit.symm ▸ hl)
    rw [heq, hout]
    exact finish_isSome _ hm s dt shouldEmit now _ _

/-- The heading that a tick steers by. -/
def trusted (l : ControlLoop) (cfg : AutopilotConfig) (s : Snapshot) (now : Instant) : Option ℚ :=
  ((l.onMode s.mode).checkHeading cfg s.heading (tickDt cfg s.lastTick now)).2.join

/-- What an engaged tick leaves. -/
theorem control_spec {l l' : ControlLoop} {cfg : AutopilotConfig} {s : Snapshot}
    {shouldEmit : Bool} {now : Instant} {outcome : TickOutcome}
    (h : l.control cfg s shouldEmit now = some (l', outcome)) :
    Carries (l.onMode s.mode) l' ∧
      ((s.timedOut = true ∧ outcome = .disengage (.dataTimeout s.mode)) ∨
        s.timedOut = false ∧ (outcome = .skip ∨ outcome = .disengage .headingFailure ∨
          ∃ rudder error outs, outcome = .steer rudder error now outs ∧
            (s.mode ≠ .wind → (l.trusted cfg s now).isSome = true) ∧
            Commanded cfg s.lastRudder (tickDt cfg s.lastTick now) rudder ∧
              OnlyRudder rudder outs)) := by
  unfold control at h
  simp only at h
  split_ifs at h with htimeout
  · obtain ⟨rfl, rfl⟩ := Prod.mk.inj (Option.some.inj h)
    exact ⟨carries_dropOut _, .inl ⟨htimeout, rfl⟩⟩
  · have hcheck := carries_checkHeading (l.onMode s.mode) cfg s.heading (tickDt cfg s.lastTick now)
    have htimely : s.timedOut = false := by simpa using htimeout
    cases ht : s.target with
    | none =>
      rw [ht] at h
      obtain ⟨rfl, rfl⟩ := Prod.mk.inj (Option.some.inj h)
      exact ⟨.of_pid rfl rfl, .inr ⟨htimely, .inl rfl⟩⟩
    | some target =>
      rw [ht] at h
      simp only at h
      split at h
      · obtain ⟨rfl, rfl⟩ := Prod.mk.inj (Option.some.inj h)
        exact ⟨hcheck.trans (carries_dropOut _), .inr ⟨htimely, .inr (.inl rfl)⟩⟩
      · rename_i heading hheading
        obtain ⟨hcarries, rfl | ⟨rudder, error, outs, rfl, hsome, hcommanded⟩⟩ := steer_spec h
        · exact ⟨hcheck.trans hcarries, .inr ⟨htimely, .inl rfl⟩⟩
        · refine ⟨hcheck.trans hcarries, .inr ⟨htimely, .inr (.inr ⟨rudder, error, outs, rfl,
            fun hw => ?_, hcommanded⟩)⟩⟩
          rw [trusted, hheading]
          exact hsome hw

/-- A tick does not panic when both limits are at least zero. -/
theorem control_isSome (l : ControlLoop) {cfg : AutopilotConfig} (hm : 0 ≤ cfg.maxRudderRad)
    (hl : 0 ≤ l.pid.integralLimit) (s : Snapshot) (shouldEmit : Bool) (now : Instant) :
    (l.control cfg s shouldEmit now).isSome = true := by
  have hmode : 0 ≤ (l.onMode s.mode).pid.integralLimit := by
    obtain h | h := onMode_pid l s.mode
    · rw [h]
      exact hl
    · rw [h]
      exact hl
  have hcheck := carries_checkHeading (l.onMode s.mode) cfg s.heading (tickDt cfg s.lastTick now)
  unfold control
  simp only
  split_ifs
  · rfl
  · cases s.target with
    | none => rfl
    | some target =>
      simp only
      split
      · rfl
      · exact steer_isSome _ hm (hcheck.limit.symm ▸ hmode) _ _ _ _ _ _

end ControlLoop

namespace ControlTask

/-- A tick that has seen the autopilot engaged and has not written yet. -/
def midTick : ControlTask → Bool
  | looking st _ _ => st.enabled
  | thinking _ _ _ => true
  | writing _ => true
  | _ => false

def isAsleep : ControlTask → Bool
  | asleep => true
  | _ => false

end ControlTask

namespace AutopilotSystem
variable [AngleMath] {p : AutopilotSystem} {l : ControlLoop}

/-- The step is the one at which a tick comes to an outcome, from the state it has read. -/
structure Computes (p : AutopilotSystem) (e : AutopilotEvent) (l : ControlLoop)
    (st : AutopilotState) (takenAt : Instant) (outcome : TickOutcome) : Prop where
  event : e = .proceed
  loop : p.loop = some l
  task : ∃ shouldEmit l', p.task = .thinking st takenAt shouldEmit ∧
    l.control p.config (Snapshot.read p.config st takenAt) shouldEmit p.now = some (l', outcome)

/-- The tick that is about to compute comes to an outcome of that kind. -/
def comesTo (p : AutopilotSystem)
    (kind : ControlLoop → AutopilotState → Instant → TickOutcome → Bool) : Bool :=
  match p.loop, p.task with
  | some l, .thinking st takenAt shouldEmit =>
    (l.control p.config (Snapshot.read p.config st takenAt) shouldEmit p.now).any fun out =>
      kind l st takenAt out.2
  | _, _ => false

theorem exists_computes {kind : ControlLoop → AutopilotState → Instant → TickOutcome → Bool}
    (h : p.comesTo kind = true) :
    ∃ l st takenAt outcome, Computes p .proceed l st takenAt outcome ∧
      kind l st takenAt outcome = true := by
  unfold comesTo at h
  split at h
  · rename_i l st takenAt shouldEmit hl ht
    obtain ⟨⟨l', outcome⟩, hout, hkind⟩ := (Option.any_eq_true _ _).mp h
    exact ⟨l, st, takenAt, outcome, ⟨rfl, hl, shouldEmit, l', ht, hout⟩, hkind⟩
  · cases h

theorem proceed_dead (h : p.loop = none) : p.proceed = (p, []) := by
  unfold proceed
  rw [h]

theorem proceed_asleep (ht : p.task = .asleep) : p.proceed = (p, []) := by
  unfold proceed
  rw [ht]
  cases p.loop <;> rfl

theorem proceed_looking (h : p.loop = some l) {st : AutopilotState} {takenAt : Instant}
    {shouldEmit : Bool} (ht : p.task = .looking st takenAt shouldEmit) :
    p.proceed =
      ({ p with task := if st.enabled then .thinking st takenAt shouldEmit else .asleep },
        if shouldEmit then [emitAutopilotState st.enabled st.mode st.targetRad] else []) := by
  unfold proceed
  rw [h, ht]

theorem proceed_thinking (h : p.loop = some l) {st : AutopilotState} {takenAt : Instant}
    {shouldEmit : Bool} (ht : p.task = .thinking st takenAt shouldEmit) :
    p.proceed = (p.think l (Snapshot.read p.config st takenAt) shouldEmit, []) := by
  unfold proceed
  rw [h, ht]

theorem proceed_writing (h : p.loop = some l) {outcome : TickOutcome}
    (ht : p.task = .writing outcome) :
    p.proceed =
      ({ p with
        state := write p.state outcome
        task := .emitting (outputs outcome) }, []) := by
  unfold proceed
  rw [h, ht]

theorem proceed_emitted (h : p.loop = some l) (ht : p.task = .emitting []) :
    p.proceed = ({ p with task := .asleep }, []) := by
  unfold proceed
  rw [h, ht]

theorem proceed_emitting (h : p.loop = some l) {output : AutopilotOutput}
    {left : List AutopilotOutput} (ht : p.task = .emitting (output :: left)) :
    p.proceed = ({ p with task := .emitting left }, [output]) := by
  unfold proceed
  rw [h, ht]

end AutopilotSystem

namespace AutopilotSystem
variable [AngleMath]

/-- What one more step of the control task can be. -/
inductive Proceeds (p : AutopilotSystem) : AutopilotSystem → List AutopilotOutput → Prop
  | idle : p.loop = none ∨ p.task = .asleep → Proceeds p p []
  | looked {l st takenAt shouldEmit} : p.loop = some l →
      p.task = .looking st takenAt shouldEmit →
      Proceeds p { p with task := if st.enabled then .thinking st takenAt shouldEmit else .asleep }
        (if shouldEmit then [emitAutopilotState st.enabled st.mode st.targetRad] else [])
  | panicked {l st takenAt shouldEmit} : p.loop = some l →
      p.task = .thinking st takenAt shouldEmit →
      l.control p.config (Snapshot.read p.config st takenAt) shouldEmit p.now = none →
      Proceeds p { p with loop := none, task := .asleep } []
  | skipped {l st takenAt shouldEmit l'} : p.loop = some l →
      p.task = .thinking st takenAt shouldEmit →
      l.control p.config (Snapshot.read p.config st takenAt) shouldEmit p.now =
        some (l', .skip) →
      Proceeds p { p with loop := some l', task := .asleep } []
  | decided {l st takenAt shouldEmit l' outcome} : p.loop = some l →
      p.task = .thinking st takenAt shouldEmit →
      l.control p.config (Snapshot.read p.config st takenAt) shouldEmit p.now =
        some (l', outcome) →
      outcome ≠ .skip → Proceeds p { p with loop := some l', task := .writing outcome } []
  | wrote {l outcome} : p.loop = some l → p.task = .writing outcome →
      Proceeds p { p with state := write p.state outcome, task := .emitting (outputs outcome) } []
  | finished {l} : p.loop = some l → p.task = .emitting [] →
      Proceeds p { p with task := .asleep } []
  | said {l output left} : p.loop = some l → p.task = .emitting (output :: left) →
      Proceeds p { p with task := .emitting left } [output]

theorem proceeds (p : AutopilotSystem) : Proceeds p p.proceed.1 p.proceed.2 := by
  cases hl : p.loop with
  | none =>
    rw [proceed_dead hl]
    exact .idle (.inl hl)
  | some l =>
    cases ht : p.task with
    | asleep =>
      rw [proceed_asleep ht]
      exact .idle (.inr ht)
    | looking st takenAt shouldEmit =>
      rw [proceed_looking hl ht]
      exact .looked hl ht
    | thinking st takenAt shouldEmit =>
      rw [proceed_thinking hl ht]
      unfold think
      cases hc : l.control p.config (Snapshot.read p.config st takenAt) shouldEmit p.now with
      | none => exact .panicked hl ht hc
      | some out =>
        obtain ⟨l', outcome⟩ := out
        cases outcome with
        | skip => exact .skipped hl ht hc
        | disengage alarm => exact .decided hl ht hc (by simp)
        | steer rudder error now outs => exact .decided hl ht hc (by simp)
    | writing outcome =>
      rw [proceed_writing hl ht]
      exact .wrote hl ht
    | emitting left =>
      cases left with
      | nil =>
        rw [proceed_emitted hl ht]
        exact .finished hl ht
      | cons output left =>
        rw [proceed_emitting hl ht]
        exact .said hl ht

/-- Readings come from sensor deltas alone. -/
theorem reading_step (p : AutopilotSystem) {e : AutopilotEvent} (he : ∀ delta, e ≠ .sensors delta)
    (path : String) : (p.step e).1.state.reading path = p.state.reading path := by
  cases e with
  | pass nanoseconds => rfl
  | sensors delta => exact absurd rfl (he delta)
  | call c =>
    simp only [step, call]
    cases hc : p.state.call c with
    | ok st => exact AutopilotState.called_reading hc path
    | error err => rfl
  | wake =>
    simp only [step, wake]
    split <;> rfl
  | proceed =>
    have h := proceeds p
    simp only [step]
    generalize p.proceed.1 = q at h ⊢
    generalize p.proceed.2 = outs at h
    cases h with
    | @wrote l outcome hl ht => cases outcome <;> rfl
    | _ => rfl

end AutopilotSystem

end SignalK

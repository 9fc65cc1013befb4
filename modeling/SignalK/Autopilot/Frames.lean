import SignalK.Autopilot.Tick

/-! In which mode a target was given, and whether the tick that steers by it, or publishes
it, is in that mode. A change of the mode keeps the target of the old one. -/
namespace SignalK

namespace ProviderCall

/-- The mode in which the target was given that is there after the call; one that is
adjusted or mirrored stays what it was. -/
def targetFrame (c : ProviderCall) (st : AutopilotState) (frame : Option AutopilotMode) :
    Option AutopilotMode :=
  match c with
  | .setTarget _ => some st.mode
  | .courseCurrentPoint _ => some .route
  | .adjustTarget _ => if st.targetRad.isSome then frame else some st.mode
  | .tack _ => if st.targetRad.isSome then frame else some st.mode
  | .gybe _ => if st.targetRad.isSome then frame else some st.mode
  | _ => frame

def dodgeFrame (c : ProviderCall) (st : AutopilotState) (frame : Option AutopilotMode) :
    Option AutopilotMode :=
  match c with
  | .dodge _ => some st.mode
  | _ => frame

/-- The mode was changed while there was a target, and none has been given since. -/
def owesTarget (c : ProviderCall) (st st' : AutopilotState) (owed : Bool) : Bool :=
  match c with
  | .setTarget _ => false
  | .courseCurrentPoint _ => false
  | _ => owed || (decide (st'.mode ≠ st.mode) && st.targetRad.isSome)

def owesDodge (c : ProviderCall) (st st' : AutopilotState) (owed : Bool) : Bool :=
  match c with
  | .dodge _ => false
  | _ => owed || (decide (st'.mode ≠ st.mode) && st.dodgeOffsetRad.isSome)

end ProviderCall

/-- The autopilot, and where its target and its offset come from (history). -/
structure FramedAutopilot where
  sys : AutopilotSystem
  /-- the mode in which the target was given -/
  target : Option AutopilotMode
  dodge : Option AutopilotMode
  /-- both as they were when the tick under way read the state -/
  readTarget : Option AutopilotMode
  readDodge : Option AutopilotMode
  owesTarget : Bool
  owesDodge : Bool

namespace FramedAutopilot

def start (cfg : AutopilotConfig) (now : Instant) : FramedAutopilot where
  sys := .start cfg now
  target := none
  dodge := none
  readTarget := none
  readDodge := none
  owesTarget := false
  owesDodge := false

/-- A tick begins and reads the state. -/
def begins (p : AutopilotSystem) : Bool :=
  match p.loop, p.task with
  | some _, .asleep => true
  | _, _ => false

section
variable [AngleMath]

def step (f : FramedAutopilot) (e : AutopilotEvent) :
    FramedAutopilot × List AutopilotOutput :=
  let next := f.sys.step e
  match e with
  | .call c =>
    match f.sys.state.call c with
    | .ok st =>
      ({ f with
        sys := next.1
        target := c.targetFrame f.sys.state f.target
        dodge := c.dodgeFrame f.sys.state f.dodge
        owesTarget := c.owesTarget f.sys.state st f.owesTarget
        owesDodge := c.owesDodge f.sys.state st f.owesDodge }, next.2)
    | .error _ => (f, next.2)
  | .wake =>
    if begins f.sys then
      ({ f with
        sys := next.1
        readTarget := f.target
        readDodge := f.dodge }, next.2)
    else ({ f with sys := next.1 }, next.2)
  | _ => ({ f with sys := next.1 }, next.2)

/-- The wrapped autopilot runs as it does alone. -/
theorem step_sys (f : FramedAutopilot) (e : AutopilotEvent) :
    (f.step e).1.sys = (f.sys.step e).1 ∧ (f.step e).2 = (f.sys.step e).2 := by
  cases e with
  | call c =>
    simp only [step]
    cases hc : f.sys.state.call c with
    | ok st => exact ⟨rfl, rfl⟩
    | error err => exact ⟨by simp [AutopilotSystem.step, AutopilotSystem.call, hc], rfl⟩
  | wake =>
    simp only [step]
    split_ifs
    · exact ⟨rfl, rfl⟩
    · exact ⟨rfl, rfl⟩
  | pass nanoseconds => exact ⟨rfl, rfl⟩
  | sensors delta => exact ⟨rfl, rfl⟩
  | proceed => exact ⟨rfl, rfl⟩

/-- What is owed at one step: a tick steers by a target, and an offset, that were given in
its mode, and a target is published as one of the mode in which it was given. -/
structure InFrame (f : FramedAutopilot) (e : AutopilotEvent) : Prop where
  steers : ∀ l st takenAt rudder error now outs,
    AutopilotSystem.Computes f.sys e l st takenAt (.steer rudder error now outs) →
    (st.targetRad.isSome = true → f.readTarget = some st.mode) ∧
      (st.dodgeOffsetRad.isSome = true → f.readDodge = some st.mode)
  publishes : ∀ l st takenAt, e = .proceed → f.sys.loop = some l →
    f.sys.task = .looking st takenAt true → st.targetRad.isSome = true →
    f.readTarget = some st.mode

/-- The tick that begins is one that publishes. -/
def emits (p : AutopilotSystem) : Bool :=
  p.loop.any fun l =>
    decide ((l.tickCounter + 1) % ControlLoop.outputEveryN p.config = 0)

/-- A tick that steers or publishes begins when no target, and one that steers when no
offset, is left from before a change of the mode. -/
def Renewed (f : FramedAutopilot) (e : AutopilotEvent) : Prop :=
  e = .wake → begins f.sys = true →
    (f.sys.state.enabled = true ∨ emits f.sys = true → f.owesTarget = false) ∧
    (f.sys.state.enabled = true → f.owesDodge = false)

instance (f : FramedAutopilot) : (e : AutopilotEvent) → Decidable (Renewed f e)
  | .wake => decidable_of_iff (begins f.sys = true →
      (f.sys.state.enabled = true ∨ emits f.sys = true → f.owesTarget = false) ∧
      (f.sys.state.enabled = true → f.owesDodge = false)) ⟨fun h _ => h, fun h => h rfl⟩
  | .pass _ | .sensors _ | .call _ | .proceed => isTrue AutopilotEvent.noConfusion

/-- What is not owed was given in the mode, also in the state that a tick has read. -/
structure Framed (f : FramedAutopilot) : Prop where
  target : f.owesTarget = false → f.sys.state.targetRad.isSome = true →
    f.target = some f.sys.state.mode
  dodge : f.owesDodge = false → f.sys.state.dodgeOffsetRad.isSome = true →
    f.dodge = some f.sys.state.mode
  looking : ∀ st takenAt shouldEmit, f.sys.task = .looking st takenAt shouldEmit →
    (st.enabled = true ∨ shouldEmit = true → st.targetRad.isSome = true →
      f.readTarget = some st.mode) ∧
    (st.enabled = true → st.dodgeOffsetRad.isSome = true → f.readDodge = some st.mode)
  thinking : ∀ st takenAt shouldEmit, f.sys.task = .thinking st takenAt shouldEmit →
    (st.targetRad.isSome = true → f.readTarget = some st.mode) ∧
    (st.dodgeOffsetRad.isSome = true → f.readDodge = some st.mode)

omit [AngleMath] in
theorem framed_start (cfg : AutopilotConfig) (now : Instant) : Framed (start cfg now) :=
  ⟨fun _ h => (by cases h), fun _ h => (by cases h), fun _ _ _ h => (by cases h),
    fun _ _ _ h => (by cases h)⟩

/-- What a call that succeeds does to the frames. -/
theorem frames_call {st st' : AutopilotState} {c : ProviderCall} (h : st.call c = .ok st')
    {target dodge : Option AutopilotMode} {owedTarget owedDodge : Bool}
    (ht : owedTarget = false → st.targetRad.isSome = true → target = some st.mode)
    (hd : owedDodge = false → st.dodgeOffsetRad.isSome = true → dodge = some st.mode) :
    (c.owesTarget st st' owedTarget = false → st'.targetRad.isSome = true →
      c.targetFrame st target = some st'.mode) ∧
    (c.owesDodge st st' owedDodge = false → st'.dodgeOffsetRad.isSome = true →
      c.dodgeFrame st dodge = some st'.mode) := by
  have hmove : ∀ mode, (owedTarget || (decide (mode ≠ st.mode) && st.targetRad.isSome)) = false →
      st.targetRad.isSome = true → target = some mode := by
    intro mode ho hsome
    simp only [Bool.or_eq_false_iff, hsome, Bool.and_true, decide_eq_false_iff_not, not_not] at ho
    rw [ho.2]
    exact ht ho.1 hsome
  have hmove' : ∀ mode,
      (owedDodge || (decide (mode ≠ st.mode) && st.dodgeOffsetRad.isSome)) = false →
      st.dodgeOffsetRad.isSome = true → dodge = some mode := by
    intro mode ho hsome
    simp only [Bool.or_eq_false_iff, hsome, Bool.and_true, decide_eq_false_iff_not, not_not] at ho
    rw [ho.2]
    exact hd ho.1 hsome
  have hkeep : (if st.targetRad.isSome then target else some st.mode) = some st.mode ∨
      (owedTarget || (decide (st.mode ≠ st.mode) && st.targetRad.isSome)) = true := by
    by_cases hsome : st.targetRad.isSome = true
    · rw [if_pos hsome]
      cases ho : owedTarget with
      | false => exact .inl (ht ho hsome)
      | true => exact .inr rfl
    · rw [if_neg hsome]
      exact .inl rfl
  cases c with
  | setState state =>
    simp only [AutopilotState.call] at h
    split_ifs at h
    · obtain rfl := Except.ok.inj h
      exact ⟨hmove _, hmove' _⟩
    · obtain rfl := Except.ok.inj h
      exact ⟨hmove _, hmove' _⟩
  | setMode mode =>
    simp only [AutopilotState.call] at h
    cases hp : AutopilotMode.parse mode with
    | error err =>
      rw [hp] at h
      cases h
    | ok m =>
      rw [hp] at h
      obtain rfl := Except.ok.inj h
      exact ⟨hmove _, hmove' _⟩
  | setTarget value =>
    obtain rfl := Except.ok.inj h
    exact ⟨fun _ _ => rfl, hmove' _⟩
  | adjustTarget delta =>
    obtain rfl := Except.ok.inj h
    exact ⟨fun ho _ => hkeep.resolve_right (by simp only [Bool.not_eq_true]; exact ho), hmove' _⟩
  | engage =>
    obtain rfl := Except.ok.inj h
    exact ⟨hmove _, hmove' _⟩
  | disengage =>
    obtain rfl := Except.ok.inj h
    exact ⟨hmove _, hmove' _⟩
  | tack direction =>
    obtain ⟨_, rfl⟩ := AutopilotState.called_turn h
    exact ⟨fun ho _ => hkeep.resolve_right (by simp only [Bool.not_eq_true]; exact ho), hmove' _⟩
  | gybe direction =>
    obtain ⟨_, rfl⟩ := AutopilotState.called_turn h
    exact ⟨fun ho _ => hkeep.resolve_right (by simp only [Bool.not_eq_true]; exact ho), hmove' _⟩
  | dodge offset =>
    obtain rfl := Except.ok.inj h
    exact ⟨hmove _, fun _ _ => rfl⟩
  | courseCurrentPoint stored =>
    simp only [AutopilotState.call] at h
    cases hb : stored.bind Json.asF64 with
    | none =>
      rw [hb] at h
      cases h
    | some bearing =>
      rw [hb] at h
      obtain rfl := Except.ok.inj h
      exact ⟨fun _ _ => rfl, hmove' _⟩
  | courseNextPoint =>
    simp only [AutopilotState.call] at h
    split_ifs at h
    · obtain rfl := Except.ok.inj h
      exact ⟨hmove _, hmove' _⟩
    · obtain rfl := Except.ok.inj h
      exact ⟨hmove _, hmove' _⟩

variable {f : FramedAutopilot}

theorem Framed.call (hf : Framed f) (c : ProviderCall) : Framed (f.step (.call c)).1 := by
  simp only [step]
  cases hc : f.sys.state.call c with
  | error err => exact hf
  | ok st =>
    obtain ⟨htarget, hdodge⟩ := frames_call hc hf.target hf.dodge
    have hsys : (f.sys.step (.call c)).1.state = st ∧
        (f.sys.step (.call c)).1.task = f.sys.task := by
      simp [AutopilotSystem.step, AutopilotSystem.call, hc]
    refine ⟨?_, ?_, ?_, ?_⟩
    · simp only [hsys.1]
      exact htarget
    · simp only [hsys.1]
      exact hdodge
    · simp only [hsys.2]
      exact hf.looking
    · simp only [hsys.2]
      exact hf.thinking

theorem Framed.wake (hf : Framed f) (hr : Renewed f .wake) : Framed (f.step .wake).1 := by
  simp only [step]
  cases hb : begins f.sys with
  | false =>
    have hsys : f.sys.wake = f.sys := by
      unfold AutopilotSystem.wake
      unfold begins at hb
      split
      · rename_i l hl ht
        rw [hl, ht] at hb
        cases hb
      · rfl
    simp only [Bool.false_eq_true, if_false, AutopilotSystem.step, hsys]
    exact hf
  | true =>
    obtain ⟨htarget, hdodge⟩ := hr rfl hb
    have hwake : f.sys.wake.state = f.sys.state ∧
        f.sys.wake.task = .looking f.sys.state f.sys.now (emits f.sys) := by
      unfold begins at hb
      split at hb
      · rename_i l hl ht
        simp [AutopilotSystem.wake, hl, ht, emits]
      · cases hb
    simp only [if_true, AutopilotSystem.step]
    refine ⟨?_, ?_, fun st takenAt shouldEmit ht => ?_, fun st takenAt shouldEmit ht => ?_⟩
    · simp only [hwake.1]
      exact hf.target
    · simp only [hwake.1]
      exact hf.dodge
    · simp only [hwake.2] at ht
      cases ht
      exact ⟨fun h hsome => hf.target (htarget h) hsome, fun h hsome => hf.dodge (hdodge h) hsome⟩
    · simp only [hwake.2] at ht
      cases ht

theorem Framed.proceed (hf : Framed f) : Framed (f.step .proceed).1 := by
  have hquiet : ∀ (p : AutopilotSystem), p.state.targetRad = f.sys.state.targetRad →
      p.state.dodgeOffsetRad = f.sys.state.dodgeOffsetRad →
      p.state.mode = f.sys.state.mode →
      (∀ st takenAt shouldEmit, p.task ≠ .looking st takenAt shouldEmit) →
      (∀ st takenAt shouldEmit, p.task ≠ .thinking st takenAt shouldEmit) →
      Framed { f with sys := p } := by
    intro p ht hd hm hl hth
    refine ⟨?_, ?_, fun _ _ _ h => absurd h (hl _ _ _), fun _ _ _ h => absurd h (hth _ _ _)⟩
    · simp only [ht, hm]
      exact hf.target
    · simp only [hd, hm]
      exact hf.dodge
  change Framed { f with sys := f.sys.proceed.1 }
  have h := AutopilotSystem.proceeds f.sys
  generalize f.sys.proceed.1 = q at h ⊢
  generalize f.sys.proceed.2 = outs at h
  cases h with
  | idle => exact hf
  | @looked l st takenAt shouldEmit hl ht =>
    obtain ⟨htarget, hdodge⟩ := hf.looking st takenAt shouldEmit ht
    refine ⟨hf.target, hf.dodge, fun st' takenAt' shouldEmit' h => ?_,
      fun st' takenAt' shouldEmit' h => ?_⟩
    · simp only at h
      split_ifs at h
    · simp only at h
      split_ifs at h with he
      cases h
      exact ⟨htarget (.inl he), hdodge he⟩
  | panicked hl ht hc => exact hquiet _ rfl rfl rfl (by simp) (by simp)
  | skipped hl ht hc => exact hquiet _ rfl rfl rfl (by simp) (by simp)
  | decided hl ht hc hne => exact hquiet _ rfl rfl rfl (by simp) (by simp)
  | @wrote l outcome hl ht =>
    refine hquiet _ ?_ ?_ ?_ (by simp) (by simp)
    · cases outcome <;> rfl
    · cases outcome <;> rfl
    · cases outcome <;> rfl
  | finished hl ht => exact hquiet _ rfl rfl rfl (by simp) (by simp)
  | said hl ht => exact hquiet _ rfl rfl rfl (by simp) (by simp)

theorem Framed.sensors (hf : Framed f) (delta : Delta) : Framed (f.step (.sensors delta)).1 := by
  obtain ⟨seen, values, actual, actualSeen, h⟩ := f.sys.state.receive_frame f.sys.now delta
  change Framed { f with sys := f.sys.sensors delta }
  unfold AutopilotSystem.sensors
  rw [h]
  exact ⟨hf.target, hf.dodge, hf.looking, hf.thinking⟩

theorem Framed.step (hf : Framed f) {e : AutopilotEvent} (he : Renewed f e) :
    Framed (f.step e).1 := by
  cases e with
  | pass nanoseconds => exact ⟨hf.target, hf.dodge, hf.looking, hf.thinking⟩
  | sensors delta => exact hf.sensors delta
  | call c => exact hf.call c
  | wake => exact hf.wake he
  | proceed => exact hf.proceed

theorem Framed.inFrame (hf : Framed f) (e : AutopilotEvent) : InFrame f e := by
  constructor
  · rintro l st takenAt rudder error now outs ⟨-, -, shouldEmit, l', ht, -⟩
    exact hf.thinking st takenAt shouldEmit ht
  · intro l st takenAt _ _ ht hsome
    exact (hf.looking st takenAt true ht).1 (.inr rfl) hsome

/-- In every run whose ticks begin with a target given anew since the mode was changed,
each target is steered, and published, in the mode in which it was given. -/
theorem steered_in_frame {cfg : AutopilotConfig} {now : Instant} {es : List AutopilotEvent}
    (h : Machine.Meets step Renewed (start cfg now) es) :
    ∀ fs e, fs ++ [e] <+: es → InFrame (Machine.run step (start cfg now) fs) e := by
  have hframe : Machine.Meets step InFrame (start cfg now) es :=
    Machine.meets_of_inv (fun _ _ hf he => hf.step he) (fun _ e hf _ => hf.inFrame e)
      (framed_start cfg now) h
  exact Machine.meets_iff_prefix.mp hframe

end

section
attribute [local instance] AngleMath.plain

/-- A wind angle and a heading are known, and a target is given in compass mode. -/
abbrev compassTarget : List AutopilotEvent :=
  [.sensors (.selfVessel [⟨Source.nmea0183 "gps" "HC", 0,
      [⟨"environment.wind.angleApparent", .ofF64 0⟩, ⟨"navigation.headingMagnetic", .ofF64 0⟩]⟩]),
    .call (.setTarget 1), .call .engage, .call (.setMode "wind")]

/-- A tick is about to compute. -/
abbrev aboutToCompute : List AutopilotEvent := [.wake, .proceed]

/-- The target is given again in wind mode. -/
theorem steered_in_frame_wind :
    (Machine.run step (start .default 0)
      (compassTarget ++ [.call (.setTarget (1 / 2))] ++ aboutToCompute)).readTarget =
        some .wind ∧
    InFrame (Machine.run step (start .default 0)
      (compassTarget ++ [.call (.setTarget (1 / 2))] ++ aboutToCompute)) .proceed := by
  have hmeets : Machine.Meets step Renewed (start .default 0)
      (compassTarget ++ [.call (.setTarget (1 / 2))] ++ aboutToCompute ++ [.proceed]) := by
    decide +kernel
  exact ⟨by decide +kernel, steered_in_frame hmeets _ _ List.prefix_rfl⟩

/-- A compass target is steered as a wind angle. -/
theorem compass_target_steered_by_wind :
    ¬InFrame (Machine.run step (start .default 0) (compassTarget ++ aboutToCompute)) .proceed := by
  intro h
  let f := Machine.run step (start .default 0) (compassTarget ++ aboutToCompute)
  have hf : f.sys.comesTo (fun _ st _ outcome => decide (outcome.command ≠ none ∧
      outcome.command ≠ some 0 ∧ st.targetRad.isSome = true ∧ st.mode = .wind)) = true ∧
      f.readTarget = some .compass := by
    decide +kernel
  obtain ⟨l, st, takenAt, outcome, hc, hkind⟩ := AutopilotSystem.exists_computes hf.1
  obtain ⟨hsome, hne, htarget, hmode⟩ := of_decide_eq_true hkind
  cases outcome with
  | skip => exact hsome rfl
  | disengage alarm => exact hne rfl
  | steer rudder error now outs =>
    have hread := (h.steers l st takenAt rudder error now outs hc).1 htarget
    rw [hf.2, hmode] at hread
    cases hread

end

end FramedAutopilot

end SignalK

import SignalK.Autopilot.Tick

/-! The limits of the rudder over whole runs: how far it stands out, how fast it moves,
and how much the integral gathers. -/
namespace SignalK
open AutopilotOutput

/-- What a tick divides by, under the guards of the source. -/
def Snapshot.divisors (cfg : AutopilotConfig) (s : Snapshot) (now : Instant) : List ℚ :=
  (match s.lastTick with
    | some _ => []
    | none => [cfg.controlRateHz]) ++
  (tickDt cfg s.lastTick now).toList ++
  (match s.speed with
    | some speed =>
      if cfg.speedNominalMps ≤ 0 ∨ speed ≤ 0 then []
      else [cfg.speedNominalMps, max (3 / 10) (min (speed / cfg.speedNominalMps) 3)]
    | none => []) ++
  (if 0 < cfg.dtermQualityHalfLifeSecs then [cfg.dtermQualityHalfLifeSecs] else []) ++
  [max cfg.routeLookaheadM 1]

theorem tickDt_pos {cfg : AutopilotConfig} (hr : 0 < cfg.controlRateHz)
    (lastTick : Option Instant) (now : Instant) :
    ∃ t, tickDt cfg lastTick now = some t ∧ 0 < t := by
  cases lastTick with
  | none => exact ⟨1 / cfg.controlRateHz, if_neg hr.ne', by positivity⟩
  | some last => exact ⟨_, rfl, lt_max_of_lt_right (by norm_num)⟩

theorem Snapshot.divisors_ne_zero {cfg : AutopilotConfig} (hr : 0 < cfg.controlRateHz)
    (s : Snapshot) (now : Instant) : ∀ d ∈ s.divisors cfg now, d ≠ 0 := by
  intro d hd
  obtain ⟨t, ht, hpos⟩ := tickDt_pos hr s.lastTick now
  simp only [divisors, ht, List.mem_append, Option.toList_some, List.mem_singleton] at hd
  obtain (((hd | rfl) | hd) | hd) | rfl := hd
  · cases hlast : s.lastTick with
    | none =>
      rw [hlast] at hd
      obtain rfl := List.mem_singleton.mp hd
      exact hr.ne'
    | some last =>
      rw [hlast] at hd
      cases hd
  · exact hpos.ne'
  · cases hspeed : s.speed with
    | none =>
      rw [hspeed] at hd
      cases hd
    | some speed =>
      rw [hspeed] at hd
      simp only at hd
      split_ifs at hd with hn
      · cases hd
      · obtain rfl | rfl : d = _ ∨ d = _ := by simpa using hd
        · exact (not_le.mp (not_or.mp hn).1).ne'
        · exact (lt_max_of_lt_left (by norm_num)).ne'
  · split_ifs at hd with hl
    · obtain rfl := List.mem_singleton.mp hd
      exact hl.ne'
    · cases hd
  · exact (lt_max_of_lt_right one_pos).ne'

namespace AutopilotSystem

theorem alarm_onlyZero (alarm : AutopilotAlarm) :
    OnlyRudder 0 (outputs (.disengage alarm)) := by
  have hzero : ∀ path state text status, OnlyRudder 0
      [emitRudder 0, emitNotification path state text, .status status] := by
    intro path state text status output ho v hv
    obtain rfl | rfl | rfl : output = _ ∨ output = _ ∨ output = _ := by simpa using ho
    · simpa using hv
    · simp at hv
    · simp at hv
  cases alarm with
  | dataTimeout mode => exact hzero _ _ _ _
  | headingFailure => exact hzero _ _ _ _

section
variable [AngleMath]

/-- The command that a step computes. -/
def commandAt (p : AutopilotSystem) : AutopilotEvent → Option ℚ
  | .proceed =>
    match p.loop, p.task with
    | some l, .thinking st takenAt shouldEmit =>
      (l.control p.config (Snapshot.read p.config st takenAt) shouldEmit p.now).bind fun out =>
        out.2.command
    | _, _ => none
  | _ => none

/-- A step, and in place of its outputs the command that it computes. -/
def commanding (p : AutopilotSystem) (e : AutopilotEvent) : AutopilotSystem × List ℚ :=
  ((p.step e).1, (p.commandAt e).toList)

/-- The last of all commands of a run, zero before the first. -/
def lastCommand (p : AutopilotSystem) (es : List AutopilotEvent) : ℚ :=
  (Machine.exec commanding p es).2.getLast?.getD 0

/-- What is owed at one step that comes after a command. -/
structure Held (p : AutopilotSystem) (last : ℚ) (e : AutopilotEvent) : Prop where
  survives : p.loop.isSome = true → (p.step e).1.loop.isSome = true
  divides : ∀ st takenAt shouldEmit, e = .proceed → p.task = .thinking st takenAt shouldEmit →
    ∀ d ∈ (Snapshot.read p.config st takenAt).divisors p.config p.now, d ≠ 0
  bounded : ∀ rudder, p.commandAt e = some rudder → |rudder| ≤ p.config.maxRudderRad
  slow : ∀ l st takenAt rudder error now outs,
    Computes p e l st takenAt (.steer rudder error now outs) →
    0 < p.config.maxRudderRateRadPerSec → ∃ t, tickDt p.config st.lastTickAt p.now = some t ∧
      |rudder - last| ≤ p.config.maxRudderRateRadPerSec * t
  rests : ∀ l st takenAt alarm, Computes p e l st takenAt (.disengage alarm) →
    p.commandAt e = some 0
  emits : OnlyRudder last (p.step e).2
  integral : ∀ l ∈ (p.step e).1.loop, |l.pid.integral| ≤ p.config.integralLimit

/-- A tick that disengages is no faster than one that steers. -/
def Slewed (p : AutopilotSystem) (last : ℚ) (e : AutopilotEvent) : Prop :=
  ∀ l st takenAt outcome rudder, Computes p e l st takenAt outcome →
    outcome.command = some rudder → 0 < p.config.maxRudderRateRadPerSec →
    ∃ t, tickDt p.config st.lastTickAt p.now = some t ∧
      |rudder - last| ≤ p.config.maxRudderRateRadPerSec * t

/-- The last command is the one that is stored, or about to be, and nothing else is left to
emit. -/
def InStep (p : AutopilotSystem) (last : ℚ) : Prop :=
  match p.task with
  | .asleep => p.state.lastRudderRad = last
  | .looking st _ _ => p.state.lastRudderRad = last ∧ st.lastRudderRad = last
  | .thinking st _ _ => p.state.lastRudderRad = last ∧ st.lastRudderRad = last
  | .writing outcome => outcome.command = some last ∧ OnlyRudder last (outputs outcome)
  | .emitting left => p.state.lastRudderRad = last ∧ OnlyRudder last left

/-- The limits hold so far, and the loop has those of the configuration. -/
structure Kept (cfg : AutopilotConfig) (p : AutopilotSystem) (last : ℚ) : Prop where
  config : p.config = cfg
  limit : ∀ l ∈ p.loop, l.pid.integralLimit = cfg.integralLimit
  integral : ∀ l ∈ p.loop, l.pid.Bounded
  bounded : |last| ≤ cfg.maxRudderRad
  inStep : p.InStep last

theorem commandAt_thinking {p : AutopilotSystem} {l : ControlLoop} {st : AutopilotState}
    {takenAt : Instant} {shouldEmit : Bool} (hl : p.loop = some l)
    (ht : p.task = .thinking st takenAt shouldEmit) :
    p.commandAt .proceed =
      (l.control p.config (Snapshot.read p.config st takenAt) shouldEmit p.now).bind fun out =>
        out.2.command := by
  unfold commandAt
  rw [hl, ht]

theorem commandAt_of_not_thinking {p : AutopilotSystem}
    (ht : ∀ st takenAt shouldEmit, p.task ≠ .thinking st takenAt shouldEmit) (e : AutopilotEvent) :
    p.commandAt e = none := by
  cases e with
  | proceed =>
    simp only [commandAt]
    split
    · rename_i l st takenAt shouldEmit _ hthinking
      exact absurd hthinking (ht st takenAt shouldEmit)
    · rfl
  | _ => rfl

theorem Computes.commandAt {p : AutopilotSystem} {e : AutopilotEvent} {l : ControlLoop}
    {st : AutopilotState} {takenAt : Instant} {outcome : TickOutcome}
    (h : Computes p e l st takenAt outcome) : p.commandAt e = outcome.command := by
  obtain ⟨rfl, hl, shouldEmit, l', ht, hc⟩ := h
  rw [commandAt_thinking hl ht, hc]
  rfl

/-- What a tick commands is all that it emits, and is within the limits as the last command
was. -/
theorem control_command {cfg : AutopilotConfig} {l l' : ControlLoop} {s : Snapshot}
    {shouldEmit : Bool} {now : Instant} {outcome : TickOutcome} {rudder : ℚ}
    (h : l.control cfg s shouldEmit now = some (l', outcome))
    (hcommand : outcome.command = some rudder) (hlast : |s.lastRudder| ≤ cfg.maxRudderRad) :
    |rudder| ≤ cfg.maxRudderRad ∧ OnlyRudder rudder (outputs outcome) := by
  have hzero : |(0 : ℚ)| ≤ cfg.maxRudderRad := by
    rw [abs_zero]
    exact (abs_nonneg _).trans hlast
  obtain ⟨-, ⟨-, rfl⟩ | ⟨-, rfl | rfl | ⟨r, error, outs, rfl, -, hcommanded, honly⟩⟩⟩ :=
    ControlLoop.control_spec h
  · obtain rfl : 0 = rudder := Option.some.inj hcommand
    exact ⟨hzero, alarm_onlyZero _⟩
  · cases hcommand
  · obtain rfl : 0 = rudder := Option.some.inj hcommand
    exact ⟨hzero, alarm_onlyZero _⟩
  · obtain rfl : r = rudder := Option.some.inj hcommand
    exact ⟨hcommanded.bounded hlast, honly⟩

omit [AngleMath] in
theorem kept_start {cfg : AutopilotConfig} (hm : 0 ≤ cfg.maxRudderRad)
    (hi : 0 ≤ cfg.integralLimit) (now : Instant) : Kept cfg (start cfg now) 0 := by
  have hloop : ∀ l ∈ (start cfg now).loop, l.pid = .new cfg.integralLimit := by
    intro l hl
    obtain ⟨windFilter, -, hrest⟩ := Option.bind_eq_some_iff.mp hl
    obtain ⟨gust, -, rfl⟩ := Option.map_eq_some_iff.mp hrest
    rfl
  refine ⟨rfl, fun l hl => ?_, fun l hl => ?_, ?_, rfl⟩
  · rw [hloop l hl]
    rfl
  · rw [hloop l hl]
    simpa [PidController.Bounded, PidController.new] using hi
  · simpa using hm

variable {cfg : AutopilotConfig} {p : AutopilotSystem} {last : ℚ}

omit [AngleMath] in
/-- A new state that stores the same rudder keeps the limits. -/
theorem Kept.restate (hp : Kept cfg p last) {st : AutopilotState}
    (h : st.lastRudderRad = p.state.lastRudderRad) :
    InStep { p with state := st } last := by
  have hin := hp.inStep
  unfold InStep at hin ⊢
  simp only [h]
  exact hin

/-- The tick computes. -/
theorem Kept.think (hp : Kept cfg p last) (hi : 0 ≤ cfg.integralLimit) {l : ControlLoop}
    {st : AutopilotState} {takenAt : Instant} {shouldEmit : Bool} (hl : p.loop = some l)
    (ht : p.task = .thinking st takenAt shouldEmit) :
    Kept cfg (p.think l (Snapshot.read p.config st takenAt) shouldEmit)
      ((p.commandAt .proceed).getD last) := by
  obtain ⟨hstored, hread⟩ : p.state.lastRudderRad = last ∧ st.lastRudderRad = last := by
    have hin := hp.inStep
    rw [InStep, ht] at hin
    exact hin
  rw [commandAt_thinking hl ht]
  unfold AutopilotSystem.think
  cases hc : l.control p.config (Snapshot.read p.config st takenAt) shouldEmit p.now with
  | none => exact ⟨hp.config, fun _ h => (by cases h), fun _ h => (by cases h), hp.bounded, hstored⟩
  | some out =>
    obtain ⟨l', outcome⟩ := out
    obtain ⟨hcarries, -⟩ := ControlLoop.control_spec hc
    have hpid := l.onMode_pid (Snapshot.read p.config st takenAt).mode
    have hlimit : l'.pid.integralLimit = cfg.integralLimit := by
      rw [hcarries.limit, ← hp.limit l hl]
      obtain h | h := hpid <;> rw [h]
      rfl
    have hbounded : l'.pid.Bounded := by
      have hl0 : 0 ≤ l.pid.integralLimit := (hp.limit l hl).symm ▸ hi
      apply hcarries.bounded
      · obtain h | h := hpid <;> rw [h] <;> exact hl0
      · obtain h | h := hpid <;> rw [h]
        · exact hp.integral l hl
        · exact ControlLoop.bounded_reset hl0
    have hlast : |(Snapshot.read p.config st takenAt).lastRudder| ≤ p.config.maxRudderRad := by
      show |st.lastRudderRad| ≤ _
      rw [hread, hp.config]
      exact hp.bounded
    have hloop : ∀ k ∈ some l', k.pid.integralLimit = cfg.integralLimit ∧ k.pid.Bounded := by
      intro k hk
      obtain rfl := Option.some.inj hk
      exact ⟨hlimit, hbounded⟩
    cases outcome with
    | skip =>
      exact ⟨hp.config, fun k hk => (hloop k hk).1, fun k hk => (hloop k hk).2, hp.bounded, hstored⟩
    | disengage alarm =>
      obtain ⟨hr, honly⟩ := control_command hc rfl hlast
      exact ⟨hp.config, fun k hk => (hloop k hk).1, fun k hk => (hloop k hk).2, hp.config ▸ hr,
        rfl, honly⟩
    | steer rudder error now outs =>
      obtain ⟨hr, honly⟩ := control_command hc rfl hlast
      exact ⟨hp.config, fun k hk => (hloop k hk).1, fun k hk => (hloop k hk).2, hp.config ▸ hr,
        rfl, honly⟩

/-- The rest of a tick. -/
theorem Kept.proceed (hp : Kept cfg p last) (hi : 0 ≤ cfg.integralLimit) :
    Kept cfg p.proceed.1 ((p.commandAt .proceed).getD last) ∧ OnlyRudder last p.proceed.2 := by
  have hsilent : OnlyRudder last [] := fun _ ho => by cases ho
  have hin := hp.inStep
  unfold InStep at hin
  cases hl : p.loop with
  | none =>
    have hnone : p.commandAt .proceed = none := by
      unfold commandAt
      rw [hl]
    rw [proceed_dead hl, hnone]
    exact ⟨hp, hsilent⟩
  | some l =>
    cases ht : p.task with
    | thinking st takenAt shouldEmit =>
      rw [proceed_thinking hl ht]
      exact ⟨hp.think hi hl ht, hsilent⟩
    | asleep =>
      rw [proceed_asleep ht, commandAt_of_not_thinking (by simp [ht])]
      exact ⟨hp, hsilent⟩
    | looking st takenAt shouldEmit =>
      rw [proceed_looking hl ht, commandAt_of_not_thinking (by simp [ht])]
      rw [ht] at hin
      refine ⟨⟨hp.config, hp.limit, hp.integral, hp.bounded, ?_⟩, fun output ho v hv => ?_⟩
      · unfold InStep
        cases st.enabled with
        | true => exact hin
        | false => exact hin.1
      · cases shouldEmit with
        | true =>
          obtain rfl := List.mem_singleton.mp ho
          simp at hv
        | false => cases ho
    | writing outcome =>
      rw [proceed_writing hl ht, commandAt_of_not_thinking (by simp [ht])]
      rw [ht] at hin
      refine ⟨⟨hp.config, hp.limit, hp.integral, hp.bounded, ?_, hin.2⟩, hsilent⟩
      cases outcome with
      | skip => cases hin.1
      | disengage alarm => exact Option.some.inj hin.1
      | steer rudder error now outs => exact Option.some.inj hin.1
    | emitting left =>
      rw [ht] at hin
      cases left with
      | nil =>
        rw [proceed_emitted hl ht, commandAt_of_not_thinking (by simp [ht])]
        exact ⟨⟨hp.config, hp.limit, hp.integral, hp.bounded, hin.1⟩, hsilent⟩
      | cons output left =>
        rw [proceed_emitting hl ht, commandAt_of_not_thinking (by simp [ht])]
        refine ⟨⟨hp.config, hp.limit, hp.integral, hp.bounded, hin.1, fun o ho => ?_⟩,
          fun o ho => ?_⟩
        · exact hin.2 o (List.mem_cons_of_mem output ho)
        · obtain rfl := List.mem_singleton.mp ho
          exact hin.2 o List.mem_cons_self

theorem Kept.step (hp : Kept cfg p last) (hi : 0 ≤ cfg.integralLimit) (e : AutopilotEvent) :
    Kept cfg (p.step e).1 ((p.commandAt e).getD last) ∧ OnlyRudder last (p.step e).2 := by
  have hsilent : OnlyRudder last [] := fun _ ho => by cases ho
  cases e with
  | proceed => exact hp.proceed hi
  | pass nanoseconds => exact ⟨⟨hp.config, hp.limit, hp.integral, hp.bounded, hp.inStep⟩, hsilent⟩
  | sensors delta =>
    have hframe : (p.state.receive p.now delta).lastRudderRad = p.state.lastRudderRad := by
      obtain ⟨_, _, _, _, h⟩ := p.state.receive_frame p.now delta
      rw [h]
    exact ⟨⟨hp.config, hp.limit, hp.integral, hp.bounded, hp.restate hframe⟩, hsilent⟩
  | call c =>
    refine ⟨?_, hsilent⟩
    simp only [AutopilotSystem.step, AutopilotSystem.call]
    cases hc : p.state.call c with
    | error e => exact hp
    | ok st =>
      have hcalled := AutopilotState.called hc
      exact ⟨hp.config, hp.limit, hp.integral, hp.bounded, hp.restate hcalled.rudder⟩
  | wake =>
    refine ⟨?_, hsilent⟩
    simp only [AutopilotSystem.step, AutopilotSystem.wake]
    split
    · rename_i l hl ht
      have hstored : p.state.lastRudderRad = last := by
        have hin := hp.inStep
        rw [InStep, ht] at hin
        exact hin
      have hpid : ∀ k ∈ some { l with tickCounter := l.tickCounter + 1 }, k.pid = l.pid := by
        intro k hk
        obtain rfl := Option.some.inj hk
        rfl
      refine ⟨hp.config, fun k hk => ?_, fun k hk => ?_, hp.bounded, hstored, hstored⟩
      · rw [hpid k hk]
        exact hp.limit l hl
      · rw [hpid k hk]
        exact hp.integral l hl
    · exact hp

/-- No step ends the task. -/
theorem Kept.survives (hp : Kept cfg p last) (hm : 0 ≤ cfg.maxRudderRad)
    (hi : 0 ≤ cfg.integralLimit) (e : AutopilotEvent) (h : p.loop.isSome = true) :
    (p.step e).1.loop.isSome = true := by
  cases e with
  | proceed =>
    show p.proceed.1.loop.isSome = true
    obtain ⟨l, hl⟩ := Option.isSome_iff_exists.mp h
    cases ht : p.task with
    | thinking st takenAt shouldEmit =>
      have hsome := l.control_isSome (hp.config.symm ▸ hm) ((hp.limit l hl).symm ▸ hi)
        (Snapshot.read p.config st takenAt) shouldEmit p.now
      rw [proceed_thinking hl ht]
      unfold AutopilotSystem.think
      split
      · rename_i hnone
        rw [hnone] at hsome
        cases hsome
      · rfl
      · rfl
    | asleep => rw [proceed_asleep ht, h]
    | looking st takenAt shouldEmit => rw [proceed_looking hl ht, h]
    | writing outcome => rw [proceed_writing hl ht, h]
    | emitting left =>
      cases left with
      | nil => rw [proceed_emitted hl ht, h]
      | cons output left => rw [proceed_emitting hl ht, h]
  | wake =>
    show p.wake.loop.isSome = true
    unfold AutopilotSystem.wake
    split
    · rfl
    · exact h
  | call c =>
    show (p.call c).loop.isSome = true
    unfold AutopilotSystem.call
    split
    · exact h
    · exact h
  | pass nanoseconds => exact h
  | sensors delta => exact h

/-- What is owed at a step follows from the limits so far. -/
theorem Kept.held (hp : Kept cfg p last) (hm : 0 ≤ cfg.maxRudderRad) (hi : 0 ≤ cfg.integralLimit)
    (hr : 0 < cfg.controlRateHz) (e : AutopilotEvent) : Held p last e := by
  obtain ⟨hnext, hemits⟩ := hp.step hi e
  constructor
  case survives => exact hp.survives hm hi e
  case divides =>
    intro st takenAt shouldEmit _ _
    rw [hp.config]
    exact Snapshot.divisors_ne_zero hr _ _
  case bounded =>
    intro rudder h
    have hb := hnext.bounded
    rw [h, Option.getD_some] at hb
    rw [hp.config]
    exact hb
  case slow =>
    rintro l st takenAt rudder error _ outs ⟨rfl, hl, shouldEmit, l', ht, hc⟩ hrate
    have hread : st.lastRudderRad = last := by
      have hin := hp.inStep
      rw [InStep, ht] at hin
      exact hin.2
    obtain ⟨t, hdt, hpos⟩ := tickDt_pos (hp.config.symm ▸ hr) st.lastTickAt p.now
    obtain ⟨-, ⟨-, h⟩ | ⟨-, h | h | ⟨r, error', outs', h, -, hcommanded, -⟩⟩⟩ :=
      ControlLoop.control_spec hc
    · cases h
    · cases h
    · cases h
    · obtain rfl : rudder = r := by
        injection h
      have hslow := hcommanded.slow t hdt hrate hpos
      exact ⟨t, hdt, hread ▸ hslow⟩
  case rests => exact fun l st takenAt alarm hc => hc.commandAt
  case emits => exact hemits
  case integral =>
    intro l hl
    have hb : |l.pid.integral| ≤ l.pid.integralLimit := hnext.integral l hl
    rw [hnext.limit l hl] at hb
    rw [hp.config]
    exact hb

/-- With limits that are not negative and a control rate above zero, no tick of any run
panics, and each keeps to the limits of the rudder, its rate and the integral. -/
theorem limits_held {cfg : AutopilotConfig} (hm : 0 ≤ cfg.maxRudderRad)
    (hi : 0 ≤ cfg.integralLimit) (hr : 0 < cfg.controlRateHz) (now : Instant)
    (es : List AutopilotEvent) (e : AutopilotEvent) :
    Held (Machine.run step (start cfg now) es) (lastCommand (start cfg now) es) e := by
  have hstep : ∀ p (h : List ℚ) e, Kept cfg p (h.getLast?.getD 0) → True →
      Kept cfg (commanding p e).1 ((h ++ (commanding p e).2).getLast?.getD 0) := by
    intro p h e hp _
    have hnext := (hp.step hi e).1
    unfold commanding
    cases hc : p.commandAt e with
    | none => simpa [hc] using hnext
    | some rudder => simpa [hc] using hnext
  have hkept := Machine.exec_inv hstep (h := []) (kept_start hm hi now)
    (Machine.meets_true commanding (start cfg now) es)
  have hsame : ∀ p e, (step p e).1 = (commanding p e).1 := fun _ _ => rfl
  rw [Machine.run_congr hsame]
  exact hkept.held hm hi hr e

end

section
attribute [local instance] AngleMath.plain

/-- A tick a tenth of a second after the last one, from its start to its end. -/
abbrev wholeTick : List AutopilotEvent :=
  [.pass 100000000, .wake, .proceed, .proceed, .proceed, .proceed]

/-- A heading of zero comes in, and the autopilot is engaged with a target to starboard. -/
abbrev engagedAfter (nanoseconds : Nat) : List AutopilotEvent :=
  [.sensors (.selfVessel [⟨Source.nmea0183 "gps" "HC", 0,
    [⟨"navigation.headingMagnetic", .ofF64 0⟩]⟩]), .call (.setTarget (1 / 10)), .call .engage,
    .pass nanoseconds]

/-- The tick after another one is about to compute. -/
abbrev secondTick (nanoseconds : Nat) : List AutopilotEvent :=
  engagedAfter nanoseconds ++ wholeTick ++ [.pass 100000000, .wake, .proceed]

theorem limits_held_default :
    lastCommand (start .default 0) (secondTick 0) = 9 / 1000 ∧
    (Machine.run step (start .default 0) (secondTick 0)).commandAt .proceed = some (18 / 1000) ∧
    Held (Machine.run step (start .default 0) (secondTick 0))
      (lastCommand (start .default 0) (secondTick 0)) .proceed := by
  have hlast : lastCommand (start .default 0) (secondTick 0) = 9 / 1000 ∧
      (Machine.run step (start .default 0) (secondTick 0)).commandAt .proceed =
        some (18 / 1000) := by
    decide +kernel
  refine ⟨hlast.1, hlast.2, limits_held ?_ ?_ ?_ 0 _ _⟩
  · decide +kernel
  · decide +kernel
  · decide +kernel

/-- The first tick is about to compute. -/
abbrev firstTick : List AutopilotEvent :=
  engagedAfter 0 ++ [.pass 100000000, .wake, .proceed]

/-- The tick at which the heading has become too old is about to compute. -/
abbrev lateTick : List AutopilotEvent :=
  secondTick 10700000000 ++ [.proceed, .proceed, .proceed, .pass 100000000, .wake, .proceed]

/-- A timeout centres the rudder at once; a negative limit of the rudder or the integral
ends the task, and without a control rate the first tick divides by zero. -/
theorem limits_missed :
    let held (cfg : AutopilotConfig) :=
      Held (Machine.run step (start cfg 0) firstTick) (lastCommand (start cfg 0) firstTick) .proceed
    ¬Slewed (Machine.run step (start .default 0) lateTick)
      (lastCommand (start .default 0) lateTick) .proceed ∧
    ¬held { AutopilotConfig.default with maxRudderRad := -1 } ∧
    ¬held { AutopilotConfig.default with integralLimit := -1 } ∧
    ¬held { AutopilotConfig.default with controlRateHz := 0 } := by
  refine ⟨fun h => ?_, fun h => ?_, fun h => ?_, fun h => ?_⟩
  · let p := Machine.run step (start .default 0) lateTick
    have hp : p.comesTo (fun _ st _ outcome => decide (outcome.command = some 0 ∧
        0 < p.config.maxRudderRateRadPerSec ∧
        (tickDt p.config st.lastTickAt p.now).all fun t => decide
          (p.config.maxRudderRateRadPerSec * t <
            |0 - lastCommand (start .default 0) lateTick|))) = true := by
      decide +kernel
    obtain ⟨l, st, takenAt, outcome, hc, hkind⟩ := exists_computes hp
    obtain ⟨hcommand, hrate, hfar⟩ := of_decide_eq_true hkind
    obtain ⟨t, ht, hnear⟩ := h l st takenAt outcome 0 hc hcommand hrate
    rw [ht] at hfar
    exact absurd hnear (not_le.mpr (of_decide_eq_true hfar))
  · exact absurd (h.survives (by decide +kernel)) (by decide +kernel)
  · exact absurd (h.survives (by decide +kernel)) (by decide +kernel)
  · let p := Machine.run step
      (start { AutopilotConfig.default with controlRateHz := 0 } 0) firstTick
    have hp : p.comesTo (fun _ st takenAt _ => decide
        (0 ∈ (Snapshot.read p.config st takenAt).divisors p.config p.now)) = true := by
      decide +kernel
    obtain ⟨l, st, takenAt, outcome, ⟨-, -, shouldEmit, l', ht, -⟩, hkind⟩ := exists_computes hp
    exact h.divides st takenAt shouldEmit rfl ht 0 (of_decide_eq_true hkind) rfl

end

end AutopilotSystem

end SignalK

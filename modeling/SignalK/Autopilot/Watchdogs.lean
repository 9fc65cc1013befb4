import Mathlib.Data.List.DropRight
import SignalK.Autopilot.Loop

/-! Two watchdogs of the control loop over a whole history of ticks: how long recovery mode
lasts while a deviation does, and which readings of the rudder raise and clear its alarm. -/
namespace SignalK
open Machine

namespace RecoveryState

/-- A tick reports whether recovery is active. -/
def tick (threshold : ℚ) (maxTicks : Nat) (r : RecoveryState) (error : ℚ) :
    RecoveryState × List Bool :=
  let r := r.update error threshold maxTicks
  (r, [r.active])

/-- The state after some errors. -/
def after (threshold : ℚ) (maxTicks : Nat) (errors : List ℚ) : RecoveryState :=
  run (tick threshold maxTicks) new errors

/-- On how many ticks of a period recovery is active. -/
def activeTicks (threshold : ℚ) (maxTicks : Nat) (r : RecoveryState) (period : List ℚ) : Nat :=
  (exec (tick threshold maxTicks) r period).2.count true

/-- The ticks left to the countdown, a full one where it is about to begin. -/
def countdown (maxTicks : Nat) (r : RecoveryState) : Nat :=
  if r.active then r.ticksRemaining else maxTicks

/-- How often a countdown comes to its end in so many ticks of a deviation. -/
def expiries (left maxTicks ticks : Nat) : Nat :=
  if ticks < left then 0 else 1 + (ticks - left) / maxTicks

variable {threshold : ℚ} {maxTicks : Nat}

/-- What a tick does: it waits for a deviation, or it counts down. -/
theorem update_eq (h : 0 < threshold) (r : RecoveryState) (error : ℚ) :
    r.update error threshold maxTicks =
      if r.active = false ∧ |error| ≤ threshold then r
      else
        ⟨decide (r.countdown maxTicks - 1 ≠ 0 ∧ threshold * (3 / 10) ≤ |error|),
          r.countdown maxTicks - 1⟩ := by
  unfold update countdown
  rw [if_neg (by linarith)]
  cases hact : r.active with
  | true =>
    by_cases hlow : threshold * (3 / 10) ≤ |error|
    · simp [hact, hlow, not_lt.mpr hlow]
    · simp [hact, hlow, not_le.mp hlow]
  | false =>
    by_cases he : |error| ≤ threshold
    · simp [hact, he, not_lt.mpr he]
    · have hhigh : threshold * (3 / 10) ≤ |error| := by linarith
      simp [he, not_le.mp he, hhigh, not_lt.mpr hhigh]

/-- An active state has ticks left. -/
def Running (r : RecoveryState) : Prop := r.active = true → 0 < r.ticksRemaining

theorem update_running (h : 0 < threshold) (maxTicks : Nat) {r : RecoveryState} (hr : r.Running) (error : ℚ) :
    (r.update error threshold maxTicks).Running := by
  rw [update_eq h]
  split_ifs
  · exact hr
  · intro hon
    exact Nat.pos_of_ne_zero (of_decide_eq_true hon).1

theorem after_running (h : 0 < threshold) (maxTicks : Nat) (errors : List ℚ) :
    (after threshold maxTicks errors).Running := by
  have hstep : ∀ r error, Running r → True → Running (tick threshold maxTicks r error).1 :=
    fun r error hr _ => update_running h maxTicks hr error
  have hnew : Running new := fun hon => by cases hon
  exact run_inv hstep hnew (meets_true _ new errors)

/-- In a deviation only the countdown matters. -/
theorem update_above (h : 0 < threshold) (maxTicks : Nat) (r : RecoveryState) {error : ℚ}
    (he : threshold < |error|) :
    r.update error threshold maxTicks =
      ⟨decide (r.countdown maxTicks - 1 ≠ 0), r.countdown maxTicks - 1⟩ := by
  have hhigh : threshold * (3 / 10) ≤ |error| := by linarith
  rw [update_eq h, if_neg (fun hw => absurd hw.2 (not_le.mpr he))]
  simp [hhigh]

/-- A tick below the release level ends recovery. -/
theorem update_low (h : 0 < threshold) (r : RecoveryState) {error : ℚ}
    (he : |error| < threshold * (3 / 10)) :
    (r.update error threshold maxTicks).active = false := by
  rw [update_eq h]
  split_ifs with hw
  · exact hw.1
  · exact decide_eq_false fun hon => absurd hon.2 (not_le.mpr he)

theorem countdown_pos (hmax : 0 < maxTicks) {r : RecoveryState} (hr : r.Running) :
    0 < r.countdown maxTicks := by
  unfold countdown
  split_ifs with hact
  · exact hr hact
  · exact hmax

/-- One more tick of a deviation is one at which the countdown ends, or it is active. -/
theorem expiries_succ {left : Nat} (hmax : 0 < maxTicks) (hleft : 0 < left) (ticks : Nat) :
    expiries left maxTicks (ticks + 1) =
      if left = 1 then 1 + expiries maxTicks maxTicks ticks
      else expiries (left - 1) maxTicks ticks := by
  unfold expiries
  by_cases h1 : left = 1
  · subst h1
    rw [if_neg (by omega), if_pos rfl]
    by_cases ht : ticks < maxTicks
    · rw [if_pos ht, Nat.add_sub_cancel, Nat.div_eq_of_lt ht]
    · have hstep : ticks / maxTicks = (ticks - maxTicks) / maxTicks + 1 :=
        Nat.div_eq_sub_div hmax (by omega)
      rw [if_neg ht, Nat.add_sub_cancel, hstep]
      omega
  · rw [if_neg h1]
    have hlt : ticks + 1 < left ↔ ticks < left - 1 := by omega
    have hsub : ticks + 1 - left = ticks - (left - 1) := by omega
    simp only [hlt, hsub]

/-- While a deviation lasts, every tick is active but those at which a countdown ends. -/
theorem activeTicks_add (h : 0 < threshold) (hmax : 0 < maxTicks) {period : List ℚ}
    (habove : ∀ e ∈ period, threshold < |e|) {r : RecoveryState} (hr : r.Running) :
    activeTicks threshold maxTicks r period +
      expiries (r.countdown maxTicks) maxTicks period.length = period.length := by
  induction period generalizing r with
  | nil => simp [activeTicks, exec, expiries, countdown_pos hmax hr]
  | cons e es ih =>
    have hpos := countdown_pos hmax hr
    have hstep := update_above h maxTicks r (habove e (.head _))
    have hrest := ih (fun a ha => habove a (.tail e ha))
      (update_running h maxTicks hr e)
    have hcount : activeTicks threshold maxTicks r (e :: es) =
        [decide (r.countdown maxTicks - 1 ≠ 0)].count true +
          activeTicks threshold maxTicks (r.update e threshold maxTicks) es := by
      simp only [activeTicks, exec, tick, List.count_append, hstep]
    rw [hcount, List.length_cons, expiries_succ hmax hpos]
    by_cases h1 : r.countdown maxTicks = 1
    · have hoff : (r.update e threshold maxTicks).countdown maxTicks = maxTicks := by
        rw [hstep, h1]
        rfl
      rw [hoff] at hrest
      simp [h1]
      omega
    · have hne : r.countdown maxTicks - 1 ≠ 0 := by omega
      have hon : (r.update e threshold maxTicks).countdown maxTicks =
          r.countdown maxTicks - 1 := by
        rw [hstep]
        exact if_pos (decide_eq_true hne)
      rw [hon] at hrest
      rw [if_neg h1]
      simp [hne]
      omega

/-- Without ticks it is never active. -/
theorem after_zero (h : 0 < threshold) (errors : List ℚ) :
    (after threshold 0 errors).active = false := by
  have hstep : ∀ r error, r.active = false → True → (tick threshold 0 r error).1.active = false := by
    intro r error hr _
    show (r.update error threshold 0).active = false
    rw [update_eq h]
    split_ifs
    · exact hr
    · simp [countdown, hr]
  have hrest := meets_true (tick threshold 0) new errors
  exact run_inv hstep rfl hrest

end RecoveryState

/-- What a tick does with the gains once they are settled. -/
def ControlLoop.steerWith [AngleMath] (l : ControlLoop) (cfg : AutopilotConfig) (s : Snapshot)
    (heading : Option ℚ) (effectiveTarget : ℚ) (dt : Option ℚ) (shouldEmit : Bool) (now : Instant)
    (pidCfg : PidConfig) : Option (ControlLoop × TickOutcome) :=
  (l.dispatch cfg s heading effectiveTarget dt
      (Pd.validateYawRate s.yawRate cfg.maxYawRateRadPerSec) pidCfg).bind fun out =>
    match out.2 with
    | none => some (out.1, .skip)
    | some (rawRudder, newError) => out.1.finish cfg s dt shouldEmit now rawRudder newError

/-- An inactive recovery leaves the gains as the speed and the sensor give them. -/
theorem ControlLoop.steer_inactive [AngleMath] (l : ControlLoop) (cfg : AutopilotConfig)
    (s : Snapshot) (heading : Option ℚ) (effectiveTarget : ℚ) (dt : Option ℚ) (shouldEmit : Bool)
    (now : Instant) (h : (l.recover cfg s heading effectiveTarget).recovery.active = false) :
    l.steer cfg s heading effectiveTarget dt shouldEmit now =
      (l.recover cfg s heading effectiveTarget).steerWith cfg s heading effectiveTarget dt
        shouldEmit now (gains cfg s) := by
  have hgains : (l.recover cfg s heading effectiveTarget).recovery.apply (gains cfg s)
      cfg.recoveryGainFactor = gains cfg s := by
    unfold RecoveryState.apply
    simp [h]
  have hsteer : l.steer cfg s heading effectiveTarget dt shouldEmit now =
      (l.recover cfg s heading effectiveTarget).steerWith cfg s heading effectiveTarget dt
        shouldEmit now ((l.recover cfg s heading effectiveTarget).recovery.apply (gains cfg s)
          cfg.recoveryGainFactor) := rfl
  rw [hsteer, hgains]

namespace RecoveryState
variable {threshold : ℚ} {maxTicks : Nat}

/-- Recovery is limited to so many ticks of a deviation, begins with it, ends before the
target is reached, and does nothing to the gains of a tick otherwise. -/
structure LimitedPerDeviation [AngleMath] (threshold : ℚ) (maxTicks : Nat) (errors : List ℚ) :
    Prop where
  limited : ∀ pre period post, errors = pre ++ (period ++ post) →
    (∀ e ∈ period, threshold < |e|) →
    activeTicks threshold maxTicks (after threshold maxTicks pre) period ≤ maxTicks
  begins : ∀ pre e post, errors = pre ++ e :: post → threshold < |e| → 1 < maxTicks →
    (after threshold maxTicks pre).active = false →
    (after threshold maxTicks (pre ++ [e])).active = true
  released : ∀ pre e post, errors = pre ++ e :: post → |e| < threshold * (3 / 10) →
    (after threshold maxTicks (pre ++ [e])).active = false
  unboosted : ∀ pre, pre <+: errors → (after threshold maxTicks pre).active = false →
    ∀ (l : ControlLoop) cfg s heading effectiveTarget dt shouldEmit now,
      (l.recover cfg s heading effectiveTarget).recovery = after threshold maxTicks pre →
      l.steer cfg s heading effectiveTarget dt shouldEmit now =
        (l.recover cfg s heading effectiveTarget).steerWith cfg s heading effectiveTarget dt
          shouldEmit now (ControlLoop.gains cfg s)

/-- Recovery begins anew once its countdown has ended, so a deviation must be over soon
after that. -/
def Brief (threshold : ℚ) (maxTicks : Nat) (errors : List ℚ) : Prop :=
  ∀ pre period post, errors = pre ++ (period ++ post) → (∀ e ∈ period, threshold < |e|) →
    maxTicks = 0 ∨ period.length ≤ maxTicks +
      expiries ((after threshold maxTicks pre).countdown maxTicks) maxTicks period.length

/-- From rest and for three ticks or more, one tick after the first end is the last one. -/
theorem brief_from_rest (hmax : 3 ≤ maxTicks) (ticks : Nat) :
    ticks ≤ maxTicks + expiries maxTicks maxTicks ticks ↔ ticks ≤ maxTicks + 1 := by
  unfold expiries
  split_ifs with ht
  · omega
  · have hdiv : (ticks - maxTicks) / maxTicks ≤ (ticks - maxTicks) / 3 :=
      Nat.div_le_div_left hmax (by omega)
    generalize (ticks - maxTicks) / maxTicks = more at hdiv
    omega

theorem after_snoc (errors : List ℚ) (e : ℚ) :
    after threshold maxTicks (errors ++ [e]) =
      (after threshold maxTicks errors).update e threshold maxTicks := run_append _ _ _ _

theorem activeTicks_zero (h : 0 < threshold) (pre period : List ℚ) :
    activeTicks threshold 0 (after threshold 0 pre) period = 0 := by
  induction period generalizing pre with
  | nil => rfl
  | cons e es ih =>
    have hrest := ih (pre ++ [e])
    have hoff := after_zero h (pre ++ [e])
    rw [after_snoc] at hrest hoff
    simp only [activeTicks, exec, tick, List.count_append, hoff] at hrest ⊢
    simpa using hrest

/-- Recovery mode is limited exactly in histories whose deviations are brief. -/
theorem limitedPerDeviation_iff [AngleMath] (h : 0 < threshold) (maxTicks : Nat)
    (errors : List ℚ) :
    LimitedPerDeviation threshold maxTicks errors ↔ Brief threshold maxTicks errors := by
  constructor
  · intro hl pre period post he habove
    obtain h0 | hpos := Nat.eq_zero_or_pos maxTicks
    · exact .inl h0
    · have hcount := activeTicks_add h hpos habove (after_running h maxTicks pre)
      have hmax := hl.limited pre period post he habove
      exact .inr (by omega)
  · intro hb
    constructor
    case limited =>
      intro pre period post he habove
      obtain h0 | hpos := Nat.eq_zero_or_pos maxTicks
      · subst h0
        exact (activeTicks_zero h pre period).le
      · have hcount := activeTicks_add h hpos habove (after_running h maxTicks pre)
        have hbrief := hb pre period post he habove
        omega
    case begins =>
      intro pre e post _ habove hmax hoff
      rw [after_snoc, update_above h maxTicks _ habove]
      simp only [countdown, hoff]
      exact decide_eq_true (by simp; omega)
    case released =>
      intro pre e post _ hlow
      rw [after_snoc]
      exact update_low h _ hlow
    case unboosted =>
      intro pre _ hoff l cfg s heading effectiveTarget dt shouldEmit now hrec
      exact l.steer_inactive cfg s heading effectiveTarget dt shouldEmit now (by rw [hrec, hoff])

section
attribute [local instance] AngleMath.plain

theorem limitedPerDeviation_iff_gust :
    LimitedPerDeviation (7 / 20) 15 [0, 1 / 2, 1 / 4, 0] ↔
      Brief (7 / 20) 15 [0, 1 / 2, 1 / 4, 0] :=
  limitedPerDeviation_iff (by norm_num) 15 _

/-- With the default values and the target a radian away for 17 ticks it is active on 16. -/
theorem recovery_begins_anew :
    ¬ ∀ threshold maxTicks errors, 0 < threshold →
      LimitedPerDeviation threshold maxTicks errors := by
  intro h
  have habove : ∀ e ∈ List.replicate 17 (1 : ℚ), 7 / 20 < |e| := by
    intro e he
    rw [List.eq_of_mem_replicate he]
    norm_num
  have hl := (h (7 / 20) 15 (List.replicate 17 1) (by norm_num)).limited [] _ [] rfl habove
  exact absurd hl (by decide +kernel)

end

end RecoveryState

namespace RudderFeedbackMonitor

/-- What one tick of the control loop tells the monitor. -/
structure Tick where
  commanded : ℚ
  actual : Option ℚ

/-- How far the rudder is from its command, if there is a sensor. -/
def Tick.mismatch (tick : Tick) : Option ℚ := tick.actual.map fun actual => |tick.commanded - actual|

/-- One update and the event that it returns: whether the alarm fired or was cleared. -/
def step (threshold : ℚ) (timeout : UInt32) (m : RudderFeedbackMonitor) (tick : Tick) :
    RudderFeedbackMonitor × List Bool :=
  let updated := m.update tick.commanded tick.actual threshold timeout.toNat
  (updated.1, updated.2.toList)

def after (threshold : ℚ) (timeout : UInt32) (ticks : List Tick) : RudderFeedbackMonitor :=
  run (step threshold timeout) new ticks

def events (threshold : ℚ) (timeout : UInt32) (ticks : List Tick) : List Bool :=
  (exec (step threshold timeout) new ticks).2

/-- How many of the last readings are all above the threshold. -/
def streak (threshold : ℚ) (ticks : List Tick) : Nat :=
  ((ticks.filterMap Tick.mismatch).rtakeWhile fun d => decide (threshold < d)).length

/-- The last event was a fired one. -/
def Fired (threshold : ℚ) (timeout : UInt32) (ticks : List Tick) : Prop :=
  (events threshold timeout ticks).getLast? = some true

variable {threshold : ℚ} {timeout : UInt32}

theorem streak_snoc (threshold : ℚ) (ticks : List Tick) (tick : Tick) :
    streak threshold (ticks ++ [tick]) =
      match tick.mismatch with
      | none => streak threshold ticks
      | some d => if threshold < d then streak threshold ticks + 1 else 0 := by
  unfold streak
  cases hd : tick.mismatch with
  | none => simp [hd]
  | some d =>
    by_cases hab : threshold < d
    · simp [List.filterMap_append, hd, hab]
    · simp [List.filterMap_append, hd, hab]

/-- What an update does, by the reading. -/
theorem update_eq (h : 0 < threshold) (m : RudderFeedbackMonitor) (tick : Tick) (timeout : Nat) :
    m.update tick.commanded tick.actual threshold timeout =
      match tick.mismatch with
      | none => (m, none)
      | some d =>
        if threshold < d then
          let ticks := (m.mismatchTicks + 1) % 2 ^ 32
          if timeout ≤ ticks ∧ m.alarmActive = false then (⟨ticks, true⟩, some true)
          else (⟨ticks, m.alarmActive⟩, none)
        else (⟨0, false⟩, if m.alarmActive then some false else none) := by
  unfold update Tick.mismatch
  rw [if_neg (by linarith)]
  cases hact : tick.actual with
  | none => simp
  | some actual =>
    simp only [Option.map_some]
    split_ifs <;> rfl

/-- Events that change a flag, which is not set at first. -/
def Alternating (flags : List Bool) : Prop :=
  ∀ (i : Nat) (flag : Bool), flags[i]? = some flag → flag = decide (i % 2 = 0)

/-- The monitor and its events agree, and while no alarm is active its count is the streak,
which is short of the timeout. -/
structure Tracks (timeout : UInt32) (threshold : ℚ) (ticks : List Tick)
    (m : RudderFeedbackMonitor) (flags : List Bool) : Prop where
  active : m.alarmActive = decide (flags.length % 2 = 1)
  alternating : Alternating flags
  counted : m.alarmActive = false →
    m.mismatchTicks = streak threshold ticks ∧ streak threshold ticks < timeout.toNat

theorem alternating_snoc {flags : List Bool} (h : Alternating flags) {flag : Bool}
    (hf : flag = decide (flags.length % 2 = 0)) : Alternating (flags ++ [flag]) := by
  intro i b hb
  obtain hlt | hge := Nat.lt_or_ge i flags.length
  · rw [List.getElem?_append_left hlt] at hb
    exact h i b hb
  · have hi : i = flags.length := by
      have hlen := (List.getElem?_eq_some_iff.mp hb).1
      simp only [List.length_append, List.length_singleton] at hlen
      omega
    subst hi
    simp only [List.getElem?_concat_length, Option.some.injEq] at hb
    rw [← hb, hf]

theorem Alternating.last {flags : List Bool} (h : Alternating flags) :
    flags.getLast? = some true ↔ flags.length % 2 = 1 := by
  rw [List.getLast?_eq_getElem?]
  constructor
  · intro hl
    have hpar := of_decide_eq_true (h _ true hl).symm
    have hlen := (List.getElem?_eq_some_iff.mp hl).1
    omega
  · intro hodd
    have hlt : flags.length - 1 < flags.length := by omega
    have hflag := h (flags.length - 1) _ (List.getElem?_eq_getElem hlt)
    rw [List.getElem?_eq_getElem hlt, hflag]
    simp
    omega

theorem after_snoc (ticks : List Tick) (tick : Tick) :
    after threshold timeout (ticks ++ [tick]) =
      ((after threshold timeout ticks).update tick.commanded tick.actual threshold
        timeout.toNat).1 := run_append _ _ _ _

theorem events_snoc (ticks : List Tick) (tick : Tick) :
    events threshold timeout (ticks ++ [tick]) =
      events threshold timeout ticks ++
        ((after threshold timeout ticks).update tick.commanded tick.actual threshold
          timeout.toNat).2.toList := by
  unfold events
  rw [exec_append]
  simp [exec, step, after, run]

section
variable {ticks : List Tick} {tick : Tick} {m : RudderFeedbackMonitor} {flags : List Bool} {d : ℚ}

/-- A reading above the threshold counts, and fires the alarm when it is due. -/
theorem Tracks.above (ht : Tracks timeout threshold ticks m flags) (h : 0 < threshold)
    (hd : tick.mismatch = some d) (habove : threshold < d) :
    Tracks timeout threshold (ticks ++ [tick])
      (m.update tick.commanded tick.actual threshold timeout.toNat).1
      (flags ++ (m.update tick.commanded tick.actual threshold timeout.toNat).2.toList) := by
  obtain ⟨hactive, halt, hcount⟩ := ht
  have hstreak := streak_snoc threshold ticks tick
  have hword := timeout.toNat_lt
  rw [hd] at hstreak
  simp only [if_pos habove] at hstreak
  rw [update_eq h, hd]
  simp only [if_pos habove]
  cases hon : m.alarmActive with
  | true =>
    rw [hon] at hactive
    simp only [Bool.true_eq_false, and_false, if_false, Option.toList_none, List.append_nil]
    exact ⟨hactive, halt, fun hoff => by cases hoff⟩
  | false =>
    -- the count is short of the timeout, so it does not wrap
    obtain ⟨hticks, hshort⟩ := hcount hon
    rw [hon] at hactive
    have heven := of_decide_eq_false hactive.symm
    have hnext : (m.mismatchTicks + 1) % 2 ^ 32 = streak threshold ticks + 1 := by
      rw [hticks]
      exact Nat.mod_eq_of_lt (by omega)
    simp only [hnext, and_true]
    by_cases hfire : timeout.toNat ≤ streak threshold ticks + 1
    · rw [if_pos hfire]
      refine ⟨?_, alternating_snoc halt ?_, fun hoff => by cases hoff⟩
      · simp
        omega
      · simp
        omega
    · simp only [if_neg hfire, Option.toList_none, List.append_nil]
      refine ⟨hactive, halt, fun _ => ?_⟩
      rw [hstreak]
      exact ⟨rfl, by omega⟩

/-- Any other reading begins the count anew, and clears the alarm. -/
theorem Tracks.below (ht : Tracks timeout threshold ticks m flags) (h : 0 < threshold)
    (hn : 0 < timeout) (hd : tick.mismatch = some d) (hbelow : ¬ threshold < d) :
    Tracks timeout threshold (ticks ++ [tick])
      (m.update tick.commanded tick.actual threshold timeout.toNat).1
      (flags ++ (m.update tick.commanded tick.actual threshold timeout.toNat).2.toList) := by
  obtain ⟨hactive, halt, -⟩ := ht
  have hstreak := streak_snoc threshold ticks tick
  have hpos : 0 < timeout.toNat := hn
  rw [hd] at hstreak
  simp only [if_neg hbelow] at hstreak
  have hzero : 0 = streak threshold (ticks ++ [tick]) ∧
      streak threshold (ticks ++ [tick]) < timeout.toNat := by omega
  rw [update_eq h, hd]
  simp only [if_neg hbelow]
  cases hon : m.alarmActive with
  | true =>
    rw [hon] at hactive
    have hodd := of_decide_eq_true hactive.symm
    refine ⟨?_, alternating_snoc halt ?_, fun _ => hzero⟩
    · simp
      omega
    · simp
      omega
  | false =>
    rw [hon] at hactive
    simp only [Bool.false_eq_true, if_false, Option.toList_none, List.append_nil]
    exact ⟨hactive, halt, fun _ => hzero⟩

end

theorem tracks_run (h : 0 < threshold) (hn : 0 < timeout) (ticks : List Tick) :
    Tracks timeout threshold ticks (after threshold timeout ticks)
      (events threshold timeout ticks) := by
  induction ticks using List.reverseRecOn with
  | nil =>
    constructor
    · rfl
    · intro i flag hf
      cases hf
    · intro _
      exact ⟨rfl, hn⟩
  | append_singleton ticks tick ih =>
    rw [after_snoc, events_snoc]
    cases hd : tick.mismatch with
    | none =>
      have hstreak := streak_snoc threshold ticks tick
      rw [hd] at hstreak
      rw [update_eq h, hd]
      simp only [Option.toList_none, List.append_nil]
      exact ⟨ih.active, ih.alternating, hstreak ▸ ih.counted⟩
    | some d =>
      by_cases habove : threshold < d
      · exact ih.above h hd habove
      · exact ih.below h hn hd habove

/-- The events of a history and the alarm that they leave, by the readings. -/
structure FollowsReadings (threshold : ℚ) (timeout : UInt32) (ticks : List Tick) : Prop where
  alternating : Alternating (events threshold timeout ticks)
  fired : ∀ pre tick post, ticks = pre ++ tick :: post →
    (((after threshold timeout pre).update tick.commanded tick.actual threshold
        timeout.toNat).2 = some true ↔
      (∃ d, tick.mismatch = some d ∧ threshold < d) ∧ ¬ Fired threshold timeout pre ∧
        streak threshold (pre ++ [tick]) = timeout.toNat)
  cleared : ∀ pre tick post, ticks = pre ++ tick :: post →
    (((after threshold timeout pre).update tick.commanded tick.actual threshold
        timeout.toNat).2 = some false ↔
      (∃ d, tick.mismatch = some d ∧ d ≤ threshold) ∧ Fired threshold timeout pre)
  active : ∀ pre, pre <+: ticks →
    ((after threshold timeout pre).alarmActive = true ↔ Fired threshold timeout pre)

theorem active_iff_fired (h : 0 < threshold) (hn : 0 < timeout) (ticks : List Tick) :
    (after threshold timeout ticks).alarmActive = true ↔ Fired threshold timeout ticks := by
  have htracks := tracks_run h hn ticks
  rw [htracks.active, decide_eq_true_iff]
  exact htracks.alternating.last.symm

/-- The alarm of the rudder fires and clears as the readings say. -/
theorem follows_readings (h : 0 < threshold) (hn : 0 < timeout) (ticks : List Tick) :
    FollowsReadings threshold timeout ticks := by
  constructor
  case alternating => exact (tracks_run h hn ticks).alternating
  case active => exact fun pre _ => active_iff_fired h hn pre
  case fired =>
    intro pre tick _ _
    have hcount := (tracks_run h hn pre).counted
    have hword := timeout.toNat_lt
    rw [← active_iff_fired h hn, streak_snoc, update_eq h]
    cases hd : tick.mismatch with
    | none => simp
    | some d =>
      by_cases habove : threshold < d
      · cases hon : (after threshold timeout pre).alarmActive with
        | true => simp [habove]
        | false =>
          obtain ⟨hticks, hshort⟩ := hcount hon
          have hnext : (streak threshold pre + 1) % 2 ^ 32 = streak threshold pre + 1 :=
            Nat.mod_eq_of_lt (by omega)
          simp only [habove, if_true, hticks, hnext, and_true]
          split_ifs with hfire
          · simp [habove]
            omega
          · simp [habove]
            omega
      · simp only [habove, if_false]
        split_ifs <;> simp [habove]
  case cleared =>
    intro pre tick _ _
    rw [← active_iff_fired h hn, update_eq h]
    cases hd : tick.mismatch with
    | none => simp
    | some d =>
      by_cases habove : threshold < d
      · have hnot : ¬ d ≤ threshold := not_le.mpr habove
        simp only [habove, if_true]
        split_ifs <;> simp [hnot]
      · have hle : d ≤ threshold := not_lt.mp habove
        simp [habove, hle]

/-- Two readings above the threshold with a tick without sensor between, then one below. -/
theorem follows_readings_stuck :
    FollowsReadings (1 / 10) 2 [⟨1, some 0⟩, ⟨1, none⟩, ⟨1, some (1 / 2)⟩, ⟨1, some 1⟩] :=
  follows_readings (by norm_num) (by decide) _

end RudderFeedbackMonitor

end SignalK

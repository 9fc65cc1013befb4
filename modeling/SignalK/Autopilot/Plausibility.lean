import Mathlib.Data.List.DropRight
import SignalK.Autopilot.Loop

/-! The heading check over a history of ticks. The sensor may be slower than the control
loop, and spikes may stand in for what it says. -/
namespace SignalK
open Machine

namespace HeadingPlausibility

/-- A tick of the control loop, by the value of the sensor that it sees. -/
structure Tick where
  dt : ℚ
  dt_pos : 0 < dt
  now : ℚ
  /-- when the sensor took this heading -/
  sampledAt : ℚ
  heading : ℚ
  /-- what is read in its place -/
  spike : Option ℚ

def Tick.input (tick : Tick) : ℚ := tick.spike.getD tick.heading

/-- Spikes come less often in a row than would be a failure. -/
def FewSpikes (maxGlitches : Nat) (ticks : List Tick) : Prop :=
  ∀ pre spikes post, ticks = pre ++ (spikes ++ post) → (∀ t ∈ spikes, t.spike.isSome) →
    spikes.length ≤ maxGlitches - 1

/-- How many of the last ticks are all spikes. -/
def spikesInRow (ticks : List Tick) : Nat := (ticks.rtakeWhile fun t => t.spike.isSome).length

variable {maxGlitches : Nat} {ticks : List Tick}

theorem FewSpikes.inRow (h : FewSpikes maxGlitches ticks) {pre post : List Tick}
    (he : ticks = pre ++ post) : spikesInRow pre ≤ maxGlitches - 1 := by
  obtain ⟨front, hf⟩ := List.rtakeWhile_suffix (p := fun t : Tick => t.spike.isSome) (l := pre)
  refine h front (pre.rtakeWhile fun t => t.spike.isSome) post ?_ fun t ht => ?_
  · rw [← List.append_assoc, hf, he]
  · exact List.mem_rtakeWhile_imp (p := fun t : Tick => t.spike.isSome) ht

theorem few_of_none (h : ∀ t ∈ ticks, t.spike = none) : FewSpikes maxGlitches ticks := by
  intro pre spikes post he hall
  cases spikes with
  | nil => exact Nat.zero_le _
  | cons t spikes =>
    have hsome := hall t (.head _)
    rw [h t (by simp [he])] at hsome
    cases hsome

section
variable [AngleMath] {rate : ℚ}

/-- One call of the check for each tick. -/
def step (rate : ℚ) (p : HeadingPlausibility) (tick : Tick) :
    HeadingPlausibility × List PlausibilityResult :=
  let checked := p.check tick.input rate (some tick.dt)
  (checked.1, [checked.2])

def after (rate : ℚ) (maxGlitches : Nat) (ticks : List Tick) : HeadingPlausibility :=
  run (step rate) (new maxGlitches) ticks

/-- What the check of a tick says after those before it. -/
def verdict (rate : ℚ) (maxGlitches : Nat) (pre : List Tick) (tick : Tick) : PlausibilityResult :=
  ((after rate maxGlitches pre).check tick.input rate (some tick.dt)).2

/-- A history of a sensor whose heading turns no faster than the rate, as the ticks see it. -/
structure Sampled (rate : ℚ) (ticks : List Tick) : Prop where
  interval : ticks.IsChain fun a b => b.now = a.now + b.dt
  past : ∀ tick ∈ ticks, tick.sampledAt ≤ tick.now
  held : ticks.Pairwise fun a b => a.sampledAt ≤ b.sampledAt ∧
    |Pd.normalizeAngle (b.heading - a.heading)| ≤ rate * (b.sampledAt - a.sampledAt)

/-- No tick is called a failure, and those without a spike get the real heading. -/
structure Trusted (rate : ℚ) (maxGlitches : Nat) (ticks : List Tick) : Prop where
  alive : ∀ pre tick post, ticks = pre ++ tick :: post →
    verdict rate maxGlitches pre tick ≠ .sensorFailure
  real : ∀ pre tick post, ticks = pre ++ tick :: post → tick.spike = none →
    verdict rate maxGlitches pre tick = .ok tick.heading

/-- A heading is as near to the one before it as one tick allows. -/
def near (rate : ℚ) (tick : Tick) (reference : Option ℚ) : Bool :=
  match reference with
  | none => true
  | some r => decide (|Pd.normalizeAngle (tick.input - r)| ≤ rate * tick.dt)

/-- The heading that the next one has to be near to: the last real one, or a spike since
then that was near itself. -/
def reference (rate : ℚ) (ticks : List Tick) : Option ℚ :=
  ticks.foldl (fun r tick =>
    if tick.spike.isNone || near rate tick r then some tick.input else r) none

/-- Every real heading is near to its reference. -/
def Followed (rate : ℚ) (ticks : List Tick) : Prop :=
  ∀ pre tick post, ticks = pre ++ tick :: post → tick.spike = none →
    near rate tick (reference rate pre) = true

theorem reference_snoc (ticks : List Tick) (tick : Tick) :
    reference rate (ticks ++ [tick]) =
      if tick.spike.isNone || near rate tick (reference rate ticks) then some tick.input
      else reference rate ticks := by
  simp [reference]

theorem after_snoc (ticks : List Tick) (tick : Tick) :
    after rate maxGlitches (ticks ++ [tick]) =
      ((after rate maxGlitches ticks).check tick.input rate (some tick.dt)).1 := run_append _ _ _ _

/-- A check accepts what is near, and counts what is not. -/
theorem check_eq (p : HeadingPlausibility) (tick : Tick) :
    p.check tick.input rate (some tick.dt) =
      if near rate tick p.prevValue then
        ({ p with prevValue := some tick.input, glitchCount := 0 }, .ok tick.input)
      else
        ({ p with glitchCount := p.glitchCount + 1 },
          if p.maxConsecutiveGlitches ≤ p.glitchCount + 1 then .sensorFailure
          else .glitch (p.prevValue.getD 0)) := by
  have hdt : max tick.dt 0 = tick.dt := max_eq_left tick.dt_pos.le
  unfold check near within
  cases hp : p.prevValue with
  | none => simp
  | some prev =>
    simp only [hdt]
    split_ifs <;> simp

/-- The state after ticks whose real headings were all near. -/
structure Follows (rate : ℚ) (maxGlitches : Nat) (ticks : List Tick) : Prop where
  prev : (after rate maxGlitches ticks).prevValue = reference rate ticks
  count : (after rate maxGlitches ticks).glitchCount ≤ spikesInRow ticks
  limit : (after rate maxGlitches ticks).maxConsecutiveGlitches = maxGlitches

theorem follows_nil : Follows rate maxGlitches [] := ⟨rfl, le_rfl, rfl⟩

theorem Follows.snoc (h : Follows rate maxGlitches ticks) {tick : Tick}
    (hreal : tick.spike = none → near rate tick (reference rate ticks) = true) :
    Follows rate maxGlitches (ticks ++ [tick]) := by
  have hafter : after rate maxGlitches (ticks ++ [tick]) = _ :=
    (after_snoc ticks tick).trans (congrArg Prod.fst (check_eq _ tick))
  rw [h.prev] at hafter
  by_cases hnear : near rate tick (reference rate ticks) = true
  · rw [if_pos hnear] at hafter
    constructor
    · simp [hafter, reference_snoc, hnear]
    · simp [hafter]
    · rw [hafter]
      exact h.limit
  · rw [if_neg hnear] at hafter
    have hspike : tick.spike.isSome = true := by
      cases hs : tick.spike with
      | none => exact absurd (hreal hs) hnear
      | some v => rfl
    have hrow : spikesInRow (ticks ++ [tick]) = spikesInRow ticks + 1 := by
      simp [spikesInRow, hspike]
    constructor
    · rw [hafter, reference_snoc]
      simp [hnear, Option.isSome_iff_ne_none.mp hspike]
    · rw [hafter, hrow]
      exact Nat.add_le_add_right h.count 1
    · rw [hafter]
      exact h.limit

/-- What the check says then. -/
theorem Follows.verdict_eq (h : Follows rate maxGlitches ticks) (tick : Tick) :
    verdict rate maxGlitches ticks tick =
      if near rate tick (reference rate ticks) then .ok tick.input
      else if maxGlitches ≤ (after rate maxGlitches ticks).glitchCount + 1 then .sensorFailure
      else .glitch ((reference rate ticks).getD 0) := by
  unfold verdict
  rw [check_eq, h.prev, h.limit]
  split_ifs <;> rfl

theorem follows_of_followed (maxGlitches : Nat) (h : Followed rate ticks) {pre post : List Tick}
    (he : ticks = pre ++ post) : Follows rate maxGlitches pre := by
  induction pre using List.reverseRecOn generalizing post with
  | nil => exact follows_nil
  | append_singleton pre tick ih =>
    have hsplit : ticks = pre ++ tick :: post := by rw [he, List.append_assoc]; rfl
    exact (ih hsplit).snoc (h pre tick post hsplit)

theorem follows_of_trusted (h : Trusted rate maxGlitches ticks) {pre post : List Tick}
    (he : ticks = pre ++ post) : Follows rate maxGlitches pre := by
  induction pre using List.reverseRecOn generalizing post with
  | nil => exact follows_nil
  | append_singleton pre tick ih =>
    have hsplit : ticks = pre ++ tick :: post := by rw [he, List.append_assoc]; rfl
    have hpre := ih hsplit
    refine hpre.snoc fun hs => ?_
    have hok := h.real pre tick post hsplit hs
    rw [hpre.verdict_eq] at hok
    split_ifs at hok with hnear
    exact hnear

/-- With few spikes in a row, a history is trusted exactly when its real headings never
turn farther from their reference than one tick allows. -/
theorem trusted_iff_followed (hfew : FewSpikes maxGlitches ticks) :
    Trusted rate maxGlitches ticks ↔ Followed rate ticks := by
  constructor
  · intro h pre tick post he hs
    have hok := h.real pre tick post he hs
    rw [(follows_of_trusted h he).verdict_eq] at hok
    split_ifs at hok with hnear
    exact hnear
  · intro h
    constructor
    case real =>
      intro pre tick post he hs
      have hinput : tick.input = tick.heading := by simp [Tick.input, hs]
      rw [(follows_of_followed maxGlitches h he).verdict_eq, if_pos (h pre tick post he hs), hinput]
    case alive =>
      intro pre tick post he
      have hpre := follows_of_followed maxGlitches h he
      rw [hpre.verdict_eq]
      by_cases hnear : near rate tick (reference rate pre) = true
      · simp [hnear]
      · -- only a spike is not near, and it is one more in a row
        have hspike : tick.spike.isSome = true := by
          cases hs : tick.spike with
          | none => exact absurd (h pre tick post he hs) hnear
          | some v => rfl
        have hrow : spikesInRow (pre ++ [tick]) = spikesInRow pre + 1 := by
          simp [spikesInRow, hspike]
        have hmany : spikesInRow (pre ++ [tick]) ≤ maxGlitches - 1 :=
          hfew.inRow (he.trans (List.append_cons pre tick post))
        have hcount := hpre.count
        rw [if_neg hnear, if_neg (by omega)]
        simp

/-- A sensor that is read anew at every tick, without spikes, is trusted. -/
theorem trusted_of_fresh (hs : Sampled rate ticks)
    (hfresh : ∀ t ∈ ticks, t.sampledAt = t.now ∧ t.spike = none) :
    Trusted rate maxGlitches ticks := by
  have hfew : FewSpikes maxGlitches ticks := few_of_none fun t ht => (hfresh t ht).2
  refine (trusted_iff_followed hfew).mpr fun pre tick post he hreal => ?_
  induction pre using List.reverseRecOn with
  | nil => rfl
  | append_singleton pre last _ =>
    have hlast := hfresh last (by simp [he])
    have htick := hfresh tick (by simp [he])
    have hnext : tick.now = last.now + tick.dt := by
      have hchain := hs.interval
      rw [he, List.append_assoc] at hchain
      exact (List.isChain_append.mp hchain).2.1.rel
    have hpair : |Pd.normalizeAngle (tick.heading - last.heading)| ≤
        rate * (tick.sampledAt - last.sampledAt) := by
      have hheld := hs.held
      rw [he, List.pairwise_append] at hheld
      exact (hheld.2.2 last (by simp) tick (by simp)).2
    rw [htick.1, hlast.1, hnext, add_sub_cancel_left] at hpair
    rw [reference_snoc]
    simp [hlast.2, near, Tick.input, hreal, hpair]

end

section
attribute [local instance] AngleMath.plain

/-- A tick of a loop at 10 Hz that has no spike. -/
abbrev tenth (now sampledAt heading : ℚ) : Tick :=
  ⟨1 / 10, by norm_num, now, sampledAt, heading, none⟩

/-- A sensor at 2 Hz and a vessel that turns at one radian a second. -/
abbrev slowSensor : List Tick :=
  [tenth 0 0 0, tenth (1 / 10) 0 0, tenth (2 / 10) 0 0, tenth (3 / 10) 0 0, tenth (4 / 10) 0 0,
    tenth (5 / 10) (5 / 10) (1 / 2), tenth (6 / 10) (5 / 10) (1 / 2),
    tenth (7 / 10) (5 / 10) (1 / 2)]

theorem trusted_iff_followed_slow :
    Trusted (3 / 2) 3 slowSensor ↔ Followed (3 / 2) slowSensor :=
  trusted_iff_followed (few_of_none (by decide +kernel))

/-- With the default values the third tick after the new sample is called a failure. -/
theorem slow_sensor_fails :
    ¬ ∀ rate maxGlitches ticks, Sampled rate ticks → FewSpikes maxGlitches ticks →
      Trusted rate maxGlitches ticks := by
  intro h
  have hsampled : Sampled (3 / 2) slowSensor :=
    ⟨by decide +kernel, by decide +kernel, by decide +kernel⟩
  have htrusted := h (3 / 2) 3 slowSensor hsampled (few_of_none (by decide +kernel))
  exact htrusted.alive (slowSensor.take 7) (tenth (7 / 10) (5 / 10) (1 / 2)) [] rfl
    (by decide +kernel)

end

end HeadingPlausibility

end SignalK

import SignalK.Lib.Control

/-! The control arithmetic of the autopilot, in exact rationals. Transcendental functions
are left open; a time that is not finite is `none`, and so is the result of a panic. -/
namespace SignalK

class AngleMath where
  pi : ℚ
  pi_pos : 0 < pi
  sin : ℚ → ℚ
  cos : ℚ → ℚ
  atan : ℚ → ℚ
  atan2 : ℚ → ℚ → ℚ
  /-- `2.0.powf(x)` -/
  exp2 : ℚ → ℚ
  /-- an angle in degrees with one decimal -/
  degrees : ℚ → String

/-- With the double nearest to π and functions that are right at zero, for runs in which
they are not asked elsewhere. -/
@[reducible] def AngleMath.plain : AngleMath where
  pi := 884279719003555 / 281474976710656
  pi_pos := by norm_num
  sin x := x
  cos _ := 1
  atan x := x
  atan2 y _ := y
  exp2 _ := 1
  degrees _ := ""

namespace Pd
variable [AngleMath]

def normalizeAngle (a : ℚ) : ℚ := Circle.wrap AngleMath.pi a

theorem normalizeAngle_eq {a b : ℚ} (hb : |b| < AngleMath.pi)
    (hab : Circle.Same AngleMath.pi a b) : normalizeAngle a = b :=
  Circle.wrap_eq hb hab

theorem normalizeAngle_same (a : ℚ) : Circle.Same AngleMath.pi a (normalizeAngle a) :=
  Circle.wrap_same AngleMath.pi a

end Pd

/-- `f64::signum`: the sign of zero is positive. -/
def signum (x : ℚ) : ℚ := if x < 0 then -1 else 1

/-- Division by a time; by an infinite one it gives zero. -/
def perSecond (x : ℚ) : Option ℚ → ℚ
  | some dt => x / dt
  | none => 0

structure PidConfig where
  gainP : ℚ
  gainI : ℚ
  gainD : ℚ
  deadZoneRad : ℚ
  maxRudderRad : ℚ
  deriving DecidableEq

structure PidController where
  integral : ℚ
  integralLimit : ℚ
  deriving DecidableEq

namespace PidController
open Clamp

def new (integralLimit : ℚ) : PidController where
  integral := 0
  integralLimit := integralLimit

def reset (pid : PidController) : PidController := { pid with integral := 0 }

/-- The integral after a tick outside of the dead zone, with anti-windup. -/
def integrate (pid : PidController) (error dError dt : ℚ) (cfg : PidConfig) : Option ℚ :=
  let pdOutput := cfg.gainP * error + cfg.gainD * dError
  let prospective := pdOutput + cfg.gainI * pid.integral
  if |prospective| < cfg.maxRudderRad ∨ signum error ≠ signum pid.integral then
    clamp (pid.integral + error * dt) (-pid.integralLimit) pid.integralLimit
  else some pid.integral

/-- The rudder command, positive to starboard. -/
def compute (pid : PidController) (error dError : ℚ) (dt : Option ℚ) (cfg : PidConfig) :
    Option (PidController × ℚ) :=
  match dt with
  | none => some (pid, 0)
  | some dt =>
    if dt ≤ 0 then some (pid, 0)
    else if |error| < cfg.deadZoneRad then
      some ({ pid with integral := pid.integral * (95 / 100) }, 0)
    else
      (pid.integrate error dError dt cfg).bind fun integral =>
        let output := cfg.gainP * error + cfg.gainI * integral + cfg.gainD * dError
        (clamp output (-cfg.maxRudderRad) cfg.maxRudderRad).map fun rudder =>
          ({ pid with integral := integral }, rudder)

/-- The integral is within its limit. -/
def Bounded (pid : PidController) : Prop := |pid.integral| ≤ pid.integralLimit

/-- A computation keeps the limit of the integral, and the integral within it. -/
theorem compute_spec {pid pid' : PidController} {error dError rudder : ℚ} {dt : Option ℚ}
    {cfg : PidConfig} (h : pid.compute error dError dt cfg = some (pid', rudder)) :
    pid'.integralLimit = pid.integralLimit ∧ (pid.Bounded → pid'.Bounded) := by
  have hstay : some (pid, (0 : ℚ)) = some (pid', rudder) →
      pid'.integralLimit = pid.integralLimit ∧ (pid.Bounded → pid'.Bounded) := by
    intro he
    obtain ⟨rfl, rfl⟩ := Prod.mk.inj (Option.some.inj he)
    exact ⟨rfl, id⟩
  cases dt with
  | none => exact hstay h
  | some dt =>
    simp only [compute] at h
    split_ifs at h with hdt hdead
    · exact hstay h
    · obtain ⟨rfl, rfl⟩ := Prod.mk.inj (Option.some.inj h)
      refine ⟨rfl, fun hi => ?_⟩
      have hdecay : |pid.integral * (95 / 100)| = |pid.integral| * (95 / 100) := by
        rw [abs_mul]
        norm_num
      show |pid.integral * (95 / 100)| ≤ pid.integralLimit
      have hn := abs_nonneg pid.integral
      have hi' : |pid.integral| ≤ pid.integralLimit := hi
      linarith
    · obtain ⟨integral, hint, hout⟩ := Option.bind_eq_some_iff.mp h
      obtain ⟨out, hclamp, he⟩ := Option.map_eq_some_iff.mp hout
      obtain ⟨rfl, rfl⟩ := Prod.mk.inj he
      refine ⟨rfl, fun hi => ?_⟩
      unfold integrate at hint
      simp only at hint
      split_ifs at hint
      · exact abs_le_of_clamp hint
      · obtain rfl := Option.some.inj hint
        exact hi

/-- No panic as long as both limits are at least zero. -/
theorem compute_isSome (pid : PidController) (error dError : ℚ) (dt : Option ℚ) {cfg : PidConfig}
    (hm : 0 ≤ cfg.maxRudderRad) (hl : 0 ≤ pid.integralLimit) :
    ∃ result, pid.compute error dError dt cfg = some result := by
  cases dt with
  | none => exact ⟨_, rfl⟩
  | some dt =>
    simp only [compute]
    split_ifs with hdt hdead
    · exact ⟨_, rfl⟩
    · exact ⟨_, rfl⟩
    · have hint : ∃ integral, pid.integrate error dError dt cfg = some integral := by
        unfold integrate
        simp only
        split_ifs
        · exact ⟨_, clamp_of_le (by linarith) _⟩
        · exact ⟨_, rfl⟩
      obtain ⟨integral, hint⟩ := hint
      rw [hint, Option.bind_some, clamp_of_le (by linarith : -cfg.maxRudderRad ≤ cfg.maxRudderRad)]
      exact ⟨_, rfl⟩

end PidController

namespace Pd

/-- Gains by speed; the sustained ones grow with it, the damping shrinks. -/
def scaleGains (cfg : PidConfig) (speedMps speedNominalMps : ℚ) : PidConfig :=
  if speedNominalMps ≤ 0 ∨ speedMps ≤ 0 then cfg
  else
    let ratio := max (3 / 10) (min (speedMps / speedNominalMps) 3)
    { cfg with
      gainP := cfg.gainP * ratio
      gainI := cfg.gainI * ratio
      gainD := cfg.gainD / ratio }

/-- The weight of the D-term for data of some age. -/
def sensorQuality [AngleMath] (ageSecs : Option ℚ) (halfLifeSecs : ℚ) : ℚ :=
  match ageSecs with
  | none => 0
  | some age =>
    if halfLifeSecs ≤ 0 then 1
    else if age < 0 then 1
    else max 0 (min (AngleMath.exp2 (-age / halfLifeSecs)) 1)

def validateYawRate (rate : Option ℚ) (maxRateRadPerSec : ℚ) : Option ℚ :=
  rate.filter fun r => !decide (maxRateRadPerSec < |r|)

/-- A step towards the target, as far as the actuator gets in that time. -/
def rateLimit (current target maxRateRadPerSec : ℚ) (dt : Option ℚ) : Option ℚ :=
  match dt with
  | none => some target
  | some dt =>
    if maxRateRadPerSec ≤ 0 ∨ dt ≤ 0 then some target
    else
      let maxDelta := maxRateRadPerSec * dt
      (Clamp.clamp (target - current) (-maxDelta) maxDelta).map fun d => current + d

/-- The limited command exists, lies between both and is near the current one. -/
theorem rateLimit_spec (current target rate : ℚ) (dt : Option ℚ) :
    ∃ r, rateLimit current target rate dt = some r ∧ min current target ≤ r ∧
      r ≤ max current target ∧
      ∀ t, dt = some t → 0 < rate → 0 < t → |r - current| ≤ rate * t := by
  cases dt with
  | none => exact ⟨target, rfl, min_le_right _ _, le_max_right _ _, fun t ht => (by cases ht)⟩
  | some dt =>
    simp only [rateLimit]
    split_ifs with h
    · refine ⟨target, rfl, min_le_right _ _, le_max_right _ _, fun t ht hr hp => ?_⟩
      obtain rfl := Option.some.inj ht
      rcases h with h | h <;> linarith
    · obtain ⟨hr, hp⟩ := not_or.mp h
      have hd : 0 < rate * dt := mul_pos (not_le.mp hr) (not_le.mp hp)
      have hc := Clamp.clamp_of_le (by linarith : -(rate * dt) ≤ rate * dt) (target - current)
      obtain ⟨hlow, hhigh⟩ := Clamp.step_between hc hd.le
      refine ⟨_, by rw [hc]; rfl, hlow, hhigh, fun t ht _ _ => ?_⟩
      obtain rfl := Option.some.inj ht
      have ha := Clamp.abs_le_of_clamp hc
      simpa using ha

end Pd

structure RecoveryState where
  active : Bool
  ticksRemaining : Nat
  deriving DecidableEq

namespace RecoveryState

def new : RecoveryState := ⟨false, 0⟩

def update (r : RecoveryState) (errorRad thresholdRad : ℚ) (maxTicks : Nat) : RecoveryState :=
  if thresholdRad ≤ 0 then r
  else
    let r := if !r.active && decide (thresholdRad < |errorRad|) then ⟨true, maxTicks⟩ else r
    if r.active then
      let ticks := r.ticksRemaining - 1
      ⟨!(decide (ticks = 0) || decide (|errorRad| < thresholdRad * (3 / 10))), ticks⟩
    else r

/-- Higher gains and no integral term while recovery is active. -/
def apply (r : RecoveryState) (cfg : PidConfig) (gainFactor : ℚ) : PidConfig :=
  if !r.active then cfg
  else
    { cfg with
      gainP := cfg.gainP * gainFactor
      gainI := 0
      gainD := cfg.gainD * gainFactor }

def reset (_ : RecoveryState) : RecoveryState := ⟨false, 0⟩

@[simp] theorem apply_maxRudderRad (r : RecoveryState) (cfg : PidConfig) (f : ℚ) :
    (r.apply cfg f).maxRudderRad = cfg.maxRudderRad := by
  unfold apply
  split_ifs <;> rfl

end RecoveryState

@[simp] theorem Pd.scaleGains_maxRudderRad (cfg : PidConfig) (speed nominal : ℚ) :
    (Pd.scaleGains cfg speed nominal).maxRudderRad = cfg.maxRudderRad := by
  unfold Pd.scaleGains
  split_ifs <;> rfl

structure RudderFeedbackMonitor where
  /-- a u32 -/
  mismatchTicks : Nat
  alarmActive : Bool
  deriving DecidableEq

namespace RudderFeedbackMonitor

def new : RudderFeedbackMonitor := ⟨0, false⟩

/-- The second part tells that the alarm fired or was cleared. -/
def update (m : RudderFeedbackMonitor) (commanded : ℚ) (actual : Option ℚ) (thresholdRad : ℚ)
    (timeoutTicks : Nat) : RudderFeedbackMonitor × Option Bool :=
  if thresholdRad ≤ 0 then (m, none)
  else
    match actual with
    | none => (m, none)
    | some actual =>
      if thresholdRad < |commanded - actual| then
        let ticks := (m.mismatchTicks + 1) % 2 ^ 32
        if timeoutTicks ≤ ticks ∧ m.alarmActive = false then (⟨ticks, true⟩, some true)
        else (⟨ticks, m.alarmActive⟩, none)
      else if m.alarmActive then (⟨0, false⟩, some false)
      else (⟨0, false⟩, none)

def reset (_ : RudderFeedbackMonitor) : RudderFeedbackMonitor := ⟨0, false⟩

end RudderFeedbackMonitor

inductive PlausibilityResult where
  | ok (value : ℚ)
  | glitch (prev : ℚ)
  | sensorFailure
  deriving DecidableEq

structure HeadingPlausibility where
  prevValue : Option ℚ
  glitchCount : Nat
  maxConsecutiveGlitches : Nat
  deriving DecidableEq

namespace HeadingPlausibility

def new (maxConsecutiveGlitches : Nat) : HeadingPlausibility := ⟨none, 0, maxConsecutiveGlitches⟩

/-- `delta <= max_rate * dt.max(0.0)`, also for an infinite time. -/
def within (delta maxRateRadPerSec : ℚ) : Option ℚ → Bool
  | some dt => decide (delta ≤ maxRateRadPerSec * max dt 0)
  | none => decide (0 < maxRateRadPerSec)

def check [AngleMath] (p : HeadingPlausibility) (value maxRateRadPerSec : ℚ) (dt : Option ℚ) :
    HeadingPlausibility × PlausibilityResult :=
  match p.prevValue with
  | none => ({ p with prevValue := some value, glitchCount := 0 }, .ok value)
  | some prev =>
    if within |Pd.normalizeAngle (value - prev)| maxRateRadPerSec dt then
      ({ p with prevValue := some value, glitchCount := 0 }, .ok value)
    else
      -- the heading before the glitch stays the one to compare with
      let p := { p with glitchCount := p.glitchCount + 1 }
      (p, if p.maxConsecutiveGlitches ≤ p.glitchCount then .sensorFailure else .glitch prev)

def reset (p : HeadingPlausibility) : HeadingPlausibility :=
  { p with prevValue := none, glitchCount := 0 }

end HeadingPlausibility

structure LowPassFilter where
  value : Option ℚ
  alpha : ℚ
  deriving DecidableEq

namespace LowPassFilter

def new (alpha : ℚ) : Option LowPassFilter :=
  if 0 < alpha ∧ alpha ≤ 1 then some ⟨none, alpha⟩ else none

def update (f : LowPassFilter) (input : ℚ) : LowPassFilter × ℚ :=
  let out :=
    match f.value with
    | some prev => prev + f.alpha * (input - prev)
    | none => input
  ({ f with value := some out }, out)

def reset (f : LowPassFilter) : LowPassFilter := { f with value := none }

/-- A coefficient of one lets every sample through. -/
theorem update_alpha_one {f : LowPassFilter} (h : f.alpha = 1) (input : ℚ) :
    (f.update input).2 = input := by
  unfold update
  cases f.value with
  | none => rfl
  | some prev => simp [h]

end LowPassFilter

structure CircularFilter where
  sinFilter : LowPassFilter
  cosFilter : LowPassFilter
  deriving DecidableEq

namespace CircularFilter

def new (alpha : ℚ) : Option CircularFilter :=
  (LowPassFilter.new alpha).map fun f => ⟨f, f⟩

def update [AngleMath] (f : CircularFilter) (angleRad : ℚ) : CircularFilter × ℚ :=
  let s := f.sinFilter.update (AngleMath.sin angleRad)
  let c := f.cosFilter.update (AngleMath.cos angleRad)
  (⟨s.1, c.1⟩, AngleMath.atan2 s.2 c.2)

def reset (f : CircularFilter) : CircularFilter := ⟨f.sinFilter.reset, f.cosFilter.reset⟩

end CircularFilter

structure RateDetector where
  prevValue : Option ℚ
  outputFilter : LowPassFilter
  deriving DecidableEq

namespace RateDetector

def new (smoothingAlpha : ℚ) : Option RateDetector :=
  (LowPassFilter.new smoothingAlpha).map fun f => ⟨none, f⟩

def update (d : RateDetector) (value : ℚ) (dt : Option ℚ) : RateDetector × ℚ :=
  let rate :=
    match d.prevValue with
    | some prev => if dt.all fun t => decide (0 < t) then perSecond (value - prev) dt else 0
    | none => 0
  let out := d.outputFilter.update rate
  (⟨some value, out.1⟩, out.2)

def reset (d : RateDetector) : RateDetector := ⟨none, d.outputFilter.reset⟩

end RateDetector

/-- The rate of change of the error: against the yaw rate, or by finite difference. -/
def dError [AngleMath] (error prevError : ℚ) (dt yawRate : Option ℚ) : ℚ :=
  match yawRate with
  | some rate => -rate
  | none => perSecond (Pd.normalizeAngle (error - prevError)) dt

/-- What a mode computes: the controller, the rudder and the new error. -/
abbrev Law := Option (PidController × ℚ × ℚ)

namespace Heading

def compute [AngleMath] (currentHeading effectiveTarget prevError : ℚ) (dt yawRate : Option ℚ)
    (pid : PidController) (cfg : PidConfig) : Law :=
  let error := Pd.normalizeAngle (effectiveTarget - currentHeading)
  (pid.compute error (dError error prevError dt yawRate) dt cfg).map fun out =>
    (out.1, out.2, error)

end Heading

structure RouteInput where
  currentHeading : ℚ
  btw : ℚ
  xteM : ℚ
  lookaheadM : ℚ
  prevError : ℚ
  dt : Option ℚ
  yawRate : Option ℚ

namespace Route

def compute [AngleMath] (input : RouteInput) (pid : PidController) (cfg : PidConfig) : Law :=
  let lookahead := max input.lookaheadM 1
  let headingCorrection := AngleMath.atan (input.xteM / lookahead)
  let desiredHeading := Pd.normalizeAngle (input.btw + headingCorrection)
  Heading.compute input.currentHeading desiredHeading input.prevError input.dt input.yawRate pid cfg

end Route

end SignalK

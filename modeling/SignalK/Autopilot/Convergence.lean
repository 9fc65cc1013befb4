import SignalK.Autopilot.Feedback
import SignalK.Lib.Damping

/-! The compass hold on the vessel of the simulations, tick by tick: a damped loop that
comes to rest in the dead zone. -/
namespace SignalK
open Clamp Circle

/-- What the PD terms command, without the integral. -/
theorem PidController.compute_pd {pid : PidController} (hb : pid.Bounded) (error d : ℚ) {dt : ℚ}
    (hdt : 0 < dt) {cfg : PidConfig} (hi : cfg.gainI = 0) (hm : 0 < cfg.maxRudderRad) :
    ∃ pid' : PidController, pid'.Bounded ∧ pid.compute error d (some dt) cfg =
      some (pid', if |error| < cfg.deadZoneRad then 0
        else max (-cfg.maxRudderRad) (min (cfg.gainP * error + cfg.gainD * d) cfg.maxRudderRad)) := by
  have hl : 0 ≤ pid.integralLimit := (abs_nonneg pid.integral).trans hb
  obtain ⟨⟨pid', rudder⟩, hout⟩ := pid.compute_isSome error d (some dt) hm.le hl
  refine ⟨pid', (compute_spec hout).2 hb, ?_⟩
  rw [hout]
  simp only [compute, if_neg (not_le.mpr hdt)] at hout
  split_ifs at hout ⊢ with hdead
  · obtain ⟨-, rfl⟩ := Prod.mk.inj (Option.some.inj hout)
    rfl
  · obtain ⟨integral, -, hclamped⟩ := Option.bind_eq_some_iff.mp hout
    obtain ⟨_, hclamp, he⟩ := Option.map_eq_some_iff.mp hclamped
    obtain ⟨-, rfl⟩ := Prod.mk.inj he
    obtain ⟨-, rfl⟩ := clamp_eq_some.mp hclamp
    rw [hi, zero_mul, add_zero]

/-- The vessel of the simulations. -/
structure VesselSim where
  heading : ℚ
  /-- the rate of turn of one radian of rudder -/
  turnRateCoeff : ℚ
  dt : ℚ
  windBias : ℚ

/-- A vessel and a controller for which the hold is stable, without wind and integral. -/
structure CompassRun.Stable (cfg : PidConfig) (vessel : VesselSim) : Prop where
  turns : 0 < vessel.turnRateCoeff
  time : 0 < vessel.dt
  calm : vessel.windBias = 0
  gainI : cfg.gainI = 0
  gainP : 0 < cfg.gainP
  gainD : 0 ≤ cfg.gainD
  damped : cfg.gainP * vessel.turnRateCoeff * vessel.dt + cfg.gainD * vessel.turnRateCoeff < 1
  deadZone : 0 < cfg.deadZoneRad
  rudder : 0 < cfg.maxRudderRad

namespace CompassRun
variable {cfg : PidConfig} {vessel : VesselSim}

/-- The loop that the error goes through, in radians of a tick. -/
def Stable.loop (h : Stable cfg vessel) : Damping.Loop ℚ where
  gain := cfg.gainP * vessel.turnRateCoeff * vessel.dt
  damping := cfg.gainD * vessel.turnRateCoeff
  bound := cfg.maxRudderRad * vessel.turnRateCoeff * vessel.dt
  deadZone := cfg.deadZoneRad
  gain_pos := mul_pos (mul_pos h.gainP h.turns) h.time
  damping_nonneg := mul_nonneg h.gainD h.turns.le
  stable := h.damped
  bound_pos := mul_pos (mul_pos h.rudder h.turns) h.time
  deadZone_pos := h.deadZone

/-- The turn that a command makes in one tick is the push of the loop. -/
theorem Stable.turn_eq (h : Stable cfg vessel) (error prev : ℚ) :
    max (-cfg.maxRudderRad) (min (cfg.gainP * error + cfg.gainD * ((error - prev) / vessel.dt))
      cfg.maxRudderRad) * vessel.turnRateCoeff * vessel.dt = h.loop.push error prev := by
  have hc : 0 ≤ vessel.turnRateCoeff * vessel.dt := (mul_pos h.turns h.time).le
  have hdt := h.time.ne'
  have hx : (cfg.gainP * error + cfg.gainD * ((error - prev) / vessel.dt)) *
      (vessel.turnRateCoeff * vessel.dt) =
      cfg.gainP * vessel.turnRateCoeff * vessel.dt * error +
        cfg.gainD * vessel.turnRateCoeff * (error - prev) := by
    field_simp
  rw [mul_assoc, max_mul_of_nonneg _ _ hc, min_mul_of_nonneg _ _ hc, hx, neg_mul]
  simp only [Damping.Loop.push, loop, mul_assoc]

end CompassRun

section
variable [AngleMath]

def VesselSim.step (v : VesselSim) (rudderRad : ℚ) : VesselSim :=
  { v with
    heading := Pd.normalizeAngle (v.heading + (rudderRad * v.turnRateCoeff + v.windBias) * v.dt) }

/-- What a simulation of the compass mode carries from tick to tick. -/
structure CompassRun where
  vessel : VesselSim
  pid : PidController
  prevError : ℚ

/-- What it notes of a tick. -/
structure CompassRow where
  heading : ℚ
  rudder : ℚ
  error : ℚ

namespace CompassRun

/-- One round of `run_compass`; nothing if the computation panics. -/
def tick (target : ℚ) (cfg : PidConfig) (r : CompassRun) : Option (CompassRun × CompassRow) :=
  (Heading.compute r.vessel.heading target r.prevError (some r.vessel.dt) none r.pid cfg).map
    fun out => (⟨r.vessel.step out.2.1, out.1, out.2.2⟩, ⟨r.vessel.heading, out.2.1, out.2.2⟩)

def after (target : ℚ) (cfg : PidConfig) (start : CompassRun) : ℕ → Option CompassRun
  | 0 => some start
  | n + 1 => (start.after target cfg n).bind fun r => (r.tick target cfg).map (·.1)

def row (target : ℚ) (cfg : PidConfig) (start : CompassRun) (n : ℕ) : Option CompassRow :=
  (start.after target cfg n).bind fun r => (r.tick target cfg).map (·.2)

/-- The simulation never ends in a panic, its error stays on the side where it began and
within its first size, and it comes to rest in the dead zone. -/
structure HoldsCourse (target : ℚ) (cfg : PidConfig) (start : CompassRun) : Prop where
  runs : ∀ n, ∃ row, start.row target cfg n = some row
  bounded : ∀ n first row, start.row target cfg 0 = some first →
    start.row target cfg n = some row → |row.error| ≤ |first.error|
  side : ∀ n first row, start.row target cfg 0 = some first →
    start.row target cfg n = some row → SignType.sign row.error = SignType.sign first.error
  settles : ∃ settled heading, ∀ n, settled ≤ n → ∀ row, start.row target cfg n = some row →
    |row.error| < cfg.deadZoneRad ∧ row.rudder = 0 ∧ row.heading = heading

variable {cfg : PidConfig} {vessel : VesselSim} {target : ℚ}

/-- One tick: the error goes through the loop, and in the dead zone the vessel keeps its
heading. -/
theorem Stable.tick_spec (h : Stable cfg vessel) {pid : PidController} (hpid : pid.Bounded)
    {heading start error prev : ℚ} (hhead : |heading| ≤ AngleMath.pi)
    (hstart : |start| ≤ AngleMath.pi) (herr : Pd.normalizeAngle (target - heading) = error)
    (hin : h.loop.Inside start error prev) :
    ∃ pid' rudder heading', pid'.Bounded ∧ |heading'| ≤ AngleMath.pi ∧
      Pd.normalizeAngle (target - heading') = h.loop.next error prev ∧
      (|error| < cfg.deadZoneRad → rudder = 0 ∧ heading' = heading) ∧
      tick target cfg ⟨{ vessel with heading := heading }, pid, prev⟩ =
        some (⟨{ vessel with heading := heading' }, pid', error⟩, ⟨heading, rudder, error⟩) := by
  obtain ⟨pid', hpid', hcompute⟩ := PidController.compute_pd hpid error
    ((error - prev) / vessel.dt) h.time h.gainI h.rudder
  have hchange : Pd.normalizeAngle (error - prev) = error - prev :=
    wrap_of_abs_le (hin.change_le.trans hstart)
  generalize hrudder : (if |error| < cfg.deadZoneRad then 0
    else max (-cfg.maxRudderRad) (min (cfg.gainP * error + cfg.gainD * ((error - prev) / vessel.dt))
      cfg.maxRudderRad)) = rudder at hcompute
  have htick : tick target cfg ⟨{ vessel with heading := heading }, pid, prev⟩ =
      some (⟨VesselSim.step { vessel with heading := heading } rudder, pid', error⟩,
        ⟨heading, rudder, error⟩) := by
    simp only [tick, Heading.compute, dError, perSecond, herr, hchange, hcompute, Option.map_some]
  have hstill : |error| < cfg.deadZoneRad → rudder = 0 ∧
      (VesselSim.step { vessel with heading := heading } rudder).heading = heading := by
    intro hdead
    rw [if_pos hdead] at hrudder
    subst hrudder
    refine ⟨rfl, ?_⟩
    simp only [VesselSim.step, h.calm, zero_mul, add_zero]
    exact wrap_of_abs_le hhead
  refine ⟨pid', rudder, (VesselSim.step { vessel with heading := heading } rudder).heading, hpid',
    abs_wrap_le AngleMath.pi_pos _, ?_, hstill, htick⟩
  by_cases hdead : |error| < cfg.deadZoneRad
  · have hnext : h.loop.next error prev = error := if_pos hdead
    rw [hnext, ← herr]
    exact congrArg (fun x => Pd.normalizeAngle (target - x)) (hstill hdead).2
  · have hpush : h.loop.next error prev = error - rudder * vessel.turnRateCoeff * vessel.dt := by
      rw [if_neg hdead] at hrudder
      rw [← hrudder, h.turn_eq]
      exact if_neg hdead
    have hsmall : |h.loop.next error prev| < AngleMath.pi :=
      (hin.next_lt (not_lt.mp hdead)).trans_le hstart
    have hturned := @AutopilotMode.error_turned _ .compass 0 target heading
      (rudder * vessel.turnRateCoeff + vessel.windBias) vessel.dt
    simp only [AutopilotMode.error, AutopilotMode.controlled, AutopilotMode.side, herr, h.calm,
      add_zero, one_mul, ← hpush] at hturned
    have hstep := hturned hsmall
    simpa only [VesselSim.step, turned, h.calm, add_zero] using hstep

/-- After every number of ticks the error and the one before are those of the orbit. -/
theorem Stable.after_spec (h : Stable cfg vessel) (hhead : |vessel.heading| ≤ AngleMath.pi)
    {pid : PidController} (hpid : pid.Bounded) (n : ℕ) :
    ∃ pid' heading,
      after target cfg ⟨vessel, pid, 0⟩ n = some ⟨{ vessel with heading := heading }, pid',
        (h.loop.orbit (Pd.normalizeAngle (target - vessel.heading)) n).2⟩ ∧
      pid'.Bounded ∧ |heading| ≤ AngleMath.pi ∧ Pd.normalizeAngle (target - heading) =
        (h.loop.orbit (Pd.normalizeAngle (target - vessel.heading)) n).1 := by
  induction n with
  | zero => exact ⟨pid, vessel.heading, rfl, hpid, hhead, rfl⟩
  | succ n ih =>
    obtain ⟨pid', heading, hafter, hpid', hhead', herr⟩ := ih
    have hstart : |Pd.normalizeAngle (target - vessel.heading)| ≤ AngleMath.pi :=
      abs_wrap_le AngleMath.pi_pos _
    obtain ⟨pid'', rudder, heading', hpid'', hhead'', hnext, -, htick⟩ :=
      h.tick_spec hpid' hhead' hstart herr (h.loop.inside _ n)
    refine ⟨pid'', heading', ?_, hpid'', hhead'', hnext⟩
    rw [after, hafter, Option.bind_some, htick]
    rfl

/-- The row of every tick: its error is that of the orbit, and in the dead zone the rudder
is at rest and the next heading the same. -/
theorem Stable.row_spec (h : Stable cfg vessel) (hhead : |vessel.heading| ≤ AngleMath.pi)
    {pid : PidController} (hpid : pid.Bounded) (n : ℕ) :
    ∃ now next, row target cfg ⟨vessel, pid, 0⟩ n = some now ∧
      row target cfg ⟨vessel, pid, 0⟩ (n + 1) = some next ∧
      now.error = (h.loop.orbit (Pd.normalizeAngle (target - vessel.heading)) n).1 ∧
      (|now.error| < cfg.deadZoneRad → now.rudder = 0 ∧ next.heading = now.heading) := by
  have hstart : |Pd.normalizeAngle (target - vessel.heading)| ≤ AngleMath.pi :=
    abs_wrap_le AngleMath.pi_pos _
  obtain ⟨pid', heading, hafter, hpid', hhead', herr⟩ := h.after_spec hhead hpid n
  obtain ⟨pid'', rudder, heading', hpid'', hhead'', hnext, hrest, htick⟩ :=
    h.tick_spec hpid' hhead' hstart herr (h.loop.inside _ n)
  obtain ⟨_, rudder', _, -, -, -, -, htick'⟩ :=
    h.tick_spec hpid'' hhead'' hstart hnext (h.loop.inside _ (n + 1))
  have hsecond : row target cfg ⟨vessel, pid, 0⟩ (n + 1) = some ⟨heading', rudder',
      (h.loop.orbit (Pd.normalizeAngle (target - vessel.heading)) (n + 1)).1⟩ := by
    rw [row, after, hafter, Option.bind_some, htick, Option.map_some, Option.bind_some]
    exact congrArg (Option.map (·.2)) htick'
  refine ⟨⟨heading, rudder, _⟩, _, ?_, hsecond, rfl, hrest⟩
  rw [row, hafter, Option.bind_some, htick]
  rfl

theorem Stable.row_error (h : Stable cfg vessel) (hhead : |vessel.heading| ≤ AngleMath.pi)
    {pid : PidController} (hpid : pid.Bounded) {n : ℕ} {now : CompassRow}
    (hrow : row target cfg ⟨vessel, pid, 0⟩ n = some now) :
    now.error = (h.loop.orbit (Pd.normalizeAngle (target - vessel.heading)) n).1 := by
  obtain ⟨now', -, hnow, -, herr, -⟩ := h.row_spec hhead hpid n
  obtain rfl := Option.some.inj (hrow.symm.trans hnow)
  exact herr

/-- From the first tick in the dead zone on the heading is the same. -/
theorem Stable.row_rests (h : Stable cfg vessel) (hhead : |vessel.heading| ≤ AngleMath.pi)
    {pid : PidController} (hpid : pid.Bounded) {n m : ℕ} (hnm : n ≤ m) {first : CompassRow}
    (hfirst : row target cfg ⟨vessel, pid, 0⟩ n = some first)
    (hin : |first.error| < cfg.deadZoneRad) :
    ∃ now, row target cfg ⟨vessel, pid, 0⟩ m = some now ∧ now.heading = first.heading ∧
      |now.error| < cfg.deadZoneRad ∧ now.rudder = 0 := by
  have herr := h.row_error hhead hpid hfirst
  induction m, hnm using Nat.le_induction with
  | base =>
    obtain ⟨now, _, hnow, -, -, hrest⟩ := h.row_spec hhead hpid n
    obtain rfl := Option.some.inj (hfirst.symm.trans hnow)
    exact ⟨first, hfirst, rfl, hin, (hrest hin).1⟩
  | succ m hle ih =>
    obtain ⟨now, hnow, hhead', hin', -⟩ := ih
    obtain ⟨now', next, hnow', hnext, -, hrest⟩ := h.row_spec hhead hpid m
    obtain rfl := Option.some.inj (hnow.symm.trans hnow')
    obtain ⟨next', _, hnext', -, herr', hrest'⟩ := h.row_spec hhead hpid (m + 1)
    obtain rfl := Option.some.inj (hnext.symm.trans hnext')
    have hsame : next.error = first.error := by
      rw [herr', herr]
      refine h.loop.orbit_rests (hle.trans (Nat.le_succ m)) ?_
      rwa [← herr]
    have hnextin : |next.error| < cfg.deadZoneRad := by rwa [hsame]
    exact ⟨next, hnext, (hrest hin').2.trans hhead', hnextin, (hrest' hnextin).1⟩

/-- The compass hold comes to rest in the dead zone, from the side where it began. -/
theorem holdsCourse (h : Stable cfg vessel) (hhead : |vessel.heading| ≤ AngleMath.pi)
    (target : ℚ) {pid : PidController} (hpid : pid.Bounded) :
    HoldsCourse target cfg ⟨vessel, pid, 0⟩ := by
  have hzero : ∀ first, row target cfg ⟨vessel, pid, 0⟩ 0 = some first →
      first.error = Pd.normalizeAngle (target - vessel.heading) :=
    fun first hfirst => h.row_error hhead hpid hfirst
  constructor
  case runs =>
    intro n
    obtain ⟨now, -, hnow, -⟩ := h.row_spec hhead hpid n
    exact ⟨now, hnow⟩
  case bounded =>
    intro n first now hfirst hnow
    rw [hzero first hfirst, h.row_error hhead hpid hnow]
    exact (h.loop.inside _ n).now_le
  case side =>
    intro n first now hfirst hnow
    rw [hzero first hfirst, h.row_error hhead hpid hnow]
    exact (h.loop.inside _ n).side
  case settles =>
    obtain ⟨n, hn⟩ := h.loop.orbit_settles (Pd.normalizeAngle (target - vessel.heading))
    obtain ⟨first, -, hfirst, -, herr, -⟩ := h.row_spec hhead hpid n
    rw [← herr] at hn
    refine ⟨n, first.heading, fun m hnm now hnow => ?_⟩
    obtain ⟨now', hnow', hsame, hin, hrest⟩ := h.row_rests hhead hpid hnm hfirst hn
    obtain rfl := Option.some.inj (hnow.symm.trans hnow')
    exact ⟨hin, hrest, hsame⟩

end CompassRun

end

section
attribute [local instance] AngleMath.plain

/-- The gains of the simulations without the integral, from thirty degrees off course. -/
theorem CompassRun.holdsCourse_simulated :
    HoldsCourse 0 ⟨1, 0, 3 / 10, 1745 / 100000, 1 / 2⟩
      ⟨⟨1 / 2, 3 / 10, 1 / 10, 0⟩, .new (1 / 2), 0⟩ :=
  holdsCourse
    ⟨by norm_num, by norm_num, rfl, rfl, by norm_num, by norm_num, by norm_num, by norm_num,
      by norm_num⟩
    (by decide +kernel) 0 (by
      show |(0 : ℚ)| ≤ 1 / 2
      norm_num)

end

end SignalK

import SignalK.Autopilot.Loop

/-! Whether a mode steers the vessel towards its target. A positive rudder turns the vessel
to starboard: its heading grows, and the angle of the wind shrinks. -/
namespace SignalK
open Clamp Circle

namespace PidController

/-- What the anti-windup does: a share of the error, or nothing while the output saturates. -/
theorem integrate_cases {pid : PidController} {error d dt integral : ℚ} {cfg : PidConfig}
    (h : pid.integrate error d dt cfg = some integral) :
    clamp (pid.integral + error * dt) (-pid.integralLimit) pid.integralLimit = some integral ∧
      (|cfg.gainP * error + cfg.gainD * d + cfg.gainI * pid.integral| < cfg.maxRudderRad ∨
        signum error ≠ signum pid.integral) ∨
    integral = pid.integral ∧ signum error = signum pid.integral ∧
      cfg.maxRudderRad ≤ |cfg.gainP * error + cfg.gainD * d + cfg.gainI * pid.integral| := by
  unfold integrate at h
  simp only at h
  split_ifs at h with hopen
  · exact .inl ⟨h, hopen⟩
  · obtain ⟨hsat, hsign⟩ := not_or.mp hopen
    exact .inr ⟨(Option.some.inj h).symm, not_not.mp hsign, not_lt.mp hsat⟩

/-- A larger D-term never gives a smaller command, whether or not it saturates. -/
theorem compute_mono {pid p p' : PidController} {error d d' r r' : ℚ} {dt : Option ℚ}
    {cfg : PidConfig} (hg : 0 ≤ cfg.gainD) (hd : d ≤ d')
    (h : pid.compute error d dt cfg = some (p, r))
    (h' : pid.compute error d' dt cfg = some (p', r')) : r ≤ r' := by
  cases dt with
  | none =>
    obtain ⟨-, rfl⟩ := Prod.mk.inj (Option.some.inj h)
    obtain ⟨-, rfl⟩ := Prod.mk.inj (Option.some.inj h')
    exact le_rfl
  | some dt =>
    simp only [compute] at h h'
    split_ifs at h h'
    · obtain ⟨-, rfl⟩ := Prod.mk.inj (Option.some.inj h)
      obtain ⟨-, rfl⟩ := Prod.mk.inj (Option.some.inj h')
      exact le_rfl
    · obtain ⟨-, rfl⟩ := Prod.mk.inj (Option.some.inj h)
      obtain ⟨-, rfl⟩ := Prod.mk.inj (Option.some.inj h')
      exact le_rfl
    · obtain ⟨i, hi, hout⟩ := Option.bind_eq_some_iff.mp h
      obtain ⟨i', hi', hout'⟩ := Option.bind_eq_some_iff.mp h'
      obtain ⟨out, hr, he⟩ := Option.map_eq_some_iff.mp hout
      obtain ⟨out', hr', he'⟩ := Option.map_eq_some_iff.mp hout'
      obtain ⟨-, rfl⟩ := Prod.mk.inj he
      obtain ⟨-, rfl⟩ := Prod.mk.inj he'
      have hdd : cfg.gainD * d ≤ cfg.gainD * d' := mul_le_mul_of_nonneg_left hd hg
      have hsame : i = i' → out ≤ out' := by
        rintro rfl
        exact clamp_mono (by linarith) hr hr'
      obtain ⟨hc, hopen⟩ | ⟨hkeep, hsign, hsat⟩ := integrate_cases hi
      · obtain ⟨hc', -⟩ | ⟨rfl, hsign', hsat'⟩ := integrate_cases hi'
        · exact hsame (Option.some.inj (hc.symm.trans hc'))
        · -- only the larger one saturates, so it does at the upper end
          obtain ⟨hlow, hhigh⟩ := abs_lt.mp (hopen.resolve_right (not_not.mpr hsign'))
          obtain hs | hs := le_abs.mp hsat'
          · obtain ⟨hb, rfl⟩ := clamp_eq_some.mp hr'
            obtain ⟨-, hle⟩ := clamp_bounds hr
            rw [min_eq_right (by linarith), max_eq_right hb]
            exact hle
          · linarith
      · obtain ⟨hc', hopen'⟩ | ⟨hkeep', -, -⟩ := integrate_cases hi'
        · obtain ⟨hlow, hhigh⟩ := abs_lt.mp (hopen'.resolve_right (not_not.mpr hsign))
          subst hkeep
          obtain hs | hs := le_abs.mp hsat
          · linarith
          · obtain ⟨hb, rfl⟩ := clamp_eq_some.mp hr
            obtain ⟨hle, -⟩ := clamp_bounds hr'
            rw [max_eq_left ((min_le_left _ _).trans (by linarith))]
            exact hle
        · exact hsame (hkeep.trans hkeep'.symm)

/-- A tick from a zero integral adds to it, unless the P-term alone saturates to starboard. -/
def Gathers (cfg : PidConfig) (error : ℚ) : Prop :=
  |cfg.gainP * error| < cfg.maxRudderRad ∨ error < 0

instance (cfg : PidConfig) (error : ℚ) : Decidable (Gathers cfg error) :=
  inferInstanceAs (Decidable (_ ∨ _))

/-- The P-term and what the first tick gathers in the integral, by the size of the error. -/
def drive (cfg : PidConfig) (limit error dt : ℚ) : ℚ :=
  cfg.gainP * |error| +
    cfg.gainI * (if Gathers cfg error then min (|error| * dt) limit else 0)

theorem integrate_zero {pid : PidController} (hi : pid.integral = 0) (error dt : ℚ)
    (cfg : PidConfig) :
    pid.integrate error 0 dt cfg =
      if Gathers cfg error then clamp (error * dt) (-pid.integralLimit) pid.integralLimit
      else some 0 := by
  have hsign : signum error ≠ signum 0 ↔ error < 0 := by
    unfold signum
    by_cases he : error < 0
    · simp only [lt_irrefl, if_false, he, iff_true]
      norm_num
    · simp [he]
  have hcond : (|cfg.gainP * error + cfg.gainD * 0 + cfg.gainI * pid.integral| < cfg.maxRudderRad ∨
      signum error ≠ signum pid.integral) ↔ Gathers cfg error := by
    rw [hi, hsign, mul_zero, mul_zero, add_zero, add_zero]
    rfl
  unfold integrate
  by_cases hopen : Gathers cfg error
  · rw [if_pos hopen, if_pos (hcond.mpr hopen), hi, zero_add]
  · rw [if_neg hopen, if_neg (fun h => hopen (hcond.mp h)), hi]

/-- What is gathered from nothing has the sign of the error. -/
theorem clamp_share {error dt limit : ℚ} (hl : 0 ≤ limit) (ht : 0 < dt) :
    max (-limit) (min (error * dt) limit) * error = |error| * min (|error| * dt) limit := by
  obtain he | he := le_or_gt 0 error
  · have h0 : 0 ≤ error * dt := mul_nonneg he ht.le
    have hlow : -limit ≤ min (error * dt) limit := le_min (by linarith) (by linarith)
    rw [max_eq_right hlow, abs_of_nonneg he, mul_comm]
  · have h0 : error * dt < 0 := mul_neg_of_neg_of_pos he ht
    have hm : max (-limit) (error * dt) = -min (-error * dt) limit := by
      obtain h | h := le_total limit (-error * dt)
      · rw [min_eq_right h, max_eq_left (by linarith)]
      · rw [min_eq_left h, max_eq_right (by linarith)]
        ring
    rw [min_eq_left (by linarith), abs_of_neg he, hm]
    ring

/-- The integral of a first tick, if it does not panic. -/
theorem integrate_zero_eq_some {pid : PidController} (hi : pid.integral = 0) {error dt : ℚ}
    (ht : 0 < dt) {cfg : PidConfig} {integral : ℚ}
    (h : pid.integrate error 0 dt cfg = some integral) :
    (Gathers cfg error → 0 ≤ pid.integralLimit) ∧
      (cfg.gainP * error + cfg.gainI * integral + cfg.gainD * 0) * error =
        |error| * drive cfg pid.integralLimit error dt := by
  rw [integrate_zero hi] at h
  have hshare : (Gathers cfg error → 0 ≤ pid.integralLimit) ∧ integral * error =
      |error| * (if Gathers cfg error then min (|error| * dt) pid.integralLimit else 0) := by
    split_ifs at h ⊢ with hopen
    · obtain ⟨hle, rfl⟩ := clamp_eq_some.mp h
      have hl : 0 ≤ pid.integralLimit := by linarith
      exact ⟨fun _ => hl, clamp_share hl ht⟩
    · obtain rfl := Option.some.inj h
      exact ⟨fun ho => absurd ho hopen, by ring⟩
  refine ⟨hshare.1, ?_⟩
  have hsq : error * error = |error| * |error| := (abs_mul_abs_self error).symm
  calc (cfg.gainP * error + cfg.gainI * integral + cfg.gainD * 0) * error
      = cfg.gainP * (error * error) + cfg.gainI * (integral * error) := by ring
    _ = |error| * drive cfg pid.integralLimit error dt := by
      rw [hsq, hshare.2, drive]
      ring

/-- From a zero integral and without a yaw rate, when the command has the sign of the
error, or for `side = -1` the other one. -/
theorem compute_sign_iff {pid : PidController} {error : ℚ} {cfg : PidConfig}
    (hi : pid.integral = 0) (hdead : cfg.deadZoneRad ≤ |error|) (side : ℚ) (dt : Option ℚ) :
    (∃ out, pid.compute error 0 dt cfg = some out ∧ 0 < side * out.2 * error) ↔
      ∃ t, dt = some t ∧ 0 < t ∧ 0 < cfg.maxRudderRad ∧ error ≠ 0 ∧
        (Gathers cfg error → 0 ≤ pid.integralLimit) ∧
        0 < side * drive cfg pid.integralLimit error t := by
  constructor
  · rintro ⟨⟨pid', rudder⟩, h, hpos⟩
    have hne : error ≠ 0 := by
      rintro rfl
      simp at hpos
    have hstill : rudder ≠ 0 := by
      rintro rfl
      simp at hpos
    cases dt with
    | none =>
      obtain ⟨-, rfl⟩ := Prod.mk.inj (Option.some.inj h)
      exact absurd rfl hstill
    | some t =>
      simp only [compute, if_neg (not_lt.mpr hdead)] at h
      split_ifs at h with ht
      · obtain ⟨-, rfl⟩ := Prod.mk.inj (Option.some.inj h)
        exact absurd rfl hstill
      · obtain ⟨integral, hint, hout⟩ := Option.bind_eq_some_iff.mp h
        obtain ⟨_, hclamp, he⟩ := Option.map_eq_some_iff.mp hout
        obtain ⟨-, rfl⟩ := Prod.mk.inj he
        obtain ⟨hsafe, hdrive⟩ := integrate_zero_eq_some hi (not_le.mp ht) hint
        have hm : 0 < cfg.maxRudderRad := by
          by_contra hm
          obtain ⟨hlow, hhigh⟩ := clamp_bounds hclamp
          exact hstill (by linarith)
        rw [mul_comm side, mul_assoc, clamp_mul_pos_iff hm hclamp] at hpos
        refine ⟨t, rfl, not_le.mp ht, hm, hne, hsafe, ?_⟩
        refine (mul_pos_iff_of_pos_left (abs_pos.mpr hne)).mp ?_
        calc 0 < (cfg.gainP * error + cfg.gainI * integral + cfg.gainD * 0) * (side * error) := hpos
          _ = side * ((cfg.gainP * error + cfg.gainI * integral + cfg.gainD * 0) * error) := by ring
          _ = |error| * (side * drive cfg pid.integralLimit error t) := by
            rw [hdrive]
            ring
  · rintro ⟨t, rfl, ht, hm, hne, hsafe, hpos⟩
    obtain ⟨integral, hint⟩ : ∃ integral, pid.integrate error 0 t cfg = some integral := by
      rw [integrate_zero hi]
      split_ifs with hopen
      · have hl := hsafe hopen
        exact ⟨_, clamp_of_le (by linarith) _⟩
      · exact ⟨_, rfl⟩
    obtain ⟨-, hdrive⟩ := integrate_zero_eq_some hi ht hint
    have hclamp := clamp_of_le (by linarith : -cfg.maxRudderRad ≤ cfg.maxRudderRad)
      (cfg.gainP * error + cfg.gainI * integral + cfg.gainD * 0)
    have hout : pid.compute error 0 (some t) cfg = some ({ pid with integral := integral },
        max (-cfg.maxRudderRad) (min (cfg.gainP * error + cfg.gainI * integral + cfg.gainD * 0)
          cfg.maxRudderRad)) := by
      simp only [compute, if_neg (not_le.mpr ht), if_neg (not_lt.mpr hdead), hint,
        Option.bind_some, hclamp, Option.map_some]
    refine ⟨_, hout, ?_⟩
    rw [mul_comm side, mul_assoc, clamp_mul_pos_iff hm hclamp]
    calc 0 < |error| * (side * drive cfg pid.integralLimit error t) :=
          mul_pos (abs_pos.mpr hne) hpos
      _ = side * ((cfg.gainP * error + cfg.gainI * integral + cfg.gainD * 0) * error) := by
          rw [hdrive]
          ring
      _ = (cfg.gainP * error + cfg.gainI * integral + cfg.gainD * 0) * (side * error) := by ring

end PidController

/-- The heading after the vessel has turned under a rudder for some time, the rate of turn
of one radian of rudder included. -/
def turned [AngleMath] (heading rudder time : ℚ) : ℚ := Pd.normalizeAngle (heading + rudder * time)

namespace AutopilotMode
variable [AngleMath]

/-- What the mode holds: the heading, or the apparent angle of a wind from `wind`. -/
def controlled (mode : AutopilotMode) (wind heading : ℚ) : ℚ :=
  match mode with
  | .wind => Pd.normalizeAngle (wind - heading)
  | _ => heading

def error (mode : AutopilotMode) (wind target heading : ℚ) : ℚ :=
  Pd.normalizeAngle (target - mode.controlled wind heading)

/-- The side to which a turn to starboard moves what the mode holds. -/
def side : AutopilotMode → ℚ
  | .wind => -1
  | _ => 1

/-- A turn moves the error against the side of the mode. -/
theorem error_turned {mode : AutopilotMode} {wind target heading rudder time : ℚ}
    (h : |mode.error wind target heading - mode.side * rudder * time| < AngleMath.pi) :
    mode.error wind target (turned heading rudder time) =
      mode.error wind target heading - mode.side * rudder * time := by
  have hturned := (Pd.normalizeAngle_same (heading + rudder * time)).symm
  have herror := Pd.normalizeAngle_same (target - mode.controlled wind heading)
  refine Pd.normalizeAngle_eq h (Same.trans ?_ (herror.sub (Same.refl _ _)))
  cases mode with
  | wind =>
    have hbefore := (Pd.normalizeAngle_same (wind - heading)).symm
    have hafter := Pd.normalizeAngle_same (wind - turned heading rudder time)
    have hwind := (Same.refl AngleMath.pi wind).sub hturned
    -- the wind angle shrinks by the turn
    have hangle : Same AngleMath.pi (Pd.normalizeAngle (wind - turned heading rudder time))
        (wind - (heading + rudder * time)) := hafter.symm.trans hwind
    have hshift : Same AngleMath.pi (wind - (heading + rudder * time))
        (Pd.normalizeAngle (wind - heading) - rudder * time) := by
      have h := hbefore.symm.sub (Same.refl AngleMath.pi (rudder * time))
      rwa [sub_sub] at h
    have hall := (Same.refl AngleMath.pi target).sub (hangle.trans hshift)
    have hre : target - (Pd.normalizeAngle (wind - heading) - rudder * time) =
        target - Pd.normalizeAngle (wind - heading) - -1 * rudder * time := by ring
    rwa [hre] at hall
  | compass =>
    have hall := (Same.refl AngleMath.pi target).sub hturned
    have hre : target - (heading + rudder * time) = target - heading - 1 * rudder * time := by ring
    rwa [hre] at hall
  | route =>
    have hall := (Same.refl AngleMath.pi target).sub hturned
    have hre : target - (heading + rudder * time) = target - heading - 1 * rudder * time := by ring
    rwa [hre] at hall

/-- A turn makes the error smaller exactly when the rudder, on the side of the mode, has
the sign of the error. -/
theorem turn_helps_iff {mode : AutopilotMode} {wind target heading rudder : ℚ}
    (he : |mode.error wind target heading| < AngleMath.pi) :
    (∃ limit, 0 < limit ∧ ∀ time, 0 < time → time < limit →
      |mode.error wind target (turned heading rudder time)| < |mode.error wind target heading|) ↔
    0 < mode.side * rudder * mode.error wind target heading := by
  have hturned : ∀ time,
      |mode.error wind target heading - mode.side * rudder * time| < AngleMath.pi →
      mode.error wind target (turned heading rudder time) =
        mode.error wind target heading - mode.side * rudder * time := fun _ => error_turned
  generalize mode.error wind target heading = e at he hturned ⊢
  generalize mode.side * rudder = k at hturned ⊢
  constructor
  · rintro ⟨limit, hlimit, hless⟩
    by_contra hk
    have hpos : 0 < |k| + 1 := by linarith [abs_nonneg k]
    have hroom : 0 < (AngleMath.pi - |e|) / (|k| + 1) := div_pos (by linarith) hpos
    let time := min limit ((AngleMath.pi - |e|) / (|k| + 1)) / 2
    have ht : 0 < time := half_pos (lt_min hlimit hroom)
    have hmin : time < min limit ((AngleMath.pi - |e|) / (|k| + 1)) :=
      half_lt_self (lt_min hlimit hroom)
    have hsmall : time * (|k| + 1) < AngleMath.pi - |e| :=
      (lt_div_iff₀ hpos).mp (hmin.trans_le (min_le_right _ _))
    have hkt : |k * time| < AngleMath.pi - |e| := by
      rw [abs_mul, abs_of_pos ht, mul_comm]
      linarith
    have hin : |e - k * time| < AngleMath.pi := by
      have hsub := abs_sub e (k * time)
      linarith
    have hnow := hless time ht (hmin.trans_le (min_le_left _ _))
    rw [hturned time hin, ← sq_lt_sq] at hnow
    have hgrow : 0 ≤ (k * time) ^ 2 := sq_nonneg _
    have hke : k * e * time ≤ 0 := mul_nonpos_of_nonpos_of_nonneg (not_lt.mp hk) ht.le
    have hexp : (e - k * time) ^ 2 = e ^ 2 - 2 * (k * e * time) + (k * time) ^ 2 := by ring
    linarith
  · intro hk
    have hkne : k ≠ 0 := by
      rintro rfl
      simp at hk
    have hksq : 0 < k ^ 2 := sq_pos_of_ne_zero hkne
    refine ⟨k * e / k ^ 2, div_pos hk hksq, fun time ht hlt => ?_⟩
    have hlt' : time * k ^ 2 < k * e := (lt_div_iff₀ hksq).mp hlt
    have hsq : (e - k * time) ^ 2 < e ^ 2 := by
      have hless : time * (time * k ^ 2) < time * (k * e) := mul_lt_mul_of_pos_left hlt' ht
      have hte : 0 < time * (k * e) := mul_pos ht hk
      have hexp : (e - k * time) ^ 2 =
          e ^ 2 - 2 * (time * (k * e)) + time * (time * k ^ 2) := by ring
      linarith
    have habs := sq_lt_sq.mp hsq
    rwa [hturned time (habs.trans he)]

end AutopilotMode

namespace ControlLoop

/-- When a first tick steers the right way. In compass mode the P-term and what the tick
gathers must add up to something positive; in wind mode, to something negative. -/
def Directed (l : ControlLoop) (mode : AutopilotMode) (error : ℚ) (dt : Option ℚ)
    (pidCfg : PidConfig) : Prop :=
  ∃ t, dt = some t ∧ 0 < t ∧ 0 < pidCfg.maxRudderRad ∧ error ≠ 0 ∧
    (PidController.Gathers pidCfg error → 0 ≤ l.pid.integralLimit) ∧
    0 < mode.side * PidController.drive pidCfg l.pid.integralLimit error t

/-- With gains that are not negative, compass mode steers the right way from every error,
and wind mode from none. -/
theorem directed_iff_compass {l : ControlLoop} {mode : AutopilotMode} {error t : ℚ}
    {pidCfg : PidConfig} (hmode : mode ≠ .route) (hp : 0 < pidCfg.gainP) (hi : 0 ≤ pidCfg.gainI)
    (hl : 0 ≤ l.pid.integralLimit) (hm : 0 < pidCfg.maxRudderRad) (ht : 0 < t)
    (he : error ≠ 0) : l.Directed mode error (some t) pidCfg ↔ mode = .compass := by
  have hgather : 0 ≤ if PidController.Gathers pidCfg error then
      min (|error| * t) l.pid.integralLimit else 0 := by
    split_ifs
    · exact le_min (mul_nonneg (abs_nonneg _) ht.le) hl
    · exact le_rfl
  have hdrive : 0 < PidController.drive pidCfg l.pid.integralLimit error t :=
    add_pos_of_pos_of_nonneg (mul_pos hp (abs_pos.mpr he)) (mul_nonneg hi hgather)
  constructor
  · rintro ⟨t', ht', -, -, -, -, hside⟩
    obtain rfl := Option.some.inj ht'
    cases mode with
    | compass => rfl
    | wind =>
      simp only [AutopilotMode.side] at hside
      linarith
    | route => exact absurd rfl hmode
  · rintro rfl
    exact ⟨t, rfl, ht, hm, he, fun _ => hl, by simpa [AutopilotMode.side] using hdrive⟩

end ControlLoop

/-- The snapshot of a vessel on a heading, with the wind from some direction. -/
def Snapshot.sailing [AngleMath] (s : Snapshot) (wind heading : ℚ) : Snapshot :=
  { s with
    heading := some heading
    primarySensor := some (s.mode.controlled wind heading) }

namespace ControlLoop
section
variable [AngleMath]

/-- The rudder that the mode computes. -/
def command (l : ControlLoop) (cfg : AutopilotConfig) (s : Snapshot) (target : ℚ)
    (dt yawRate : Option ℚ) (pidCfg : PidConfig) : Option ℚ :=
  (l.dispatch cfg s s.heading target dt yawRate pidCfg).bind fun out => out.2.map Prod.fst

/-- Without a yaw rate the rudder turns the vessel so that the error gets smaller; with
one, what the D-term adds is against it, and so the rudder is. -/
structure NegativeFeedback (l : ControlLoop) (cfg : AutopilotConfig) (s : Snapshot)
    (wind heading target : ℚ) (dt : Option ℚ) (pidCfg : PidConfig) : Prop where
  corrects : ∃ rudder,
    l.command cfg (s.sailing wind heading) target dt (some 0) pidCfg = some rudder ∧
    ∃ limit, 0 < limit ∧ ∀ time, 0 < time → time < limit →
      |s.mode.error wind target (turned heading rudder time)| < |s.mode.error wind target heading|
  opposes : ∀ yawRate,
    yawRate * (pidCfg.gainD * dError (s.mode.error wind target heading) s.prevError dt
      (some yawRate)) ≤ 0
  damps : ∀ yawRate rudder rudder',
    l.command cfg (s.sailing wind heading) target dt (some 0) pidCfg = some rudder →
    l.command cfg (s.sailing wind heading) target dt (some yawRate) pidCfg = some rudder' →
    (0 ≤ yawRate → rudder' ≤ rudder) ∧ (yawRate ≤ 0 → rudder ≤ rudder')

/-- Both modes are one law of their error. -/
theorem command_eq {l : ControlLoop} (cfg : AutopilotConfig) {s : Snapshot} (hs : s.mode ≠ .route)
    (hsin : l.windFilter.sinFilter.alpha = 1) (hcos : l.windFilter.cosFilter.alpha = 1)
    (hexact : ∀ angle,
      Same AngleMath.pi (AngleMath.atan2 (AngleMath.sin angle) (AngleMath.cos angle)) angle)
    {wind heading target : ℚ} (he : |s.mode.error wind target heading| < AngleMath.pi)
    (dt : Option ℚ) (yawRate : ℚ) (pidCfg : PidConfig) :
    l.command cfg (s.sailing wind heading) target dt (some yawRate) pidCfg =
      (l.pid.compute (s.mode.error wind target heading) (-yawRate) dt pidCfg).map Prod.snd := by
  obtain ⟨enabled, mode, rest⟩ := s
  cases mode with
  | compass =>
    simp only [command, dispatch, Snapshot.sailing, Heading.compute, withLaw, AutopilotMode.error,
      AutopilotMode.controlled, dError]
    cases l.pid.compute (Pd.normalizeAngle (target - heading)) (-yawRate) dt pidCfg <;> rfl
  | wind =>
    have hfilter : (l.windFilter.update (Pd.normalizeAngle (wind - heading))).2 =
        AngleMath.atan2 (AngleMath.sin (Pd.normalizeAngle (wind - heading)))
          (AngleMath.cos (Pd.normalizeAngle (wind - heading))) := by
      simp only [CircularFilter.update, LowPassFilter.update_alpha_one hsin,
        LowPassFilter.update_alpha_one hcos]
    have herror : Pd.normalizeAngle (target -
        (l.windFilter.update (Pd.normalizeAngle (wind - heading))).2) =
        AutopilotMode.wind.error wind target heading := by
      refine Pd.normalizeAngle_eq he ?_
      rw [hfilter]
      exact ((Same.refl _ target).sub (hexact _)).trans (Pd.normalizeAngle_same _)
    simp only [command, dispatch, Snapshot.sailing, withLaw, AutopilotMode.controlled, dError, herror]
    cases l.pid.compute (AutopilotMode.wind.error wind target heading) (-yawRate) dt pidCfg <;> rfl
  | route => exact absurd rfl hs

/-- From a zero integral, a mode is negative feedback exactly when its tick is directed. -/
theorem negative_feedback_iff {l : ControlLoop} (cfg : AutopilotConfig) {s : Snapshot}
    {pidCfg : PidConfig} (hmode : s.mode ≠ .route)
    (hsin : l.windFilter.sinFilter.alpha = 1) (hcos : l.windFilter.cosFilter.alpha = 1)
    (hexact : ∀ angle,
      Same AngleMath.pi (AngleMath.atan2 (AngleMath.sin angle) (AngleMath.cos angle)) angle)
    (hzero : l.pid.integral = 0) (hd : 0 ≤ pidCfg.gainD)
    {wind heading target : ℚ} (hdead : pidCfg.deadZoneRad ≤ |s.mode.error wind target heading|)
    (hhalf : |s.mode.error wind target heading| < AngleMath.pi) (dt : Option ℚ) :
    l.NegativeFeedback cfg s wind heading target dt pidCfg ↔
      l.Directed s.mode (s.mode.error wind target heading) dt pidCfg := by
  have hcommand := command_eq cfg hmode hsin hcos hexact hhalf dt
  have hsign := PidController.compute_sign_iff hzero hdead s.mode.side dt
  constructor
  · rintro ⟨⟨rudder, hr, hturn⟩, -, -⟩
    rw [hcommand] at hr
    obtain ⟨out, hout, rfl⟩ := Option.map_eq_some_iff.mp hr
    rw [neg_zero] at hout
    exact hsign.mp ⟨out, hout, (AutopilotMode.turn_helps_iff hhalf).mp hturn⟩
  · intro h
    obtain ⟨out, hout, hpos⟩ := hsign.mpr h
    refine ⟨⟨out.2, ?_, (AutopilotMode.turn_helps_iff hhalf).mpr hpos⟩, fun yaw => ?_,
      fun yaw rudder rudder' hr hr' => ?_⟩
    · rw [hcommand, neg_zero, hout]
      rfl
    · have hsq : 0 ≤ pidCfg.gainD * (yaw * yaw) := mul_nonneg hd (mul_self_nonneg yaw)
      calc yaw * (pidCfg.gainD * -yaw) = -(pidCfg.gainD * (yaw * yaw)) := by ring
        _ ≤ 0 := by linarith
    · rw [hcommand] at hr hr'
      obtain ⟨first, hfirst, rfl⟩ := Option.map_eq_some_iff.mp hr
      obtain ⟨second, hsecond, rfl⟩ := Option.map_eq_some_iff.mp hr'
      exact ⟨fun hy => PidController.compute_mono hd (by linarith) hsecond hfirst,
        fun hy => PidController.compute_mono hd (by linarith) hfirst hsecond⟩

end

section
attribute [local instance] AngleMath.plain

/-- As it starts, but with an unfiltered wind angle. -/
abbrev unfiltered : ControlLoop where
  pid := .new (1 / 2)
  windFilter := ⟨⟨none, 1⟩, ⟨none, 1⟩⟩
  recovery := .new
  gustDetector := ⟨none, ⟨none, 1 / 2⟩⟩
  rudderFeedback := .new
  headingPlausibility := .new 3
  prevMode := none
  tickCounter := 0

abbrev firstSnapshot (mode : AutopilotMode) : Snapshot :=
  Snapshot.read AutopilotConfig.default (AutopilotState.new mode) 0

theorem negative_feedback_iff_compass :
    unfiltered.NegativeFeedback AutopilotConfig.default (firstSnapshot .compass) 0 0 (1 / 10)
      (some (1 / 10)) AutopilotConfig.default.pidConfig := by
  have he : AutopilotMode.compass.error 0 (1 / 10) 0 = 1 / 10 := by decide +kernel
  have hbounds : AutopilotConfig.default.pidConfig.deadZoneRad ≤
      |AutopilotMode.compass.error 0 (1 / 10) 0| ∧
      |AutopilotMode.compass.error 0 (1 / 10) 0| < AngleMath.pi := by
    decide +kernel
  have hgains : 0 < AutopilotConfig.default.pidConfig.gainP ∧
      0 ≤ AutopilotConfig.default.pidConfig.gainI ∧ 0 ≤ AutopilotConfig.default.pidConfig.gainD ∧
      0 < AutopilotConfig.default.pidConfig.maxRudderRad := by
    decide +kernel
  obtain ⟨hp, hi, hd, hm⟩ := hgains
  have hne : AutopilotMode.compass.error 0 (1 / 10) 0 ≠ 0 := by
    rw [he]
    norm_num
  have hlimit : 0 ≤ unfiltered.pid.integralLimit := by decide +kernel
  have htime : (0 : ℚ) < 1 / 10 := by norm_num
  have hdirected : unfiltered.Directed .compass (AutopilotMode.compass.error 0 (1 / 10) 0)
      (some (1 / 10)) AutopilotConfig.default.pidConfig :=
    (directed_iff_compass (by decide) hp hi hlimit hm htime hne).mpr rfl
  have hmode : (firstSnapshot .compass).mode ≠ .route := by decide
  exact (negative_feedback_iff _ hmode rfl rfl (fun angle => Same.refl _ angle) rfl hd
    hbounds.1 hbounds.2 _).mpr hdirected

/-- With the wind from ahead and a target to starboard, wind mode turns to starboard, and
the wind goes to port. -/
theorem wind_mode_turns_away :
    ¬unfiltered.NegativeFeedback AutopilotConfig.default (firstSnapshot .wind) 0 0 (1 / 10)
      (some (1 / 10)) AutopilotConfig.default.pidConfig := by
  intro h
  obtain ⟨rudder, hrudder, hturn⟩ := h.corrects
  have hvalue : unfiltered.command AutopilotConfig.default ((firstSnapshot .wind).sailing 0 0)
      (1 / 10) (some (1 / 10)) (some 0) AutopilotConfig.default.pidConfig =
        some (201 / 2000) := by
    decide +kernel
  obtain rfl := Option.some.inj (hrudder.symm.trans hvalue)
  have hhalf : |AutopilotMode.wind.error 0 (1 / 10) 0| < AngleMath.pi := by decide +kernel
  have hpos := (AutopilotMode.turn_helps_iff hhalf).mp hturn
  have hneg : ¬0 < AutopilotMode.wind.side * (201 / 2000) * AutopilotMode.wind.error 0 (1 / 10) 0 := by
    decide +kernel
  exact hneg hpos

end

end ControlLoop

end SignalK

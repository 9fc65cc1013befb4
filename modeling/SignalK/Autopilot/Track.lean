import Mathlib.Data.Sign.Basic
import SignalK.Autopilot.Feedback
import SignalK.Autopilot.Tick
import SignalK.DerivedData.Consistent
import SignalK.Plugins.Host

/-! Route mode and the track: to which side a cross-track error turns the vessel, and
whether the control loop has heard the one that is derived for the active course. -/
namespace SignalK
open Clamp Circle

/-- What is known of an arc tangent. -/
structure ArcTangent (pi : ℚ) (atan : ℚ → ℚ) : Prop where
  odd : ∀ x, atan (-x) = -atan x
  strictMono : StrictMono atan
  range : ∀ x, |atan x| < pi

theorem ArcTangent.sign {pi : ℚ} {atan : ℚ → ℚ} (h : ArcTangent pi atan) (x : ℚ) :
    SignType.sign (atan x) = SignType.sign x := by
  have hzero : atan 0 = 0 := by
    have hodd := h.odd 0
    rw [neg_zero] at hodd
    linarith
  obtain hx | rfl | hx := lt_trichotomy x 0
  · have hlt := h.strictMono hx
    rw [hzero] at hlt
    rw [sign_neg hlt, sign_neg hx]
  · rw [hzero]
  · have hlt := h.strictMono hx
    rw [hzero] at hlt
    rw [sign_pos hlt, sign_pos hx]

namespace PidController

/-- From a zero integral, without a yaw rate and with gains that are not negative, the
command is not against the error. -/
theorem compute_along {pid : PidController} {error : ℚ} {dt : Option ℚ} {cfg : PidConfig}
    {out : PidController × ℚ} (hi : pid.integral = 0) (hp : 0 ≤ cfg.gainP) (hg : 0 ≤ cfg.gainI)
    (h : pid.compute error 0 dt cfg = some out) : 0 ≤ out.2 * error := by
  have hstay : ∀ p : PidController, some (p, (0 : ℚ)) = some out → 0 ≤ out.2 * error := by
    intro p he
    obtain rfl := Option.some.inj he
    simp
  cases dt with
  | none => exact hstay _ h
  | some t =>
    simp only [compute] at h
    split_ifs at h with ht hdead
    · exact hstay _ h
    · exact hstay _ h
    · obtain ⟨integral, hint, hout⟩ := Option.bind_eq_some_iff.mp h
      obtain ⟨rudder, hclamp, rfl⟩ := Option.map_eq_some_iff.mp hout
      obtain ⟨hsafe, hdrive⟩ := integrate_zero_eq_some hi (not_le.mp ht) hint
      have hshare : 0 ≤ if Gathers cfg error then min (|error| * t) pid.integralLimit else 0 := by
        split_ifs with hopen
        · exact le_min (mul_nonneg (abs_nonneg error) (not_le.mp ht).le) (hsafe hopen)
        · exact le_rfl
      have hpos : 0 ≤ |error| * drive cfg pid.integralLimit error t := by
        apply mul_nonneg (abs_nonneg error)
        exact add_nonneg (mul_nonneg hp (abs_nonneg error)) (mul_nonneg hg hshare)
      rw [← hdrive] at hpos
      obtain ⟨hlow, hhigh⟩ := clamp_bounds hclamp
      by_contra hneg
      have hne : rudder ≠ 0 := by
        rintro rfl
        simp at hneg
      have hm : 0 < cfg.maxRudderRad := by
        by_contra hm
        exact hne (by linarith)
      have hback : 0 < rudder * -error := by
        rw [mul_neg]
        linarith
      rw [clamp_mul_pos_iff hm hclamp] at hback
      linarith

end PidController

namespace Route
variable [AngleMath]

/-- An error to starboard of the track asks for a turn to port: so the error of the heading
is to have the other sign, and the rudder is not to turn the vessel further away. -/
def SteersBack (xteM : ℚ) (out : PidController × ℚ × ℚ) : Prop :=
  SignType.sign out.2.2 = SignType.sign (-xteM) ∧ ¬0 < out.2.1 * xteM

/-- On the bearing, the error of the heading is the correction alone. -/
theorem error_on_bearing {input : RouteInput} {pid : PidController} {cfg : PidConfig}
    {out : PidController × ℚ × ℚ} (hatan : ArcTangent AngleMath.pi AngleMath.atan)
    (hb : Same AngleMath.pi input.currentHeading input.btw)
    (h : compute input pid cfg = some out) :
    out.2.2 = AngleMath.atan (input.xteM / max input.lookaheadM 1) := by
  obtain ⟨r, -, rfl⟩ := Option.map_eq_some_iff.mp h
  set correction := AngleMath.atan (input.xteM / max input.lookaheadM 1) with hc
  have hdesired := (Pd.normalizeAngle_same (input.btw + correction)).symm
  have hdiff := hdesired.sub hb
  have hre : input.btw + correction - input.btw = correction := by ring
  rw [hre] at hdiff
  exact Pd.normalizeAngle_eq (hatan.range _) hdiff

/-- The error of the heading has the sign of the cross-track error. -/
theorem sign_on_bearing {input : RouteInput} {pid : PidController} {cfg : PidConfig}
    {out : PidController × ℚ × ℚ} (hatan : ArcTangent AngleMath.pi AngleMath.atan)
    (hb : Same AngleMath.pi input.currentHeading input.btw)
    (h : compute input pid cfg = some out) :
    SignType.sign out.2.2 = SignType.sign input.xteM := by
  have hl : 0 < max input.lookaheadM 1 := lt_max_of_lt_right one_pos
  rw [error_on_bearing hatan hb h, hatan.sign, div_eq_mul_inv, sign_mul,
    sign_pos (inv_pos.mpr hl), mul_one]

theorem steersBack_iff {input : RouteInput} {pid : PidController} {cfg : PidConfig}
    {out : PidController × ℚ × ℚ} (hatan : ArcTangent AngleMath.pi AngleMath.atan)
    (hb : Same AngleMath.pi input.currentHeading input.btw)
    (h : compute input pid cfg = some out) : SteersBack input.xteM out ↔ input.xteM = 0 := by
  have hsign := sign_on_bearing hatan hb h
  constructor
  · rintro ⟨herror, -⟩
    rw [hsign, Left.sign_neg] at herror
    have hzero : SignType.sign input.xteM = 0 := by
      generalize SignType.sign input.xteM = s at herror
      revert s
      decide
    exact sign_eq_zero_iff.mp hzero
  · intro hx
    rw [SteersBack, hsign, hx, neg_zero, mul_zero]
    exact ⟨rfl, lt_irrefl 0⟩

/-- The rudder is never to the side of the track, but to the side of the vessel. -/
theorem rudder_away {input : RouteInput} {pid : PidController} {cfg : PidConfig}
    {out : PidController × ℚ × ℚ} (hatan : ArcTangent AngleMath.pi AngleMath.atan)
    (hb : Same AngleMath.pi input.currentHeading input.btw) (hy : input.yawRate = some 0)
    (hi : pid.integral = 0) (hp : 0 ≤ cfg.gainP) (hg : 0 ≤ cfg.gainI)
    (h : compute input pid cfg = some out) : 0 ≤ out.2.1 * input.xteM := by
  have hsign := sign_on_bearing hatan hb h
  obtain ⟨r, hr, rfl⟩ := Option.map_eq_some_iff.mp h
  rw [hy] at hr
  simp only [dError, neg_zero] at hr
  have halong := PidController.compute_along hi hp hg hr
  simp only at hsign ⊢
  obtain hx | hx | hx := lt_trichotomy input.xteM 0
  · rw [sign_neg hx, sign_eq_neg_one_iff] at hsign
    have hle : r.2 ≤ 0 := nonpos_of_mul_nonneg_left halong hsign
    exact mul_nonneg_of_nonpos_of_nonpos hle hx.le
  · rw [hx, mul_zero]
  · rw [sign_pos hx, sign_eq_one_iff] at hsign
    have hle : 0 ≤ r.2 := nonneg_of_mul_nonneg_left halong hsign
    exact mul_nonneg hle hx.le

end Route

/-- What the plugin subscribes to. -/
def autopilotSubscription : SubscriptionSpec :=
  .selfVessel [
    .ofPath "navigation.headingMagnetic",
    .ofPath "navigation.headingTrue",
    .ofPath "navigation.rateOfTurn",
    .ofPath "navigation.speedThroughWater",
    .ofPath "navigation.speedOverGround",
    .ofPath "navigation.attitude.roll",
    .ofPath "environment.wind.angleApparent",
    .ofPath "environment.wind.angleTrue",
    .ofPath "environment.wind.speedApparent",
    .ofPath "navigation.course.calcValues.bearingTrackTrue",
    .ofPath "navigation.crossTrackError",
    .ofPath "steering.rudderAngle"]

/-- Who sent a delta. -/
inductive Origin where
  | calculators
  | others
  deriving DecidableEq

/-- The calculators and the autopilot on one bus. -/
structure Guidance where
  derived : DerivedData.Observed
  pilot : AutopilotSystem
  /-- deltas for which the autopilot's callback is still to run -/
  onTheWay : List (Origin × Delta)
  /-- those for which it has, in that order (history) -/
  heard : List (Origin × Delta)

inductive GuidanceEvent where
  /-- a delta is applied, and handled by the calculators -/
  | publish (e : DerivedData.Delivery)
  /-- one of the spawned callbacks runs, in whatever order -/
  | hear (i : Nat)
  /-- a delta comes that the calculators have not seen, a call, time, or a tick goes on -/
  | pilot (e : AutopilotEvent)

namespace Guidance
open DerivedData

def start (cfg : AutopilotConfig) (now : Instant) : Guidance where
  derived := .start
  pilot := .start cfg now
  onTheWay := []
  heard := []

def handle (g : Guidance) (m : Origin × Delta) : Guidance :=
  { g with
    pilot := g.pilot.sensors m.2
    heard := g.heard ++ [m] }

def publish (calcs : List Calculator) (g : Guidance) (e : Delivery) : Guidance :=
  let r := g.derived.deliver calcs e
  let sent := (.others, e.delta) :: r.2.map (Origin.calculators, ·)
  { g with
    derived := r.1
    onTheWay := g.onTheWay ++ sent.filter fun m => autopilotSubscription.receives m.2 }

section
variable [AngleMath]

def step (calcs : List Calculator) (g : Guidance) :
    GuidanceEvent → Guidance × List AutopilotOutput
  | .publish e => (g.publish calcs e, [])
  | .hear i =>
    match g.onTheWay[i]? with
    | some m => ({ g with onTheWay := g.onTheWay.eraseIdx i }.handle m, [])
    | none => (g, [])
  | .pilot (.sensors delta) => (g.handle (.others, delta), [])
  | .pilot e =>
    let r := g.pilot.step e
    ({ g with pilot := r.1 }, r.2)

end

def xtePath : String := "navigation.crossTrackError"

/-- The cross-track error that a tick in route mode would compute with. -/
def xteFed (g : Guidance) : ℚ :=
  (Snapshot.read g.pilot.config g.pilot.state g.pilot.now).xte.getD 0

/-- The numbers in a delta for the path of the cross-track error. -/
def xtes (delta : Delta) : List ℚ :=
  delta.pathValues.filterMap fun pv => if pv.path = xtePath then pv.value.asF64 else none

/-- The last such number of the others that the callback has handled. -/
def lastOfOthers (g : Guidance) : Option ℚ :=
  ((g.heard.filter fun m => m.1 = .others).flatMap fun m => xtes m.2).getLast?

/-- The cross-track error that was emitted last, and for the position and the leg at hand. -/
def Published [ExactMath] (g : Guidance) (x : ℚ) : Prop :=
  ∃ v, g.derived.emitted.lookup "navigation.course.calcValues.crossTrackError" = some v ∧
    v.asF64 = some x ∧ dataflow.computes courseXte g.derived.snapshot
      "navigation.course.calcValues.crossTrackError" v

/-- The loop computes with the cross-track error that is published. -/
def Heeds [ExactMath] (g : Guidance) : Prop := ∀ x, g.Published x → g.xteFed = x

/-- Others repeat the number where the loop looks for it. -/
def Repeated [ExactMath] (g : Guidance) : Prop :=
  ∀ x, g.Published x → g.lastOfOthers.getD 0 = x

theorem writer_xtePath : writer xtePath = none := by
  have hno : places.lookup xtePath = none := by
    rw [List.lookup_eq_none_iff]
    simp [places, xtePath]
  have hi : ofInstance xtePath = false := not_ofInstance "navigation.crossTrackError".toList rfl
  simp [writer, DerivedData.place, hno, hi]

/-- What is derived in the rounds is what some calculator computes. -/
theorem mem_fixpoint {calcs : List Calculator} {iters : List Iteration} {m : Values}
    {changed : List String} {pv : PathValue} (h : pv ∈ (fixpoint calcs iters m changed).2) :
    ∃ c ∈ calcs, ∃ iter s, Gives c.calculate iter s pv := by
  induction iters generalizing m changed with
  | nil => cases h
  | cons iter iters ih =>
    rw [fixpoint] at h
    split_ifs at h
    · cases h
    · obtain h | h := List.mem_append.mp h
      · obtain ⟨c, hc, -, hg⟩ := mem_newValues.mp h
        exact ⟨c, hc, iter, m, hg⟩
      · exact ih h

theorem mem_emit {e : Delivery} {derived : List PathValue} {delta : Delta} {pv : PathValue}
    (h : emit e derived = some delta) (hpv : pv ∈ delta.pathValues) :
    ∃ pv' ∈ derived, pv'.path = pv.path := by
  have hsame := insertValues_emit ∅ e derived
  rw [h, Option.elim_some] at hsame
  obtain ⟨hno, -⟩ | ⟨_, _, _, hv⟩ := lookup_insertValues delta.pathValues ∅ pv.path
  · exact absurd rfl (hno pv hpv)
  · rw [hsame] at hv
    obtain ⟨-, hnone⟩ | ⟨pv', hpv', hpath, -⟩ := lookup_insertValues derived ∅ pv.path
    · exact nomatch hnone.symm.trans hv
    · exact ⟨pv', hpv', hpath⟩

/-- No calculator writes the path that the loop reads. -/
theorem xtes_emitted [ExactMath] [Ephemeris] {calcs : List Calculator}
    (hsub : calcs ⊆ statelessCalculators) (o : Observed) (e : Delivery) :
    ∀ delta ∈ (o.deliver calcs e).2, xtes delta = [] := by
  intro delta hd
  have hemit : (callback calcs o.snapshot e).2 = some delta := Option.mem_toList.mp hd
  unfold callback at hemit
  simp only at hemit
  split_ifs at hemit
  refine List.filterMap_eq_nil_iff.mpr fun pv hpv => if_neg ?_
  intro hpath
  obtain ⟨pv', hmem, hsame⟩ := mem_emit hemit hpv
  obtain ⟨c, hc, iter, s, hg⟩ := mem_fixpoint hmem
  have hw := (traced c (hsub hc)).sound.writing iter s pv' hg
  rw [hsame, hpath, Writes, writer_xtePath] at hw
  obtain hw | ⟨hw, -⟩ := hw
  · cases hw
  · simp [xtePath, belowKeel] at hw

/-- What the callback keeps under the path: the last number that came. -/
theorem receive_xte (st : AutopilotState) (now : Instant) (delta : Delta) :
    (st.receive now delta).sensorValues.lookup xtePath =
      (xtes delta).getLast?.or (st.sensorValues.lookup xtePath) := by
  have hne : ¬xtePath = "steering.rudderAngle" := by simp [xtePath]
  have h := st.reading_receive now delta xtePath
  have hread : ∀ st : AutopilotState, st.reading xtePath = st.sensorValues.lookup xtePath :=
    fun st => if_neg hne
  have hsensed : ∀ source pv, AutopilotState.sensed xtePath source pv =
      if pv.path = xtePath then pv.value.asF64 else none := by
    intro source pv
    simp [AutopilotState.sensed, hne]
  simp only [hread, hsensed] at h
  rw [h, xtes, Delta.pathValues, AutopilotState.sourced, List.filterMap_flatMap,
    List.filterMap_flatMap]
  simp only [List.filterMap_map]
  rfl

/-- What the loop would compute with is the last number of the others, and what the
calculators send never is one. -/
structure Known (g : Guidance) : Prop where
  held : g.pilot.state.sensorValues.lookup xtePath = g.lastOfOthers
  silent : ∀ m ∈ g.onTheWay, m.1 = .calculators → xtes m.2 = []

theorem Known.fed {g : Guidance} (h : Known g) : g.xteFed = g.lastOfOthers.getD 0 :=
  congrArg (Option.getD · 0) h.held

theorem known_start (cfg : AutopilotConfig) (now : Instant) : Known (start cfg now) :=
  ⟨rfl, fun _ h => nomatch h⟩

theorem Known.handle {g : Guidance} (h : Known g) {m : Origin × Delta}
    (hm : m.1 = .calculators → xtes m.2 = []) : Known (g.handle m) := by
  refine ⟨?_, h.silent⟩
  have hheld : (g.handle m).pilot.state.sensorValues.lookup xtePath =
      (xtes m.2).getLast?.or g.lastOfOthers := by
    rw [← h.held]
    exact receive_xte _ _ _
  rw [hheld]
  obtain ⟨origin, delta⟩ := m
  cases origin with
  | calculators => simp [lastOfOthers, Guidance.handle, hm rfl]
  | others => simp [lastOfOthers, Guidance.handle, List.filter_append]

section
variable [AngleMath]

theorem step_values (p : AutopilotSystem) {e : AutopilotEvent}
    (he : ∀ delta, e ≠ .sensors delta) :
    (p.step e).1.state.sensorValues.lookup xtePath = p.state.sensorValues.lookup xtePath := by
  have hne : ¬xtePath = "steering.rudderAngle" := by simp [xtePath]
  have h := AutopilotSystem.reading_step p he xtePath
  simpa only [AutopilotState.reading, if_neg hne] using h

variable [ExactMath] [Ephemeris] {calcs : List Calculator}

theorem Known.step {g : Guidance} (hsub : calcs ⊆ statelessCalculators) (h : Known g)
    (e : GuidanceEvent) : Known (g.step calcs e).1 := by
  cases e with
  | publish e =>
    refine ⟨h.held, fun m hm ho => ?_⟩
    obtain hm | hm := List.mem_append.mp hm
    · exact h.silent m hm ho
    · obtain ⟨hm, -⟩ := List.mem_filter.mp hm
      obtain rfl | hm := List.mem_cons.mp hm
      · cases ho
      · obtain ⟨delta, hd, rfl⟩ := List.mem_map.mp hm
        exact xtes_emitted hsub _ _ delta hd
  | hear i =>
    simp only [Guidance.step]
    cases hm : g.onTheWay[i]? with
    | none => exact h
    | some m =>
      have hmem : m ∈ g.onTheWay := List.mem_of_getElem? hm
      have hrest : Known { g with onTheWay := g.onTheWay.eraseIdx i } :=
        ⟨h.held, fun m' hm' => h.silent m' (List.mem_of_mem_eraseIdx hm')⟩
      exact hrest.handle (h.silent m hmem)
  | pilot e =>
    cases e with
    | sensors delta => exact h.handle fun ho => nomatch ho
    | pass nanoseconds => exact ⟨h.held, h.silent⟩
    | call c => exact ⟨(step_values g.pilot (by simp)).trans h.held, h.silent⟩
    | wake => exact ⟨(step_values g.pilot (by simp)).trans h.held, h.silent⟩
    | proceed => exact ⟨(step_values g.pilot (by simp)).trans h.held, h.silent⟩

omit [ExactMath] [Ephemeris] in
/-- In route mode a tick computes with what it is fed. -/
theorem dispatch_route (g : Guidance) (l : ControlLoop) {heading btw : ℚ} (target : ℚ)
    (dt yawRate : Option ℚ) (pidCfg : PidConfig) (hm : g.pilot.state.mode = .route)
    (hb : g.pilot.state.currentSensor = some btw) :
    l.dispatch g.pilot.config (Snapshot.read g.pilot.config g.pilot.state g.pilot.now)
        (some heading) target dt yawRate pidCfg =
      l.withLaw (Route.compute
        { currentHeading := heading
          btw := btw
          xteM := g.xteFed
          lookaheadM := g.pilot.config.routeLookaheadM
          prevError := g.pilot.state.lastErrorRad
          dt := dt
          yawRate := yawRate } l.pid pidCfg) := by
  simp only [ControlLoop.dispatch, Snapshot.read, hm, hb]
  rfl

theorem known_run (hsub : calcs ⊆ statelessCalculators) (cfg : AutopilotConfig) (now : Instant)
    (es : List GuidanceEvent) : Known (Machine.run (step calcs) (start cfg now) es) :=
  Machine.run_inv (fun _ e h _ => h.step hsub e) (known_start cfg now)
    (Machine.meets_true _ _ _)

/-- Route mode turns the vessel back to the track exactly when it is on it, and away from
it otherwise; and the loop computes with the cross-track error of the active course exactly
when others repeat it under another path. -/
theorem back_on_track (hatan : ArcTangent AngleMath.pi AngleMath.atan) :
    (∀ (input : RouteInput) (pid : PidController) (cfg : PidConfig)
        (out : PidController × ℚ × ℚ),
      Same AngleMath.pi input.currentHeading input.btw →
      Route.compute input pid cfg = some out →
      (Route.SteersBack input.xteM out ↔ input.xteM = 0) ∧
        (input.yawRate = some 0 → pid.integral = 0 → 0 ≤ cfg.gainP → 0 ≤ cfg.gainI →
          0 ≤ out.2.1 * input.xteM)) ∧
    ∀ (disabled : List String) (cfg : AutopilotConfig) (now : Instant)
        (es : List GuidanceEvent),
      let g := Machine.run (step (enabled disabled)) (start cfg now) es
      g.Heeds ↔ g.Repeated := by
  constructor
  · intro input pid cfg out hb h
    exact ⟨Route.steersBack_iff hatan hb h,
      fun hy hi hp hg => Route.rudder_away hatan hb hy hi hp hg h⟩
  · intro disabled cfg now es
    have hsub : enabled disabled ⊆ statelessCalculators := List.filter_sublist.subset
    simp only [Heeds, Repeated, (known_run hsub cfg now es).fed]

end

/-- A function with the properties of an arc tangent, and its value at a half. -/
@[reducible] def bounded : AngleMath :=
  { AngleMath.plain with
    atan := fun x => 13909428270024183 / 10000000000000000 * x / (1 + |x|) }

attribute [local instance] bounded ExactMath.plain Ephemeris.unused

theorem bounded_arcTangent : ArcTangent bounded.pi bounded.atan where
  odd x := by
    show _ * -x / (1 + |(-x)|) = -(_ * x / (1 + |x|))
    rw [abs_neg]
    ring
  strictMono x y hxy := by
    have hx : 0 < 1 + |x| := by linarith [abs_nonneg x]
    have hy : 0 < 1 + |y| := by linarith [abs_nonneg y]
    show _ * x / (1 + |x|) < _ * y / (1 + |y|)
    rw [div_lt_div_iff₀ hx hy]
    have hcross : x * |y| ≤ y * |x| := by
      obtain hx0 | hx0 := le_total 0 x
      · rw [abs_of_nonneg hx0, abs_of_nonneg (hx0.trans hxy.le), mul_comm]
      · obtain hy0 | hy0 := le_total 0 y
        · exact (mul_nonpos_of_nonpos_of_nonneg hx0 (abs_nonneg y)).trans
            (mul_nonneg hy0 (abs_nonneg x))
        · rw [abs_of_nonpos hx0, abs_of_nonpos hy0]
          linarith [mul_comm x y]
    linarith
  range x := by
    have hx : 0 < 1 + |x| := by linarith [abs_nonneg x]
    have habs := abs_nonneg x
    show |_ * x / (1 + |x|)| < (884279719003555 / 281474976710656 : ℚ)
    rw [abs_div, abs_mul, abs_of_pos hx, div_lt_iff₀ hx]
    norm_num
    linarith

/-- On a bearing of zero, a tenth of a second after the last tick. -/
def onBearing (xteM : ℚ) : RouteInput where
  currentHeading := 0
  btw := 0
  xteM := xteM
  lookaheadM := 100
  prevError := 0
  dt := some (1 / 10)
  yawRate := some 0

def positionAt (latitude longitude : ℚ) : Json :=
  .ofFields [("latitude", .ofF64 latitude), ("longitude", .ofF64 longitude)]

/-- The track leads to the north, and the vessel is one degree to the east of it. -/
noncomputable def offTrack : Delivery :=
  sensorDelivery [⟨"navigation.position", positionAt 0 1⟩,
    ⟨"navigation.course.nextPoint.position", positionAt 1 0⟩,
    ⟨"navigation.course.previousPoint.position", positionAt 0 0⟩]

/-- Its cross-track error, as it is emitted. -/
def offTrackXte : Json := (Geo.crossTrackError (0, 1) (0, 0) (1, 0)).toJson

theorem emitted_offTrack :
    (Observed.start.deliver [courseXte] offTrack).1.emitted.lookup
      "navigation.course.calcValues.crossTrackError" = some offTrackXte := by
  rw [emitted_deliver (by decide +kernel)]
  decide +kernel

theorem computes_offTrack : dataflow.computes courseXte
    (Observed.start.deliver [courseXte] offTrack).1.snapshot
    "navigation.course.calcValues.crossTrackError" offTrackXte := by
  refine ⟨.some, [⟨_, offTrackXte⟩], ?_, .head _⟩
  decide +kernel

/-- Exactly on the track, and with another source that repeats the cross-track error. -/
theorem back_on_track_repeated :
    let out : PidController × ℚ × ℚ := (.new (1 / 2), 0, 0)
    let others := Delta.selfVessel [{
      source := Source.plugin "sensor"
      timestamp := 1704067200
      values := [⟨"navigation.crossTrackError", offTrackXte⟩] }]
    Route.SteersBack 0 out ∧
      (Machine.run (step (enabled (allBut [courseXte]))) (start .default 0)
        [.publish offTrack, .pilot (.sensors others)]).Heeds := by
  intro out others
  have hcalcs : enabled (allBut [courseXte]) = [courseXte] :=
    enabled_allBut (by simp [statelessCalculators])
  obtain ⟨hsteer, hrun⟩ := back_on_track bounded_arcTangent
  refine ⟨((hsteer (onBearing 0) (.new (1 / 2)) AutopilotConfig.default.pidConfig out
    (Same.refl _ _) (by decide +kernel)).1).mpr rfl, (hrun _ _ _ _).mpr ?_⟩
  rintro x ⟨v, hv, hx, -⟩
  rw [hcalcs] at hv ⊢
  have hsame : some v = some offTrackXte := hv.symm.trans emitted_offTrack
  cases hsame
  have hlast : xtes others = offTrackXte.asF64.toList := by
    decide +kernel
  have hheard : lastOfOthers (Machine.run (step [courseXte]) (start .default 0)
      [.publish offTrack, .pilot (.sensors others)]) = (xtes others ++ []).getLast? := rfl
  rw [hheard, hlast, hx]
  rfl

/-- Fifty meters to starboard the rudder goes to starboard, and one degree off the track
the loop computes as if it were on it. -/
theorem steers_away :
    (∃ out, Route.compute (onBearing 50) (.new (1 / 2)) AutopilotConfig.default.pidConfig =
      some out ∧ 0 < out.2.2 ∧ 0 < out.2.1 ∧ ¬Route.SteersBack 50 out) ∧
    ¬(Machine.run (step (enabled (allBut [courseXte]))) (start .default 0)
      [.publish offTrack]).Heeds := by
  rw [enabled_allBut (by simp [statelessCalculators])]
  constructor
  · refine ⟨(⟨4636476090008061 / 100000000000000000, 1 / 2⟩,
      931931694091620261 / 2000000000000000000, 4636476090008061 / 10000000000000000),
      by decide +kernel, by norm_num, by norm_num, ?_⟩
    rintro ⟨-, hrudder⟩
    exact hrudder (by norm_num)
  · intro h
    have hne : offTrackXte.asF64.any (· ≠ 0) = true := by
      decide +kernel
    obtain ⟨x, hx, hx0⟩ := (Option.any_eq_true _ _).mp hne
    have hfed := h x ⟨_, emitted_offTrack, hx, computes_offTrack⟩
    exact of_decide_eq_true hx0 hfed.symm

end Guidance

end SignalK

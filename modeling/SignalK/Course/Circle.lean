import SignalK.Course.Memory

/-! Whether the arrival circle that was set last is the one of every later course. A new
course of the API takes it from the course before, one of NMEA from the configuration. -/
namespace SignalK
namespace CourseManager

/-- The manager and the radius that was last set with success (history). -/
structure Circled where
  manager : CourseManager
  recent : Option ℚ

/-- The circle of the course, if there is one, and that of the configuration. -/
def circles (m : CourseManager) : Option ℚ × ℚ :=
  (m.state.map CourseState.arrivalCircle, m.config.arrivalCircle)

theorem circles_of_memory {m m' : CourseManager} (h : m'.memory = m.memory) :
    m'.circles = m.circles :=
  congrArg (fun s : Option CourseState × CourseConfig =>
    (s.1.map CourseState.arrivalCircle, s.2.arrivalCircle)) h

theorem circles_of_memory_eq {m : CourseManager} {state : Option CourseState} {config : CourseConfig}
    (h : m.memory = (state, config)) :
    m.circles = (state.map CourseState.arrivalCircle, config.arrivalCircle) :=
  congrArg (fun s : Option CourseState × CourseConfig =>
    (s.1.map CourseState.arrivalCircle, s.2.arrivalCircle)) h

/-- A move along the route leaves the circle. -/
theorem following_circle {m : CourseManager} {course : CourseState} {route : ActiveRoute}
    (h : m.following = .ok (course, route)) :
    some course.arrivalCircle = m.state.map CourseState.arrivalCircle := by
  rw [(following_eq_ok.mp h).1]
  rfl

theorem advanced_circle (m : CourseManager) (env : Surroundings) (delta : Int32) :
    (m.advanced env delta).state.map CourseState.arrivalCircle =
      m.state.map CourseState.arrivalCircle := by
  unfold advanced
  cases hf : m.following with
  | error e => rfl
  | ok followed =>
    obtain ⟨course, route⟩ := followed
    rw [← following_circle hf]
    simp only
    cases resolveRoutePoints env.resources route.href with
    | error e => exact (following_circle hf).symm
    | ok points =>
      simp only
      split_ifs
      · exact (following_circle hf).symm
      · rfl

theorem pointedAt_circle (m : CourseManager) (env : Surroundings) (index : UInt64) :
    (m.pointedAt env index).state.map CourseState.arrivalCircle =
      m.state.map CourseState.arrivalCircle := by
  unfold pointedAt
  cases hf : m.following with
  | error e => rfl
  | ok followed =>
    obtain ⟨course, route⟩ := followed
    rw [← following_circle hf]
    simp only
    cases resolveRoutePoints env.resources route.href with
    | error e => exact (following_circle hf).symm
    | ok points =>
      simp only
      split_ifs
      · exact (following_circle hf).symm
      · rfl

theorem reversed_circle (m : CourseManager) (env : Surroundings) :
    (m.reversed env).state.map CourseState.arrivalCircle =
      m.state.map CourseState.arrivalCircle := by
  unfold reversed
  cases hf : m.following with
  | error e => rfl
  | ok followed =>
    obtain ⟨course, route⟩ := followed
    rw [← following_circle hf]
    simp only
    cases resolveRoutePoints env.resources route.href with
    | error e => rfl
    | ok points => rfl

theorem timed_circle (m : CourseManager) (time : Option String) :
    (m.timed time).state.map CourseState.arrivalCircle =
      m.state.map CourseState.arrivalCircle := by
  unfold timed
  cases hs : m.state <;> simp [unchanged, changed, hs]

theorem circled_circle (m : CourseManager) (radius : ℚ) :
    (m.circled radius).state.map CourseState.arrivalCircle = m.state.map fun _ => radius := by
  unfold circled
  cases hs : m.state <;> rfl

/-- A course that is active has the circle that was set last. -/
def CircleSurvives (c : Circled) : Prop :=
  ∀ radius, c.recent = some radius → ∀ course, c.manager.state = some course →
    course.arrivalCircle = radius

/-- So has the configuration. -/
def CircleConfigured (c : Circled) : Prop :=
  ∀ radius, c.recent = some radius → c.manager.config.arrivalCircle = radius

/-- What the circles have to be for the one that was set last to have survived. -/
theorem survives_iff (c : Circled) :
    CircleSurvives c ↔ ∀ radius, c.recent = some radius →
      ∀ circle ∈ c.manager.circles.1, circle = radius := by
  simp only [CircleSurvives, circles, Option.mem_def, Option.map_eq_some_iff]
  constructor
  · rintro h radius hr circle ⟨course, hs, rfl⟩
    exact h radius hr course hs
  · intro h radius hr course hs
    exact h radius hr _ ⟨course, hs, rfl⟩

section
variable {c c' : Circled}

/-- Nothing is lost where neither a circle nor the radius that was set last has changed. -/
theorem survives_congr (hcircles : c'.manager.circles = c.manager.circles)
    (hrecent : c'.recent = c.recent) (hs : CircleSurvives c) : CircleSurvives c' := by
  rw [survives_iff] at hs ⊢
  rwa [hcircles, hrecent]

theorem configured_congr (hcircle : c'.manager.circles.2 = c.manager.circles.2)
    (hrecent : c'.recent = c.recent) (hc : CircleConfigured c) : CircleConfigured c' := by
  intro radius hr
  rw [hrecent] at hr
  exact hcircle.trans (hc radius hr)

theorem survives_of_none (h : c'.manager.circles.1 = none) : CircleSurvives c' := by
  rw [survives_iff, h]
  exact fun radius hr circle hcircle => nomatch hcircle

/-- A course that takes its circle from the one before: there must be one. -/
theorem kept_survives_iff (h : c'.manager.circles.1 = some c.manager.keptCircle)
    (hrecent : c'.recent = c.recent) (hs : CircleSurvives c) :
    CircleSurvives c' ↔ ∀ radius, c.recent = some radius → c.manager.state = none → radius = 0 := by
  have hafter : CircleSurvives c' ↔
      ∀ radius, c.recent = some radius → c.manager.keptCircle = radius := by
    rw [survives_iff, h, hrecent]
    simp
  rw [hafter]
  refine forall_congr' fun radius => imp_congr_right fun hr => ?_
  unfold keptCircle
  cases hstate : c.manager.state with
  | none => simp [eq_comm]
  | some course =>
    have hkept := hs radius hr course hstate
    simp [hkept]

end

/-- A destination or a route that is set from no course has no circle, and a circle that
could not be saved stands all the same. -/
def KeepsCircle (c : Circled) : CourseActivity → Prop
  | .attempt (.op env disk (.setDestination req)) =>
    ∀ radius, c.recent = some radius → c.manager.state = none → disk.Saves →
      ∀ position, destinationPosition env req = .ok position → radius = 0
  | .attempt (.op env disk (.setActiveRoute req)) =>
    ∀ radius, c.recent = some radius → c.manager.state = none → disk.Saves →
      ∀ points, resolveRoutePoints env.resources req.href = .ok points → radius = 0
  | .attempt (.op _ disk (.setArrivalCircle new)) =>
    ∀ radius, c.recent = some radius → c.manager.state ≠ none → ¬ disk.Saves → new = radius
  | _ => True

variable [JsonText] [Geodesy]

/-- A change in place, by what it makes of the circle of the course. -/
theorem revised_circles {m : CourseManager} (env : Surroundings) {op : CourseOp}
    {f : CourseManager → Revision}
    (h : CourseThread.ofOp env Disk.working op = CourseThread.revise env Disk.working f fun _ => [])
    (hf : (f m).state.map CourseState.arrivalCircle = m.state.map CourseState.arrivalCircle) :
    (m.apply env op).manager.circles = m.circles := by
  rw [circles_of_memory_eq (m.revised_memory env h), hf]
  rfl

/-- The radius that an operation has set, if it returned without an error. -/
def circleSet (m : CourseManager) (env : Surroundings) (disk : Disk) : CourseOp → Option ℚ
  | .setArrivalCircle radius =>
    if (m.attempt env disk (.setArrivalCircle radius)).result = .ok () then some radius else none
  | _ => none

def circledStep (c : Circled) (a : CourseActivity) : Circled × List Delta :=
  let out := c.manager.activityStep a
  match a with
  | .attempt (.op env disk op) => (⟨out.1, (c.manager.circleSet env disk op).or c.recent⟩, out.2)
  | _ => (⟨out.1, c.recent⟩, out.2)

/-- What an operation that works makes of them. -/
def circlesAfter (m : CourseManager) (env : Surroundings) : CourseOp → Option ℚ × ℚ
  | .setDestination req =>
    match destinationPosition env req with
    | .ok _ => (some m.keptCircle, m.config.arrivalCircle)
    | .error _ => m.circles
  | .setActiveRoute req =>
    match resolveRoutePoints env.resources req.href with
    | .ok _ => (some m.keptCircle, m.config.arrivalCircle)
    | .error _ => m.circles
  | .setArrivalCircle radius => (m.state.map fun _ => radius, radius)
  | .clear => (none, m.config.arrivalCircle)
  | .nmeaPosition _ =>
    if m.config.apiOnly then m.circles else (some m.config.arrivalCircle, m.config.arrivalCircle)
  | .enableApiOnly => if m.source = .nmea then (none, m.config.arrivalCircle) else m.circles
  | _ => m.circles

attribute [local simp] circlesAfter circledStep KeepsCircle circleSet

theorem apply_circles (m : CourseManager) (env : Surroundings) (op : CourseOp) :
    (m.apply env op).manager.circles = m.circlesAfter env op := by
  cases op with
  | setDestination req =>
    simp only [apply, setDestination, circlesAfter]
    cases destinationPosition env req with
    | error e => rfl
    | ok position => exact circles_of_memory_eq (replace_memory m env _ .api)
  | setActiveRoute req =>
    simp only [apply, setActiveRoute, circlesAfter]
    cases hr : resolveRoutePoints env.resources req.href with
    | error e => rfl
    | ok routePoints =>
      simp only
      cases hp : directed req.reverse routePoints with
      | nil =>
        have hlen := directed_length req.reverse routePoints
        rw [hp] at hlen
        exact absurd (List.length_eq_zero_iff.mp hlen.symm) (resolveRoutePoints_ne_nil hr)
      | cons first rest => exact circles_of_memory_eq (replace_memory m env _ .api)
  | advanceNextPoint delta => exact revised_circles env rfl (m.advanced_circle env delta)
  | setPointIndex index => exact revised_circles env rfl (m.pointedAt_circle env index)
  | reverseRoute => exact revised_circles env rfl (m.reversed_circle env)
  | setTargetArrivalTime time => exact revised_circles env rfl (m.timed_circle time)
  | setArrivalCircle radius =>
    rw [circles_of_memory_eq (m.setArrivalCircle_memory env radius), circled_circle]
    rfl
  | clear => rfl
  | nmeaPosition position =>
    simp only [apply, applyNmeaPosition, circlesAfter]
    split_ifs
    · rfl
    · exact circles_of_memory_eq (replace_memory m env _ .nmea)
  | enableApiOnly =>
    simp only [apply, enableApiOnly, circlesAfter]
    split_ifs <;> rfl
  | disableApiOnly => rfl

theorem attempt_circles (m : CourseManager) (env : Surroundings) (disk : Disk) (op : CourseOp) :
    (op.creates = false ∨ disk.Saves →
      (m.attempt env disk op).manager.circles = m.circlesAfter env op) ∧
    (op.creates = true ∧ ¬ disk.Saves → (m.attempt env disk op).manager.circles = m.circles) := by
  obtain ⟨hdone, hlost⟩ := m.attempt_memory env disk op
  refine ⟨fun h => ?_, fun h => circles_of_memory (hlost h)⟩
  rw [← apply_circles]
  exact circles_of_memory (hdone h)

theorem tick_circles (m : CourseManager) (env : Surroundings) (disk : Disk) :
    (m.activityStep (.tick env disk)).1.circles = m.circles := by
  cases m.tick_memory env disk with
  | inl h => exact circles_of_memory h
  | inr h =>
    rw [circles_of_memory_eq h, advanced_circle]
    rfl

/-- Setting the circle fails when there is a course that cannot be saved. -/
theorem setArrivalCircle_ok_iff (m : CourseManager) (env : Surroundings) (disk : Disk)
    (radius : ℚ) :
    (m.attempt env disk (.setArrivalCircle radius)).result = .ok () ↔
      m.state = none ∨ disk.Saves := by
  let t := (⟨m, {}⟩ : Tracked).setConfig ({ · with arrivalCircle := radius })
  cases hs : m.state with
  | none =>
    have hsaved : (circled radius t.manager).saved = .ok none := by
      have ht : t.manager.state = none := hs
      simp only [circled, ht]
    refine iff_of_true ?_ (.inl rfl)
    show ((CourseThread.revise env disk (circled radius) fun _ => []).alone t).2 = .ok ()
    simp only [CourseThread.revise, Thread.alone, hsaved]
  | some course =>
    have hsaved : (circled radius t.manager).saved =
        .ok (some { course with arrivalCircle := radius }) := by
      have ht : t.manager.state = some course := hs
      simp only [circled, ht]
      rfl
    rw [or_iff_right (by simp)]
    exact CourseThread.revise_ok_iff env disk (fun _ => []) hsaved

theorem circleSet_eq_none {op : CourseOp} (m : CourseManager) (env : Surroundings) (disk : Disk)
    (h : ∀ radius, op ≠ .setArrivalCircle radius) : m.circleSet env disk op = none := by
  cases op with
  | setArrivalCircle radius => exact absurd rfl (h radius)
  | _ => rfl

/-- Only setting the circle changes the one of the configuration. -/
theorem attempt_config (m : CourseManager) (env : Surroundings) (disk : Disk) {op : CourseOp}
    (h : ∀ radius, op ≠ .setArrivalCircle radius) :
    (m.attempt env disk op).manager.circles.2 = m.circles.2 := by
  obtain ⟨hdone, hlost⟩ := m.attempt_circles env disk op
  by_cases hcond : op.creates = false ∨ disk.Saves
  · rw [hdone hcond]
    cases op with
    | setArrivalCircle radius => exact absurd rfl (h radius)
    | setDestination req =>
      simp only [circlesAfter]
      cases destinationPosition env req <;> rfl
    | setActiveRoute req =>
      simp only [circlesAfter]
      cases resolveRoutePoints env.resources req.href <;> rfl
    | nmeaPosition position =>
      simp only [circlesAfter]
      split_ifs <;> rfl
    | enableApiOnly =>
      simp only [circlesAfter]
      split_ifs <;> rfl
    | _ => rfl
  · rw [hlost ⟨by simpa using fun hf => hcond (.inl hf), fun hd => hcond (.inr hd)⟩]

theorem attempt_configured {c : Circled} (env : Surroundings) (disk : Disk) {op : CourseOp}
    (h : ∀ radius, op ≠ .setArrivalCircle radius) (hc : CircleConfigured c) :
    CircleConfigured (circledStep c (.attempt (.op env disk op))).1 := by
  refine configured_congr (attempt_config c.manager env disk h) ?_ hc
  simp only [circledStep, circleSet_eq_none c.manager env disk h, Option.none_or]

theorem step_configured {c : Circled} (a : CourseActivity) (hc : CircleConfigured c)
    (hs : CircleSurvives (circledStep c a).1) : CircleConfigured (circledStep c a).1 := by
  cases a with
  | tick env disk => exact configured_congr (congrArg Prod.snd (tick_circles c.manager env disk)) rfl hc
  | attempt a =>
    cases a with
    | store e => exact configured_congr rfl rfl hc
    | op env disk op =>
      cases op with
      | setArrivalCircle radius =>
        have hcircles := (c.manager.attempt_circles env disk (.setArrivalCircle radius)).1 (.inl rfl)
        intro recent hr
        refine (congrArg Prod.snd hcircles).trans ?_
        by_cases hok : (c.manager.attempt env disk (.setArrivalCircle radius)).result = .ok ()
        · have hset : some radius = some recent := by
            rw [← hr]
            simp only [circledStep, circleSet, if_pos hok, Option.some_or]
          exact Option.some.inj hset
        · -- the circle could not be saved, so there is a course that has it now
          rw [setArrivalCircle_ok_iff, not_or] at hok
          obtain ⟨course, hstate⟩ := Option.ne_none_iff_exists'.mp hok.1
          refine (survives_iff _).mp hs recent hr radius ?_
          refine (congrArg Prod.fst hcircles).trans ?_
          simp only [circlesAfter, hstate, Option.map_some]
      | _ => exact attempt_configured env disk (fun _ h => nomatch h) hc

section
variable {c : Circled} (env : Surroundings) (disk : Disk) {op : CourseOp}

theorem attempt_recent (h : ∀ radius, op ≠ .setArrivalCircle radius) :
    (circledStep c (.attempt (.op env disk op))).1.recent = c.recent := by
  simp only [circledStep, circleSet_eq_none c.manager env disk h, Option.none_or]

theorem attempt_survives (h : ∀ radius, op ≠ .setArrivalCircle radius)
    (hsame : (c.manager.attempt env disk op).manager.circles = c.manager.circles)
    (hs : CircleSurvives c) : CircleSurvives (circledStep c (.attempt (.op env disk op))).1 :=
  survives_congr hsame (attempt_recent env disk h) hs

/-- Nothing is set at all when what would be set cannot be saved. -/
theorem unsaved_survives (h : ∀ radius, op ≠ .setArrivalCircle radius) (hcreates : op.creates = true)
    (hd : ¬ disk.Saves) (hs : CircleSurvives c) :
    CircleSurvives (circledStep c (.attempt (.op env disk op))).1 :=
  attempt_survives env disk h ((c.manager.attempt_circles env disk op).2 ⟨hcreates, hd⟩) hs

/-- An operation that makes a new course, but cannot. -/
theorem refused_survives (h : ∀ radius, op ≠ .setArrivalCircle radius) (hcreates : op.creates = true)
    (hafter : c.manager.circlesAfter env op = c.manager.circles) (hs : CircleSurvives c) :
    CircleSurvives (circledStep c (.attempt (.op env disk op))).1 := by
  by_cases hd : disk.Saves
  · have hsame := (c.manager.attempt_circles env disk op).1 (.inr hd)
    exact attempt_survives env disk h (hsame.trans hafter) hs
  · exact unsaved_survives env disk h hcreates hd hs

theorem creation_survives_iff (h : ∀ radius, op ≠ .setArrivalCircle radius)
    (hcreates : op.creates = true)
    (hafter : c.manager.circlesAfter env op =
      (some c.manager.keptCircle, c.manager.config.arrivalCircle)) (hs : CircleSurvives c) :
    CircleSurvives (circledStep c (.attempt (.op env disk op))).1 ↔
      ∀ radius, c.recent = some radius → c.manager.state = none → disk.Saves → radius = 0 := by
  by_cases hd : disk.Saves
  · have hnew := ((c.manager.attempt_circles env disk op).1 (.inr hd)).trans hafter
    have hcircle : (circledStep c (.attempt (.op env disk op))).1.manager.circles.1 =
        some c.manager.keptCircle := congrArg Prod.fst hnew
    have hkept := kept_survives_iff hcircle (attempt_recent env disk h) hs
    simpa only [hd, true_imp_iff] using hkept
  · refine iff_of_true (unsaved_survives env disk h hcreates hd hs) ?_
    exact fun radius hr hstate hsaves => absurd hsaves hd

end

theorem nmea_survives {c : Circled} (env : Surroundings) (disk : Disk) (position : Position)
    (hc : CircleConfigured c) (hs : CircleSurvives c) :
    CircleSurvives (circledStep c (.attempt (.op env disk (.nmeaPosition position)))).1 := by
  by_cases hapi : c.manager.config.apiOnly
  · refine refused_survives env disk (fun _ h => nomatch h) rfl ?_ hs
    simp only [circlesAfter, if_pos hapi]
  · by_cases hd : disk.Saves
    · -- the course takes its circle from the configuration
      have hafter := (c.manager.attempt_circles env disk (.nmeaPosition position)).1 (.inr hd)
      simp only [circlesAfter, if_neg hapi] at hafter
      refine (survives_iff _).mpr fun radius hr circle hcircle => ?_
      have hnew : some c.manager.config.arrivalCircle = some circle :=
        (congrArg Prod.fst hafter).symm.trans hcircle
      rw [← Option.some.inj hnew]
      exact hc radius hr
    · exact unsaved_survives env disk (fun _ h => nomatch h) rfl hd hs

/-- A circle that is set without success stands in the course all the same. -/
theorem setArrivalCircle_survives_iff {c : Circled} (env : Surroundings) (disk : Disk)
    (new : ℚ) :
    CircleSurvives (circledStep c (.attempt (.op env disk (.setArrivalCircle new)))).1 ↔
      ∀ radius, c.recent = some radius → c.manager.state ≠ none → ¬ disk.Saves → new = radius := by
  have hafter := congrArg Prod.fst ((c.manager.attempt_circles env disk (.setArrivalCircle new)).1
    (.inl rfl))
  simp only [circlesAfter] at hafter
  by_cases hok : (c.manager.attempt env disk (.setArrivalCircle new)).result = .ok ()
  · have hset : (circledStep c (.attempt (.op env disk (.setArrivalCircle new)))).1.recent =
        some new := by
      simp only [circledStep, circleSet, if_pos hok, Option.some_or]
    rw [setArrivalCircle_ok_iff] at hok
    refine iff_of_true ?_ fun radius hr hstate hd => absurd hok (not_or.mpr ⟨hstate, hd⟩)
    refine (survives_iff _).mpr fun radius hr circle hcircle => ?_
    have hnew : radius = new := Option.some.inj (hr.symm.trans hset)
    obtain ⟨course, hcourse, hradius⟩ := Option.map_eq_some_iff.mp (hafter.symm.trans hcircle)
    rw [hnew, hradius]
  · have hkept : (circledStep c (.attempt (.op env disk (.setArrivalCircle new)))).1.recent =
        c.recent := by
      simp only [circledStep, circleSet, if_neg hok, Option.none_or]
    rw [setArrivalCircle_ok_iff, not_or] at hok
    obtain ⟨hstate, hd⟩ := hok
    obtain ⟨course, hcourse⟩ := Option.ne_none_iff_exists'.mp hstate
    rw [hcourse, Option.map_some] at hafter
    have hcircle : (circledStep c (.attempt (.op env disk
        (.setArrivalCircle new)))).1.manager.circles.1 = some new := hafter
    rw [survives_iff, hcircle, hkept]
    simp [hstate, hd]

/-- The circle that was set last survives an operation exactly when the operation meets the
condition. -/
theorem step_survives_iff {c : Circled} (a : CourseActivity) (hc : CircleConfigured c)
    (hs : CircleSurvives c) : CircleSurvives (circledStep c a).1 ↔ KeepsCircle c a := by
  cases a with
  | tick env disk =>
    exact iff_of_true (survives_congr (c := c) (tick_circles c.manager env disk) rfl hs) trivial
  | attempt a =>
    cases a with
    | store e => exact iff_of_true (survives_congr (c := c) rfl rfl hs) trivial
    | op env disk op =>
      have hdone := (c.manager.attempt_circles env disk op).1
      cases op with
      | setDestination req =>
        cases hp : destinationPosition env req with
        | error e =>
          have hafter : c.manager.circlesAfter env (.setDestination req) = c.manager.circles := by
            simp only [circlesAfter, hp]
          refine iff_of_true (refused_survives env disk (by simp) rfl hafter hs) ?_
          intro radius hr hstate hd position hposition
          rw [hp] at hposition
          cases hposition
        | ok position =>
          refine (creation_survives_iff env disk (by simp) rfl ?_ hs).trans ?_
          · simp only [circlesAfter, hp]
          · simp [KeepsCircle, hp]
      | setActiveRoute req =>
        cases hp : resolveRoutePoints env.resources req.href with
        | error e =>
          have hafter : c.manager.circlesAfter env (.setActiveRoute req) = c.manager.circles := by
            simp only [circlesAfter, hp]
          refine iff_of_true (refused_survives env disk (by simp) rfl hafter hs) ?_
          intro radius hr hstate hd points hpoints
          rw [hp] at hpoints
          cases hpoints
        | ok points =>
          refine (creation_survives_iff env disk (by simp) rfl ?_ hs).trans ?_
          · simp only [circlesAfter, hp]
          · simp [KeepsCircle, hp]
      | nmeaPosition position =>
        exact iff_of_true (nmea_survives env disk position hc hs) trivial
      | setArrivalCircle radius => exact setArrivalCircle_survives_iff env disk radius
      | clear => exact iff_of_true (survives_of_none (congrArg Prod.fst (hdone (.inl rfl)))) trivial
      | enableApiOnly =>
        refine iff_of_true ?_ trivial
        have hafter := hdone (.inl rfl)
        by_cases hsource : c.manager.source = .nmea
        · simp only [circlesAfter, if_pos hsource] at hafter
          exact survives_of_none (congrArg Prod.fst hafter)
        · simp only [circlesAfter, if_neg hsource] at hafter
          exact attempt_survives env disk (fun _ h => nomatch h) hafter hs
      | _ =>
        refine iff_of_true ?_ trivial
        exact attempt_survives env disk (fun _ h => nomatch h) (hdone (.inl rfl)) hs

theorem circled_manager (c : Circled) (activities : List CourseActivity) :
    (Machine.run circledStep c activities).manager =
      Machine.run activityStep c.manager activities := by
  induction activities generalizing c with
  | nil => rfl
  | cons a activities ih =>
    have hstep : (circledStep c a).1.manager = (c.manager.activityStep a).1 := by
      unfold circledStep
      split <;> rfl
    have hrun := ih (circledStep c a).1
    rw [hstep] at hrun
    exact hrun

/-- Every course has the circle that was set last, all along a run, exactly when each
activity meets the condition on what it finds. -/
theorem circle_survives_iff (m : CourseManager) (activities : List CourseActivity) :
    (∀ as, as <+: activities → CircleSurvives (Machine.run circledStep ⟨m, none⟩ as)) ↔
      Machine.Meets circledStep KeepsCircle ⟨m, none⟩ activities := by
  have hinv : ∀ c a, CircleConfigured c → True → CircleSurvives c →
      CircleSurvives (circledStep c a).1 → CircleConfigured (circledStep c a).1 :=
    fun c a hc _ _ hs => step_configured a hc hs
  have hgood : ∀ c a, CircleConfigured c → True → CircleSurvives c →
      (CircleSurvives (circledStep c a).1 ↔ KeepsCircle c a) :=
    fun c a hc _ hs => step_survives_iff a hc hs
  have hnone : ∀ radius, (⟨m, none⟩ : Circled).recent = some radius → False :=
    fun radius hr => nomatch hr
  exact Machine.always_iff_meets hinv hgood (fun radius hr => (hnone radius hr).elim)
    (fun radius hr => (hnone radius hr).elim) fun _ _ => trivial

end CourseManager

section
local instance : JsonText := JsonText.unused
local instance : Geodesy := Geodesy.unused

/-- A circle of 100 m is set, then a destination: its course has none. -/
theorem destination_forgets_circle :
    let c := Machine.run CourseManager.circledStep
      ⟨CourseManager.new (SignalKStore.new "urn:mrn:signalk:uuid:test"), none⟩
      [.attempt (.op emptyHanded Disk.working (.setArrivalCircle 100)),
        .attempt (.op emptyHanded Disk.working
          (.setDestination ⟨some ⟨48, -123, none⟩, none⟩))]
    c.recent = some 100 ∧ c.manager.state.map CourseState.arrivalCircle = some 0 ∧
      ¬ CourseManager.CircleSurvives c := by
  intro c
  have hrecent : c.recent = some 100 := by decide +kernel
  have hcircle : c.manager.state.map CourseState.arrivalCircle = some 0 := by decide +kernel
  refine ⟨hrecent, hcircle, fun hs => ?_⟩
  have hzero := (CourseManager.survives_iff c).mp hs 100 hrecent 0 hcircle
  exact absurd hzero (by decide)

end
end SignalK

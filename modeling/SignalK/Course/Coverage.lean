import SignalK.Course.Agreement
import SignalK.Lib.Machine

/-! Runs of the course manager. Each operation agrees under a condition on what it
finds: it drops no field of the course before it, it turns no route that does not
resolve, and it saves only numbers that read back. -/
namespace SignalK.CourseManager

/-- A course that starts now has no target time; it has a previous point when the
vessel's position is known. -/
def NoRemnant (m : CourseManager) : Prop :=
  ∀ old, m.state = some old →
    old.targetArrivalTime = none ∧
      (m.store.currentVesselPosition = none → old.previousPoint = none)

def NoRoute (m : CourseManager) : Prop :=
  ∀ old, m.state = some old → old.activeRoute = none

/-- The numbers of a new course read back. -/
def Rereads [FloatText] (m : CourseManager) (position : Position) : Prop :=
  position.reread = position ∧
    m.store.currentVesselPosition.map Position.reread = m.store.currentVesselPosition

/-- The point that a move along the route heads for. -/
def routePoint (m : CourseManager) (env : Surroundings) (turned : Bool) (index : Nat) :
    Option Position :=
  match m.following with
  | .error _ => none
  | .ok (_, route) =>
    match resolveRoutePoints env.resources route.href with
    | .error _ => none
    | .ok points => (directed (turned != route.reverse) points)[index]?

/-- When an operation leaves nothing behind and saves only numbers that read back. -/
def Covered [FloatText] (m : CourseManager) (env : Surroundings) : CourseOp → Prop
  | .setDestination req =>
    ∀ position, destinationPosition env req = .ok position →
      m.Rereads position ∧ m.NoRemnant ∧ m.NoRoute
  | .setActiveRoute req =>
    ∀ points, resolveRoutePoints env.resources req.href = .ok points →
      ∀ first, (directed req.reverse points).head? = some first → m.Rereads first ∧ m.NoRemnant
  | .advanceNextPoint delta =>
    ∀ course route, m.following = .ok (course, route) →
      let newIndex := route.pointIndex.toInt64 + delta.toInt64
      0 ≤ newIndex → ∀ position, m.routePoint env false newIndex.toUInt64.toNat = some position →
        position.reread = position
  | .setPointIndex index =>
    ∀ position, m.routePoint env false index.toNat = some position → position.reread = position
  | .reverseRoute =>
    ∀ course route, m.following = .ok (course, route) →
      ∃ position, m.routePoint env true 0 = some position ∧ position.reread = position
  | .setTargetArrivalTime time =>
    ∀ course, m.state = some course → time = none → course.targetArrivalTime = none
  | .setArrivalCircle radius =>
    ∀ course, m.state = some course →
      FloatText.reparse radius = radius ∧ (radius ≤ 0 → course.arrivalCircle ≤ 0)
  | .nmeaPosition position =>
    m.config.apiOnly = false →
      m.Rereads position ∧ FloatText.reparse m.config.arrivalCircle = m.config.arrivalCircle ∧
        m.NoRemnant ∧ m.NoRoute ∧
        ∀ old, m.state = some old → m.config.arrivalCircle ≤ 0 → old.arrivalCircle ≤ 0
  | .clear | .enableApiOnly | .disableApiOnly => True

theorem keptCircle_covers (m : CourseManager) :
    ∀ old, m.state = some old → m.keptCircle ≤ 0 → old.arrivalCircle ≤ 0 := by
  intro old ho
  simp [keptCircle, ho]

theorem following_eq_ok {m : CourseManager} {course : CourseState} {route : ActiveRoute} :
    m.following = .ok (course, route) ↔
      m.state = some course ∧ course.activeRoute = some route := by
  cases hs : m.state with
  | none => simp [following, hs]
  | some s =>
    cases hr : s.activeRoute with
    | none =>
      simp only [following, hs, hr]
      refine iff_of_false (fun h => by cases h) fun h => ?_
      obtain ⟨rfl, hroute⟩ := And.imp_left Option.some.inj h
      rw [hr] at hroute
      cases hroute
    | some r =>
      simp only [following, hs, hr, Except.ok.injEq, Prod.mk.injEq, Option.some.injEq]
      refine and_congr_right fun he => ?_
      rw [← he, hr, Option.some.injEq]

/-- A point of the route that a move heads for, once the course and its points are known. -/
theorem routePoint_eq {m : CourseManager} {env : Surroundings} {course : CourseState}
    {route : ActiveRoute} {points : List Position} (hf : m.following = .ok (course, route))
    (hp : resolveRoutePoints env.resources route.href = .ok points) (turned : Bool) (index : Nat) :
    m.routePoint env turned index = (directed (turned != route.reverse) points)[index]? := by
  simp [routePoint, hf, hp]

theorem directed_length (reverse : Bool) (points : List Position) :
    (directed reverse points).length = points.length := by
  cases reverse <;> simp [directed]

section
variable [FloatText]

theorem map_ofVessel_reread (position : Option Position) :
    (position.map CoursePoint.ofVessel).map CoursePoint.reread = position.map CoursePoint.ofVessel ↔
      position.map Position.reread = position := by
  cases position <;> simp [CoursePoint.ofVessel, CoursePoint.reread]

theorem keptCircle_reread {m : CourseManager} (hm : Sound m) :
    FloatText.reparse m.keptCircle = m.keptCircle := by
  cases hs : m.state with
  | none => simpa [keptCircle, hs] using FloatText.reparse_zero
  | some course =>
    simpa [keptCircle, hs] using ((CourseState.reread_eq_iff course).mp (hm.rereads course hs)).1

/-- What a course that starts now must meet to replace the one before it. -/
theorem newCourse_iff (m : CourseManager) (now : String) (circle : ℚ) (route : Option ActiveRoute)
    (next : CoursePoint) (s : CourseState)
    (hs : s = {
      startTime := some now
      targetArrivalTime := none
      arrivalCircle := circle
      activeRoute := route
      nextPoint := some next
      previousPoint := m.store.currentVesselPosition.map CoursePoint.ofVessel }) :
    (s.reread = s ∧ ∀ old, m.state = some old → s.Covers old) ↔
      (FloatText.reparse circle = circle ∧ route.map ActiveRoute.reread = route ∧
        m.Rereads next.position) ∧
      m.NoRemnant ∧ (route = none → m.NoRoute) ∧
        ∀ old, m.state = some old → circle ≤ 0 → old.arrivalCircle ≤ 0 := by
  have hnext : next.reread = next ↔ next.position.reread = next.position := by
    cases next
    simp [CoursePoint.reread]
  refine and_congr ?_ ?_
  · rw [CourseState.reread_eq_iff, hs]
    simp only [Option.map_some, Option.some.injEq, hnext, map_ofVessel_reread, Rereads]
  · subst hs
    constructor
    · intro h
      refine ⟨fun old ho => ⟨(h old ho).targetArrivalTime rfl, fun hv => ?_⟩,
        fun hr old ho => (h old ho).activeRoute hr, fun old ho => (h old ho).arrivalCircle⟩
      exact (h old ho).previousPoint (by rw [hv, Option.map_none])
    · intro h old ho
      obtain ⟨hrem, hroute, hcircle⟩ := h
      refine ⟨by simp, fun hp => ?_, fun hr => hroute hr old ho, by simp, fun _ => (hrem old ho).1,
        hcircle old ho⟩
      exact (hrem old ho).2 (Option.map_eq_none_iff.mp hp)

/-- A move along the route keeps every field of the course. -/
theorem move_iff {m : CourseManager} (hm : Sound m) {course : CourseState} {route : ActiveRoute}
    (hs : m.state = some course) (hr : course.activeRoute = some route) (next : Position)
    (route' : ActiveRoute) (hw : route'.waypoints = route.waypoints) (s : CourseState)
    (hdef : s = { course with
      activeRoute := some route'
      nextPoint := some (CoursePoint.onRoute next)
      previousPoint := course.nextPoint }) :
    (s.reread = s ∧ ∀ old, m.state = some old → s.Covers old) ↔ next.reread = next := by
  obtain ⟨hcircle, hroute, hnext, -⟩ :=
    (CourseState.reread_eq_iff course).mp (hm.rereads course hs)
  have hroute' : route'.reread = route' := by
    have hway : route.waypoints.map (·.map Position.reread) = route.waypoints := by
      rw [hr] at hroute
      exact congrArg ActiveRoute.waypoints (Option.some.inj hroute)
    rw [ActiveRoute.reread, hw, hway, ← hw]
  have hcov : ∀ old, m.state = some old → s.Covers old := by
    intro old ho
    obtain rfl := Option.some.inj (hs.symm.trans ho)
    subst hdef
    refine ⟨by simp, fun hn => absurd hn (hm.heading course hs), by simp, id, id, id⟩
  rw [and_iff_left hcov, CourseState.reread_eq_iff, hdef]
  simp [hcircle, hroute', hnext, CoursePoint.onRoute, CoursePoint.reread]

variable [Geodesy]

/-- A route that does not resolve is turned in memory alone. -/
theorem reverseRoute_failed {m : CourseManager} (env : Surroundings)
    {course : CourseState} {route : ActiveRoute} (hf : m.following = .ok (course, route))
    (e : PluginError) :
    Verdict m env ({ m with state := some { course with
      activeRoute := some { route with reverse := !route.reverse } } }.fail e) False := by
  obtain ⟨hs, hr⟩ := following_eq_ok.mp hf
  have hdis : Agrees m → ¬ Agrees { m with state := some { course with
      activeRoute := some { route with reverse := !route.reverse } } } := by
    intro ha ha'
    have hfile := ha.file.symm.trans ha'.file
    rw [hs] at hfile
    have hcourse := Option.some.inj (Option.some.inj hfile)
    have hroute := congrArg CourseState.activeRoute hcourse
    rw [hr] at hroute
    have hrev := congrArg ActiveRoute.reverse (Option.some.inj hroute)
    simp at hrev
  exact ⟨rfl, fun ha ha' => absurd ha' (hdis ha), fun ha => iff_false_intro (hdis ha),
    fun h => absurd rfl h⟩

variable [JsonText]

theorem clear_verdict {m : CourseManager} (env : Surroundings) (hm : Sound m) :
    Verdict m env (m.clear env) True :=
  verdict_cleared rfl rfl
    (SignalKStore.applyDelta_overlaid env.clock env.timestamp hm.owned clearValues_carries)

theorem enableApiOnly_verdict {m : CourseManager} (env : Surroundings) (hm : Sound m) :
    Verdict m env (m.enableApiOnly env) True := by
  by_cases hs : m.source = .nmea
  · simp only [enableApiOnly, hs, if_true]
    exact verdict_cleared rfl rfl
      (SignalKStore.applyDelta_overlaid env.clock env.timestamp hm.owned clearValues_carries)
  · simp only [enableApiOnly, hs, if_false]
    exact verdict_same env hm _ rfl rfl rfl

theorem setTargetArrivalTime_verdict {m : CourseManager} (env : Surroundings) (hm : Sound m)
    (time : Option String) :
    Verdict m env (m.setTargetArrivalTime env time)
      (Covered m env (.setTargetArrivalTime time)) := by
  cases hs : m.state with
  | none =>
    simp only [setTargetArrivalTime, hs]
    exact (verdict_same env hm _ rfl rfl rfl).congr (by simp [Covered, hs])
  | some course =>
    simp only [setTargetArrivalTime, hs]
    refine (verdict_saved (update_saved env _ hm.owned) ?_).congr ?_
    · exact hm.heading course hs
    · have hr := (CourseState.reread_eq_iff course).mp (hm.rereads course hs)
      simp [CourseState.reread_eq_iff, CourseState.covers_iff, hr, Covered, hs]

theorem setArrivalCircle_verdict {m : CourseManager} (env : Surroundings) (hm : Sound m)
    (radius : ℚ) :
    Verdict m env (m.setArrivalCircle env radius) (Covered m env (.setArrivalCircle radius)) := by
  cases hs : m.state with
  | none =>
    have hsame : Verdict m env
        { m with config := { m.config with arrivalCircle := radius } }.done True :=
      verdict_same env hm (.ok ()) rfl rfl rfl
    simp only [setArrivalCircle, hs] at hsame ⊢
    exact hsame.congr (by simp [Covered, hs])
  | some course =>
    have hsave := update_saved (m := { m with config := { m.config with arrivalCircle := radius } })
      env { course with arrivalCircle := radius } hm.owned
    simp only [setArrivalCircle, hs] at hsave ⊢
    refine (verdict_saved (m := m) ⟨hsave.state, hsave.file, hsave.store⟩ ?_).congr ?_
    · exact hm.heading course hs
    · have hr := (CourseState.reread_eq_iff course).mp (hm.rereads course hs)
      simp [CourseState.reread_eq_iff, CourseState.covers_iff, hr, Covered, hs]

theorem setDestination_verdict {m : CourseManager} (env : Surroundings) (hm : Sound m)
    (req : DestinationRequest) :
    Verdict m env (m.setDestination env req) (Covered m env (.setDestination req)) := by
  cases hp : destinationPosition env req with
  | error e =>
    simp only [setDestination, hp]
    exact (verdict_same env hm _ rfl rfl rfl).congr (by simp [Covered, hp])
  | ok position =>
    simp only [setDestination, hp]
    refine (verdict_saved (replace_saved env _ _ hm.owned) (by simp)).congr ?_
    rw [newCourse_iff m env.now m.keptCircle none ⟨.location, position, req.href⟩ _ rfl]
    simp [Covered, hp, keptCircle_reread hm, iff_true_intro m.keptCircle_covers]

theorem applyNmeaPosition_verdict {m : CourseManager} (env : Surroundings) (hm : Sound m)
    (position : Position) :
    Verdict m env (m.applyNmeaPosition env position) (Covered m env (.nmeaPosition position)) := by
  cases hapi : m.config.apiOnly with
  | true =>
    simp only [applyNmeaPosition, hapi, if_true]
    exact (verdict_same env hm _ rfl rfl rfl).congr (by simp [Covered, hapi])
  | false =>
    simp only [applyNmeaPosition, hapi, Bool.false_eq_true, if_false]
    refine (verdict_saved (replace_saved env _ _ hm.owned) (by simp)).congr ?_
    rw [newCourse_iff m env.now m.config.arrivalCircle none ⟨.location, position, none⟩ _ rfl]
    simp only [Covered, hapi]
    tauto

theorem setActiveRoute_verdict {m : CourseManager} (env : Surroundings) (hm : Sound m)
    (req : ActiveRouteRequest) :
    Verdict m env (m.setActiveRoute env req) (Covered m env (.setActiveRoute req)) := by
  cases hp : resolveRoutePoints env.resources req.href with
  | error e =>
    simp only [setActiveRoute, hp]
    exact (verdict_same env hm _ rfl rfl rfl).congr (by simp [Covered, hp])
  | ok routePoints =>
    cases hd : directed req.reverse routePoints with
    | nil =>
      simp only [setActiveRoute, hp, hd]
      refine (verdict_same env hm _ rfl rfl rfl).congr ?_
      simp [Covered, hp, hd]
    | cons first rest =>
      simp only [setActiveRoute, hp, hd]
      refine (verdict_saved (replace_saved env _ _ hm.owned) (by simp)).congr ?_
      rw [newCourse_iff m env.now m.keptCircle _ (CoursePoint.onRoute first) _ rfl]
      simp [Covered, hp, hd, keptCircle_reread hm, iff_true_intro m.keptCircle_covers,
        ActiveRoute.reread, CoursePoint.onRoute]

theorem goTo_verdict {m : CourseManager} (env : Surroundings) (hm : Sound m)
    {course : CourseState} {route : ActiveRoute} {points : List Position}
    (hf : m.following = .ok (course, route))
    (hp : resolveRoutePoints env.resources route.href = .ok points) {index : UInt64}
    (hi : index.toNat < points.length) :
    Verdict m env (m.goTo env course route points index)
      (∀ position, m.routePoint env false index.toNat = some position →
        position.reread = position) := by
  obtain ⟨hs, hr⟩ := following_eq_ok.mp hf
  have hlt : index.toNat < (directed route.reverse points).length := by
    rw [directed_length]
    exact hi
  have hget := List.getElem?_eq_getElem hlt
  simp only [goTo, hget]
  refine (verdict_saved (update_saved env _ hm.owned) (by simp)).congr ?_
  refine (move_iff hm hs hr _ _ ?_ _ rfl).trans ?_
  · rfl
  · simp [routePoint_eq hf hp, hget]

theorem setPointIndex_verdict {m : CourseManager} (env : Surroundings) (hm : Sound m)
    (index : UInt64) :
    Verdict m env (m.setPointIndex env index) (Covered m env (.setPointIndex index)) := by
  cases hf : m.following with
  | error e =>
    simp only [setPointIndex, hf]
    exact (verdict_same env hm _ rfl rfl rfl).congr (by simp [Covered, routePoint, hf])
  | ok followed =>
    obtain ⟨course, route⟩ := followed
    cases hp : resolveRoutePoints env.resources route.href with
    | error e =>
      simp only [setPointIndex, hf, hp]
      exact (verdict_same env hm _ rfl rfl rfl).congr (by simp [Covered, routePoint, hf, hp])
    | ok points =>
      simp only [setPointIndex, hf, hp]
      by_cases hi : points.length ≤ index.toNat
      · rw [if_pos hi]
        have hnone : (directed route.reverse points)[index.toNat]? = none := by
          rw [List.getElem?_eq_none_iff, directed_length]
          exact hi
        refine (verdict_same env hm _ rfl rfl rfl).congr ?_
        simp [Covered, routePoint_eq hf hp, hnone]
      · rw [if_neg hi]
        exact goTo_verdict env hm hf hp (Nat.lt_of_not_le hi)

theorem advanceNextPoint_verdict {m : CourseManager} (env : Surroundings) (hm : Sound m)
    (delta : Int32) :
    Verdict m env (m.advanceNextPoint env delta) (Covered m env (.advanceNextPoint delta)) := by
  cases hf : m.following with
  | error e =>
    simp only [advanceNextPoint, hf]
    exact (verdict_same env hm _ rfl rfl rfl).congr (by simp [Covered, hf])
  | ok followed =>
    obtain ⟨course, route⟩ := followed
    have hcov : Covered m env (.advanceNextPoint delta) ↔
        (0 ≤ route.pointIndex.toInt64 + delta.toInt64 → ∀ position,
          m.routePoint env false (route.pointIndex.toInt64 + delta.toInt64).toUInt64.toNat =
            some position → position.reread = position) := by
      simp [Covered, hf]
    cases hp : resolveRoutePoints env.resources route.href with
    | error e =>
      simp only [advanceNextPoint, hf, hp]
      exact (verdict_same env hm _ rfl rfl rfl).congr (by simp [hcov, routePoint, hf, hp])
    | ok points =>
      simp only [advanceNextPoint, hf, hp]
      by_cases hneg : route.pointIndex.toInt64 + delta.toInt64 < 0
      · rw [if_pos (.inl hneg)]
        refine (verdict_same env hm _ rfl rfl rfl).congr ?_
        rw [hcov]
        exact iff_of_true trivial fun h => absurd hneg (Int64.not_lt.mpr h)
      · have hpos : 0 ≤ route.pointIndex.toInt64 + delta.toInt64 := Int64.not_lt.mp hneg
        by_cases hi : points.length ≤ (route.pointIndex.toInt64 + delta.toInt64).toUInt64.toNat
        · rw [if_pos (.inr hi)]
          have hnone : (directed route.reverse points)[(route.pointIndex.toInt64 +
              delta.toInt64).toUInt64.toNat]? = none := by
            rw [List.getElem?_eq_none_iff, directed_length]
            exact hi
          refine (verdict_same env hm _ rfl rfl rfl).congr ?_
          rw [hcov, routePoint_eq hf hp, Bool.false_bne, hnone]
          exact iff_of_true trivial fun _ _ h => by cases h
        · rw [if_neg (not_or.mpr ⟨hneg, hi⟩)]
          refine (goTo_verdict env hm hf hp (Nat.lt_of_not_le hi)).congr ?_
          rw [hcov]
          exact ⟨fun h _ => h, fun h => h hpos⟩

theorem reverseRoute_verdict {m : CourseManager} (env : Surroundings) (hm : Sound m) :
    Verdict m env (m.reverseRoute env) (Covered m env .reverseRoute) := by
  cases hf : m.following with
  | error e =>
    simp only [reverseRoute, hf]
    exact (verdict_same env hm _ rfl rfl rfl).congr (by simp [Covered, hf])
  | ok followed =>
    obtain ⟨course, route⟩ := followed
    obtain ⟨hs, hr⟩ := following_eq_ok.mp hf
    cases hp : resolveRoutePoints env.resources route.href with
    | error e =>
      simp only [reverseRoute, hf, hp]
      exact (reverseRoute_failed env hf e).congr (by simp [Covered, routePoint, hf, hp])
    | ok points =>
      simp only [reverseRoute, hf, hp]
      cases hd : directed (!route.reverse) points with
      | nil =>
        have hlen := directed_length (!route.reverse) points
        rw [hd] at hlen
        exact absurd (List.length_eq_zero_iff.mp hlen.symm) (resolveRoutePoints_ne_nil hp)
      | cons first rest =>
        refine (verdict_saved (update_saved env _ hm.owned) (by simp)).congr ?_
        refine (move_iff hm hs hr first _ ?_ _ rfl).trans ?_
        · rfl
        · simp [Covered, hf, routePoint_eq hf hp, hd]

theorem apply_verdict {m : CourseManager} (env : Surroundings) (hm : Sound m) (op : CourseOp) :
    Verdict m env (m.apply env op) (Covered m env op) := by
  cases op with
  | setDestination req => exact setDestination_verdict env hm req
  | setActiveRoute req => exact setActiveRoute_verdict env hm req
  | advanceNextPoint delta => exact advanceNextPoint_verdict env hm delta
  | setPointIndex index => exact setPointIndex_verdict env hm index
  | reverseRoute => exact reverseRoute_verdict env hm
  | setTargetArrivalTime time => exact setTargetArrivalTime_verdict env hm time
  | setArrivalCircle radius => exact setArrivalCircle_verdict env hm radius
  | clear => exact clear_verdict env hm
  | nmeaPosition position => exact applyNmeaPosition_verdict env hm position
  | enableApiOnly => exact enableApiOnly_verdict env hm
  | disableApiOnly => exact verdict_same env hm _ rfl rfl rfl

/-- An event that leaves the course paths to the course manager. -/
def LeavesCourse (selfUri : String) : CourseEvent → Prop
  | .op _ _ => True
  | .store e => SignalKStore.LeavesCourse selfUri e

def StepCovered (m : CourseManager) : CourseEvent → Prop
  | .op env op => Covered m env op
  | .store _ => True

/-- What happens to the rest of the store neither makes nor breaks agreement. -/
theorem store_agrees {m : CourseManager} {e : StoreEvent} (hm : Sound m)
    (he : SignalKStore.LeavesCourse m.store.selfUri e) :
    Sound (m.step (.store e)).1 ∧ (Agrees m → Agrees (m.step (.store e)).1) := by
  have hget := fun p => SignalKStore.step_getSelfPath he p
  have hview : ∀ p, (m.store.step e).1.courseView p = m.store.courseView p := by
    intro p
    rw [SignalKStore.courseView, hget, SignalKStore.courseView]
  refine ⟨⟨fun p c hc => hm.owned p c ((hget p).symm.trans hc), hm.heading, hm.rereads⟩, ?_⟩
  intro ha
  refine ⟨fun p hp => ?_, fun hr => ?_, ha.file⟩
  · exact (hview p).symm ▸ ha.fields p hp
  · exact (hview .distanceRemaining).symm ▸ ha.distance hr

theorem step_sound {m : CourseManager} {selfUri : String} (e : CourseEvent)
    (hm : Sound m ∧ m.store.selfUri = selfUri) (he : LeavesCourse selfUri e) (ha : Agrees m)
    (ha' : Agrees (m.step e).1) :
    Sound (m.step e).1 ∧ (m.step e).1.store.selfUri = selfUri := by
  cases e with
  | op env op =>
    have hv := apply_verdict env hm.1 op
    exact ⟨hv.sound ha ha', hv.selfUri.trans hm.2⟩
  | store e =>
    obtain ⟨hsound, rfl⟩ := hm
    exact ⟨(store_agrees hsound he).1, Replay.step_selfUri m.store e⟩

theorem step_agrees_iff {m : CourseManager} {selfUri : String} (e : CourseEvent)
    (hm : Sound m ∧ m.store.selfUri = selfUri) (he : LeavesCourse selfUri e) (ha : Agrees m) :
    Agrees (m.step e).1 ↔ m.StepCovered e := by
  cases e with
  | op env op => exact (apply_verdict env hm.1 op).agrees ha
  | store e =>
    obtain ⟨hsound, rfl⟩ := hm
    exact iff_of_true ((store_agrees hsound he).2 ha) trivial

/-- Memory, store and disk agree after every step of a run exactly when every
operation of it, on the state it finds, leaves nothing behind; in such a run every
operation that emits also puts out the distance along the route that it resolves. -/
theorem run_agrees (m : CourseManager) (events : List CourseEvent) (hm : Sound m) (ha : Agrees m)
    (he : ∀ e ∈ events, LeavesCourse m.store.selfUri e) :
    ((∀ es, es <+: events → Agrees (Machine.run step m es)) ↔
      Machine.Meets step StepCovered m events) ∧
    (Machine.Meets step StepCovered m events →
      ∀ es env op, es ++ [.op env op] <+: events →
        let out := (Machine.run step m es).apply env op
        out.broadcast ≠ [] → Measured env.resources out.manager) := by
  have hinv : ∀ m' e, Sound m' ∧ m'.store.selfUri = m.store.selfUri →
      LeavesCourse m.store.selfUri e → Agrees m' → Agrees (m'.step e).1 →
      Sound (m'.step e).1 ∧ (m'.step e).1.store.selfUri = m.store.selfUri :=
    fun m' e => step_sound e
  have hgood : ∀ m' e, Sound m' ∧ m'.store.selfUri = m.store.selfUri →
      LeavesCourse m.store.selfUri e → Agrees m' → (Agrees (m'.step e).1 ↔ m'.StepCovered e) :=
    fun m' e => step_agrees_iff e
  refine ⟨Machine.always_iff_meets hinv hgood ⟨hm, rfl⟩ ha he, ?_⟩
  intro hmeets es env op hprefix out hout
  have hsound := (Machine.always_of_meets hinv hgood ⟨hm, rfl⟩ ha he hmeets es
    ((List.prefix_append _ _).trans hprefix)).1.1
  exact (apply_verdict env hsound op).measured hout

end

section
local instance : JsonText := JsonText.unused
local instance : Geodesy := Geodesy.unused
local instance : FloatText := FloatText.exact

/-- A route of two points, whatever is asked for. -/
def twoPointRoute : Surroundings where
  now := "2026-01-01T00:00:00Z"
  timestamp := 0
  clock _ := 0
  resources _ _ := .ok (some (Json.ofFields [("coordinates",
    .array [.array [.ofF64 1, .ofF64 2], .array [.ofF64 3, .ofF64 4]])]))

theorem rereads_exact (m : CourseManager) (position : Position) : m.Rereads position := by
  refine ⟨position.reread_exact, ?_⟩
  rw [funext Position.reread_exact]
  exact congrFun Option.map_id m.store.currentVesselPosition

theorem run_agrees_cleared_between :
    let events := [
      .op twoPointRoute (.setDestination ⟨some ⟨50, -124, none⟩, none⟩),
      .op twoPointRoute (.setArrivalCircle 100),
      .op twoPointRoute .clear,
      .op twoPointRoute (.setActiveRoute ⟨"/resources/routes/r", false⟩),
      .op twoPointRoute (.advanceNextPoint 1)]
    ∀ es, es <+: events →
      Agrees (Machine.run step (new (SignalKStore.new "urn:mrn:signalk:uuid:test")) es) := by
  intro events
  have hnew : Sound (new (SignalKStore.new "urn:mrn:signalk:uuid:test")) ∧
      Agrees (new (SignalKStore.new "urn:mrn:signalk:uuid:test")) :=
    new_agrees fun p => by simp [SignalKStore.getSelfPath]
  refine (run_agrees _ events hnew.1 hnew.2 ?_).1.mpr ⟨?_, ?_, trivial, ?_, ?_, trivial⟩
  · intro e he
    simp only [events, List.mem_cons, List.not_mem_nil, or_false] at he
    obtain rfl | rfl | rfl | rfl | rfl := he <;> trivial
  · intro position _
    refine ⟨rereads_exact _ _, fun old ho => ?_, fun old ho => ?_⟩
    · cases ho
    · cases ho
  · intro course _
    exact ⟨rfl, fun h => absurd h (by decide)⟩
  · intro points _ first _
    refine ⟨rereads_exact _ _, fun old ho => ?_⟩
    cases ho
  · intro course route _ newIndex _ position _
    exact position.reread_exact

/-- A plain destination after a route: the store still names the route. -/
theorem replaced_route_lingers :
    let m := Machine.run step (new (SignalKStore.new "urn:mrn:signalk:uuid:test")) [
      .op twoPointRoute (.setActiveRoute ⟨"/resources/routes/r", false⟩),
      .op twoPointRoute (.setDestination ⟨some ⟨50, -124, none⟩, none⟩)]
    m.state.bind CourseState.activeRoute = none ∧
      m.store.courseView .routeHref = some (.string "/resources/routes/r") ∧ ¬ Agrees m := by
  intro m
  have hroute : m.state.bind CourseState.activeRoute = none := by decide +kernel
  have hview : m.store.courseView .routeHref = some (.string "/resources/routes/r") := by
    decide +kernel
  refine ⟨hroute, hview, fun ha => ?_⟩
  have hblank := (ha.blank_iff (p := .routeHref) (by decide)).mpr (by decide +kernel)
  rw [Blank, hview] at hblank
  simp at hblank

end

end SignalK.CourseManager

import SignalK.Course.Memory

/-! Where a course stands on its route. Every operation looks the route up again; as long
as the resources stay the same they all find the points that the index counts. -/
namespace SignalK

/-- Resources that do not change. A vector of points has a length that is a `usize`. -/
structure RouteBook where
  resources : Resources
  sized : ∀ href points, resolveRoutePoints resources href = .ok points → points.length < 2 ^ 64

/-- The activity finds these resources, if it looks at them. -/
def CourseActivity.Reads (resources : Resources) : CourseActivity → Prop
  | .attempt (.op env _ _) => env.resources = resources
  | .attempt (.store _) => True
  | .tick env _ => env.resources = resources

/-- The course heads for the point of its route that the index says. -/
structure CourseState.Follows (course : CourseState) (route : ActiveRoute)
    (points : List Position) : Prop where
  total : route.pointTotal.toNat = points.length
  inRange : route.pointIndex.toNat < points.length
  next : course.nextPoint =
    (directed route.reverse points)[route.pointIndex.toNat]?.map CoursePoint.onRoute
  /-- the points themselves are only filled in for a reader -/
  unfilled : route.waypoints = none

/-- A state that heads for a point of its route, if it has a route. -/
def OnRoute (resources : Resources) (state : Option CourseState) : Prop :=
  ∀ course route, state = some course → course.activeRoute = some route →
    ∃ points, resolveRoutePoints resources route.href = .ok points ∧ course.Follows route points

namespace CourseManager

/-- `get_state`: the points of the route are filled in, in the direction of travel. -/
def getState (m : CourseManager) (resources : Resources) : CourseState :=
  let state := m.state.getD {
    startTime := none
    targetArrivalTime := none
    arrivalCircle := m.config.arrivalCircle
    activeRoute := none
    nextPoint := none
    previousPoint := none }
  match state.activeRoute with
  | none => state
  | some route =>
    if route.waypoints = none then
      match resolveRoutePoints resources route.href with
      | .error _ => state
      | .ok points =>
        { state with
          activeRoute := some { route with waypoints := some (directed route.reverse points) } }
    else state

section
variable {resources : Resources}

theorem onRoute_none : OnRoute resources none :=
  fun _ _ h => nomatch h

theorem onRoute_of_no_route {course : CourseState} (h : course.activeRoute = none) :
    OnRoute resources (some course) := by
  intro course' route hs hr
  cases hs
  rw [h] at hr
  cases hr

theorem onRoute_of_follows {course : CourseState} {route : ActiveRoute} {points : List Position}
    (hr : course.activeRoute = some route)
    (hp : resolveRoutePoints resources route.href = .ok points)
    (h : course.Follows route points) : OnRoute resources (some course) := by
  intro course' route' hs hr'
  cases hs
  cases hr.symm.trans hr'
  exact ⟨points, hp, h⟩

theorem points_of_following {m : CourseManager} {course : CourseState} {route : ActiveRoute}
    (h : OnRoute resources m.state) (hf : m.following = .ok (course, route)) :
    ∃ points, resolveRoutePoints resources route.href = .ok points ∧
      course.Follows route points := by
  obtain ⟨hs, hr⟩ := following_eq_ok.mp hf
  exact h course route hs hr

/-- Heading for another point of the route. -/
theorem heading_follows {course : CourseState} {route : ActiveRoute} {points : List Position}
    {index : UInt64} (h : course.Follows route points) (hi : index.toNat < points.length) :
    (heading course route points index).Follows { route with pointIndex := index } points where
  total := h.total
  inRange := hi
  next := rfl
  unfilled := h.unfilled

/-- Heading for the first point, in either direction. -/
theorem first_follows {course : CourseState} {route : ActiveRoute} {points : List Position}
    (hne : points ≠ []) (hlen : points.length < 2 ^ 64) (hi : route.pointIndex = 0)
    (htotal : route.pointTotal = UInt64.ofNat (directed route.reverse points).length)
    (hnext : course.nextPoint = (directed route.reverse points).head?.map CoursePoint.onRoute)
    (hw : route.waypoints = none) : course.Follows route points where
  total := by
    rw [htotal, directed_length]
    exact UInt64.toNat_ofNat_of_lt' hlen
  inRange := by
    rw [hi]
    exact List.length_pos_iff.mpr hne
  next := by
    rw [hnext, hi, List.head?_eq_getElem?]
    rfl
  unfilled := hw

variable {m : CourseManager} {env : Surroundings}

theorem advanced_onRoute (delta : Int32) (h : OnRoute env.resources m.state) :
    OnRoute env.resources (m.advanced env delta).state := by
  unfold advanced
  cases hf : m.following with
  | error e => exact h
  | ok followed =>
    obtain ⟨course, route⟩ := followed
    obtain ⟨points, hp, hfollows⟩ := points_of_following h hf
    simp only [hp]
    by_cases hi : route.pointIndex.toInt64 + delta.toInt64 < 0 ∨
        points.length ≤ (route.pointIndex.toInt64 + delta.toInt64).toUInt64.toNat
    · rw [if_pos hi]
      exact h
    · rw [if_neg hi]
      rw [not_or, not_le] at hi
      exact onRoute_of_follows rfl hp (heading_follows hfollows hi.2)

theorem pointedAt_onRoute (index : UInt64) (h : OnRoute env.resources m.state) :
    OnRoute env.resources (m.pointedAt env index).state := by
  unfold pointedAt
  cases hf : m.following with
  | error e => exact h
  | ok followed =>
    obtain ⟨course, route⟩ := followed
    obtain ⟨points, hp, hfollows⟩ := points_of_following h hf
    simp only [hp]
    by_cases hi : points.length ≤ index.toNat
    · rw [if_pos hi]
      exact h
    · rw [if_neg hi]
      exact onRoute_of_follows rfl hp (heading_follows hfollows (Nat.lt_of_not_le hi))

theorem reversed_onRoute (hsized : ∀ href points,
      resolveRoutePoints env.resources href = .ok points → points.length < 2 ^ 64)
    (h : OnRoute env.resources m.state) : OnRoute env.resources (m.reversed env).state := by
  unfold reversed
  cases hf : m.following with
  | error e => exact h
  | ok followed =>
    obtain ⟨course, route⟩ := followed
    obtain ⟨points, hp, hfollows⟩ := points_of_following h hf
    simp only [hp]
    refine onRoute_of_follows rfl hp ?_
    exact first_follows (resolveRoutePoints_ne_nil hp) (hsized _ _ hp) rfl rfl rfl
      hfollows.unfilled

/-- A change of the course that leaves its route and its next point. -/
theorem onRoute_map {f : CourseState → CourseState}
    (hroute : ∀ course, (f course).activeRoute = course.activeRoute)
    (hnext : ∀ course, (f course).nextPoint = course.nextPoint)
    {state : Option CourseState} (h : OnRoute resources state) :
    OnRoute resources (state.map f) := by
  intro course route hs hr
  obtain ⟨old, hold, rfl⟩ := Option.map_eq_some_iff.mp hs
  rw [hroute] at hr
  obtain ⟨points, hp, hfollows⟩ := h old route hold hr
  exact ⟨points, hp, hfollows.total, hfollows.inRange, (hnext old).trans hfollows.next,
    hfollows.unfilled⟩

theorem timed_onRoute (time : Option String) (h : OnRoute resources m.state) :
    OnRoute resources (m.timed time).state := by
  have hmap : (m.timed time).state = m.state.map ({ · with targetArrivalTime := time }) := by
    unfold timed
    cases hs : m.state with
    | none => exact hs
    | some course => rfl
  rw [hmap]
  exact onRoute_map (f := ({ · with targetArrivalTime := time })) (fun _ => rfl) (fun _ => rfl) h

theorem circled_onRoute (radius : ℚ) (h : OnRoute resources m.state) :
    OnRoute resources (m.circled radius).state := by
  have hmap : (m.circled radius).state = m.state.map ({ · with arrivalCircle := radius }) := by
    unfold circled
    cases m.state <;> rfl
  rw [hmap]
  exact onRoute_map (f := ({ · with arrivalCircle := radius })) (fun _ => rfl) (fun _ => rfl) h

/-- What a reader gets: the points of the route, with the next one at the index. -/
theorem getState_of_follows {course : CourseState} {route : ActiveRoute}
    {points : List Position} (hs : m.state = some course) (hr : course.activeRoute = some route)
    (hp : resolveRoutePoints resources route.href = .ok points)
    (h : course.Follows route points) :
    m.getState resources = { course with
      activeRoute := some { route with waypoints := some (directed route.reverse points) } } := by
  simp only [getState, hs, Option.getD_some, hr, h.unfilled, if_pos, hp]

end

section
variable [JsonText] [Geodesy] {m : CourseManager} {env : Surroundings}

/-- A new route is headed for at its first point. -/
theorem setActiveRoute_onRoute (req : ActiveRouteRequest) (hsized : ∀ href points,
      resolveRoutePoints env.resources href = .ok points → points.length < 2 ^ 64)
    (h : OnRoute env.resources m.state) :
    OnRoute env.resources (m.setActiveRoute env req).manager.state := by
  unfold setActiveRoute
  cases hr : resolveRoutePoints env.resources req.href with
  | error e => exact h
  | ok points =>
    simp only
    cases hp : directed req.reverse points with
    | nil => exact h
    | cons first rest =>
      refine onRoute_of_follows rfl hr ?_
      refine first_follows (resolveRoutePoints_ne_nil hr) (hsized _ _ hr) rfl ?_ ?_ rfl
      · simp only [hp]
      · simp only [hp, List.head?_cons, Option.map_some]

theorem apply_onRoute (op : CourseOp) (hsized : ∀ href points,
      resolveRoutePoints env.resources href = .ok points → points.length < 2 ^ 64)
    (h : OnRoute env.resources m.state) :
    OnRoute env.resources (m.apply env op).manager.state := by
  have hrevised : ∀ f, CourseThread.ofOp env Disk.working op =
      CourseThread.revise env Disk.working f (fun _ => []) → OnRoute env.resources (f m).state →
      OnRoute env.resources (m.apply env op).manager.state := by
    intro f hop hstate
    have hmem : (m.apply env op).manager.state = (f m).state :=
      congrArg Prod.fst (m.revised_memory env hop)
    rw [hmem]
    exact hstate
  cases op with
  | setDestination req =>
    simp only [apply, setDestination]
    cases destinationPosition env req with
    | error e => exact h
    | ok position => exact onRoute_of_no_route rfl
  | setActiveRoute req =>
    simp only [apply]
    exact setActiveRoute_onRoute req hsized h
  | advanceNextPoint delta => exact hrevised (CourseManager.advanced env delta) rfl (advanced_onRoute delta h)
  | setPointIndex index => exact hrevised (CourseManager.pointedAt env index) rfl (pointedAt_onRoute index h)
  | reverseRoute => exact hrevised (CourseManager.reversed env) rfl (reversed_onRoute hsized h)
  | setTargetArrivalTime time => exact hrevised (CourseManager.timed time) rfl (timed_onRoute time h)
  | setArrivalCircle radius =>
    have hmem : (m.apply env (.setArrivalCircle radius)).manager.state = (m.circled radius).state :=
      congrArg Prod.fst (m.setArrivalCircle_memory env radius)
    rw [hmem]
    exact circled_onRoute radius h
  | clear => exact onRoute_none
  | nmeaPosition position =>
    simp only [apply, applyNmeaPosition]
    split_ifs
    · exact h
    · exact onRoute_of_no_route rfl
  | enableApiOnly =>
    simp only [apply, enableApiOnly]
    split_ifs
    · exact onRoute_none
    · exact h
  | disableApiOnly => exact h

/-- Whatever is done to the manager, its course stays on the route. -/
theorem activity_onRoute {resources : Resources} (a : CourseActivity)
    (ha : a.Reads resources) (hsized : ∀ href points,
      resolveRoutePoints resources href = .ok points → points.length < 2 ^ 64)
    (h : OnRoute resources m.state) : OnRoute resources (m.activityStep a).1.state := by
  cases a with
  | attempt a =>
    cases a with
    | store e => exact h
    | op env disk op =>
      cases ha
      obtain ⟨hdone, hlost⟩ := m.attempt_memory env disk op
      by_cases hcond : op.creates = false ∨ disk.Saves
      · have hstate : (m.attempt env disk op).manager.state = (m.apply env op).manager.state :=
          congrArg Prod.fst (hdone hcond)
        show OnRoute env.resources (m.attempt env disk op).manager.state
        rw [hstate]
        exact apply_onRoute op hsized h
      · rw [not_or, Bool.not_eq_false] at hcond
        have hstate : (m.attempt env disk op).manager.state = m.state :=
          congrArg Prod.fst (hlost hcond)
        show OnRoute env.resources (m.attempt env disk op).manager.state
        rw [hstate]
        exact h
  | tick env disk =>
    cases ha
    cases m.tick_memory env disk with
    | inl hmem =>
      have hstate : (m.activityStep (.tick env disk)).1.state = m.state := congrArg Prod.fst hmem
      rw [hstate]
      exact h
    | inr hmem =>
      have hstate : (m.activityStep (.tick env disk)).1.state = (m.advanced env 1).state :=
        congrArg Prod.fst hmem
      rw [hstate]
      exact advanced_onRoute 1 h

theorem run_onRoute (book : RouteBook) (activities : List CourseActivity)
    (ha : ∀ a ∈ activities, a.Reads book.resources) (h : OnRoute book.resources m.state) :
    OnRoute book.resources (Machine.run activityStep m activities).state := by
  have hstep : ∀ (m : CourseManager) (a : CourseActivity), OnRoute book.resources m.state →
      a.Reads book.resources → OnRoute book.resources (m.activityStep a).1.state :=
    fun m a hm hr => activity_onRoute a hr book.sized hm
  have hmeets : Machine.Meets activityStep
      (fun _ (a : CourseActivity) => a.Reads book.resources) m activities :=
    Machine.meets_of_forall fun a hmem _ => ha a hmem
  exact Machine.run_inv hstep h hmeets

/-- With resources that do not change, a course of any run counts the points of its route,
heads for the one at its index, and is read with that point at that index. -/
theorem follows_route (book : RouteBook) (store : SignalKStore)
    (activities : List CourseActivity) (ha : ∀ a ∈ activities, a.Reads book.resources) :
    let m := Machine.run activityStep (new store) activities
    ∀ course route, m.state = some course → course.activeRoute = some route →
      ∃ points position, resolveRoutePoints book.resources route.href = .ok points ∧
        route.pointTotal.toNat = points.length ∧ route.pointIndex < route.pointTotal ∧
        (directed route.reverse points)[route.pointIndex.toNat]? = some position ∧
        course.nextPoint = some (CoursePoint.onRoute position) ∧
        (m.getState book.resources).nextPoint = course.nextPoint ∧
        ∃ read waypoints, (m.getState book.resources).activeRoute = some read ∧
          read.pointIndex = route.pointIndex ∧ read.waypoints = some waypoints ∧
          waypoints[read.pointIndex.toNat]? = some position := by
  intro m course route hs hr
  have honRoute : OnRoute book.resources m.state := run_onRoute book activities ha onRoute_none
  obtain ⟨points, hp, hfollows⟩ := honRoute course route hs hr
  have hlt : route.pointIndex.toNat < (directed route.reverse points).length := by
    rw [directed_length]
    exact hfollows.inRange
  have hposition := List.getElem?_eq_getElem hlt
  have hread := getState_of_follows hs hr hp hfollows
  refine ⟨points, _, hp, hfollows.total, ?_, hposition, ?_, ?_, ?_⟩
  · rw [UInt64.lt_iff_toNat_lt, hfollows.total]
    exact hfollows.inRange
  · rw [hfollows.next, hposition]
    rfl
  · rw [hread]
  · rw [hread]
    exact ⟨_, _, rfl, rfl, rfl, hposition⟩

end

section
local instance noText : JsonText := JsonText.unused
local instance noGeodesy : Geodesy := Geodesy.unused

/-- Every route has the same two points. -/
def twoPointBook : RouteBook where
  resources := twoPointRoute.resources
  sized := by
    intro href points hp
    unfold resolveRoutePoints lookupResource at hp
    cases hparse : parseResourceHref href with
    | error e =>
      rw [hparse] at hp
      cases hp
    | ok found =>
      rw [hparse] at hp
      have hline : linePositions (Json.ofFields [("coordinates",
          .array [.array [.ofF64 1, .ofF64 2], .array [.ofF64 3, .ofF64 4]])]) =
          [⟨2, 1, none⟩, ⟨4, 3, none⟩] := by decide +kernel
      simp only [twoPointRoute, Except.bind, extractRoutePoints, hline] at hp
      cases hp
      decide

/-- Reversed, advanced by one and turned round again: the next point is the first one. -/
theorem follows_route_turned :
    let m := Machine.run activityStep (new (SignalKStore.new "urn:mrn:signalk:uuid:test"))
      [.attempt (.op twoPointRoute Disk.working (.setActiveRoute ⟨"/resources/routes/r", true⟩)),
        .attempt (.op twoPointRoute Disk.working (.advanceNextPoint 1)),
        .attempt (.op twoPointRoute Disk.working .reverseRoute),
        .tick twoPointRoute Disk.working]
    ∃ course route points position, m.state = some course ∧ course.activeRoute = some route ∧
      resolveRoutePoints twoPointBook.resources route.href = .ok points ∧
      (directed route.reverse points)[route.pointIndex.toNat]? = some position ∧
      course.nextPoint = some (CoursePoint.onRoute position) ∧
      course.nextPoint = some (CoursePoint.onRoute ⟨2, 1, none⟩) := by
  intro m
  have hnext : (m.state.bind fun course => course.activeRoute.map fun _ => course.nextPoint) =
      some (some (CoursePoint.onRoute ⟨2, 1, none⟩)) := by decide +kernel
  obtain ⟨course, hs, hfound⟩ := Option.bind_eq_some_iff.mp hnext
  obtain ⟨route, hr, hpoint⟩ := Option.map_eq_some_iff.mp hfound
  have hreads : ∀ a ∈ [CourseActivity.attempt (.op twoPointRoute Disk.working
        (.setActiveRoute ⟨"/resources/routes/r", true⟩)),
      .attempt (.op twoPointRoute Disk.working (.advanceNextPoint 1)),
      .attempt (.op twoPointRoute Disk.working .reverseRoute),
      .tick twoPointRoute Disk.working], a.Reads twoPointBook.resources := by
    intro a ha
    simp only [List.mem_cons, List.not_mem_nil, or_false] at ha
    obtain rfl | rfl | rfl | rfl := ha <;> rfl
  have hfollows := follows_route twoPointBook (SignalKStore.new "urn:mrn:signalk:uuid:test") _ hreads
    course route hs hr
  obtain ⟨points, position, hp, _, _, hposition, hcourse, _⟩ := hfollows
  exact ⟨course, route, points, position, hs, hr, hp, hposition, hcourse, hpoint⟩

end
end CourseManager
end SignalK

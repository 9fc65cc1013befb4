import SignalK.Course.Resolve
import SignalK.Store.Store

/-! The course manager: the state in memory, the document in its state file, and
the deltas it puts into the store. Writing and removing the file succeed. -/
namespace SignalK

inductive CourseSource where
  | api | nmea
  deriving DecidableEq

structure CourseConfig where
  arrivalCircle : ℚ := 0
  apiOnly : Bool := false
  deriving DecidableEq

structure DestinationRequest where
  position : Option Position
  href : Option String
  deriving DecidableEq

structure ActiveRouteRequest where
  href : String
  reverse : Bool
  deriving DecidableEq

/-- What an operation finds around it: the time as text, as the timestamp of an
update and as `apply_delta` reads it, and the resources, the same for its own
lookup and for the one that `emit_deltas` makes. -/
structure Surroundings where
  now : String
  timestamp : DateTime
  clock : Nat → DateTime
  resources : Resources

structure CourseManager where
  state : Option CourseState
  config : CourseConfig
  source : CourseSource
  store : SignalKStore
  /-- the document whose text `state.json` holds -/
  stateFile : Option Json

/-- What an operation leaves, broadcasts and returns. -/
structure Outcome where
  manager : CourseManager
  broadcast : List Delta
  result : Except PluginError Unit

/-- The points of a route in the direction it is followed. -/
def directed (reverse : Bool) (points : List Position) : List Position :=
  if reverse then points.reverse else points

namespace CoursePoint

def onRoute (position : Position) : CoursePoint where
  type_ := .routePoint
  position := position
  href := none

def ofVessel (position : Position) : CoursePoint where
  type_ := .vesselPosition
  position := position
  href := none

end CoursePoint

def positionValue (p : Position) : Json :=
  Json.ofFields [("latitude", .ofF64 p.latitude), ("longitude", .ofF64 p.longitude)]

/-- `json!` of a double: null unless it is finite. -/
def metersValue (meters : Option ℚ) : Json :=
  meters.elim .null .ofF64

/-- The latitude and longitude that the store has for the own vessel. -/
def SignalKStore.currentVesselPosition (st : SignalKStore) : Option Position := do
  let value ← st.getSelfPath "navigation.position"
  let latitude ← (value.value.get "latitude").bind Json.asF64
  let longitude ← (value.value.get "longitude").bind Json.asF64
  return { latitude := latitude, longitude := longitude, altitude := none }

/-- From the vessel to the next point and on along the rest of the route. -/
def distanceRemaining [Geodesy] (st : SignalKStore) (state : CourseState) (route : ActiveRoute)
    (routePoints : List Position) : Option ℚ :=
  let points := directed route.reverse routePoints
  let remaining := routeRemainingDistance (points.map fun p => (p.latitude, p.longitude))
    route.pointIndex.toNat
  let vesselToNext :=
    match state.nextPoint, st.currentVesselPosition with
    | some next, some pos =>
      Geodesy.haversineMeters pos.latitude pos.longitude next.position.latitude
        next.position.longitude
    | _, _ => some 0
  addMeters vesselToNext remaining

/-- The values of `emit_deltas`: those of the fields that are present. -/
def courseValues [Geodesy] (resources : Resources) (st : SignalKStore) (state : CourseState) :
    List PathValue :=
  (match state.nextPoint with
    | some next =>
      [⟨"navigation.course.nextPoint.position", positionValue next.position⟩,
        ⟨"navigation.course.nextPoint.type", next.type_.toValue⟩]
    | none => []) ++
  (match state.previousPoint with
    | some prev => [⟨"navigation.course.previousPoint.position", positionValue prev.position⟩]
    | none => []) ++
  (match state.activeRoute with
    | some route => [⟨"navigation.course.activeRoute.href", .string route.href⟩]
    | none => []) ++
  (match state.startTime with
    | some startTime => [⟨"navigation.course.startTime", .string startTime⟩]
    | none => []) ++
  (match state.targetArrivalTime with
    | some target => [⟨"navigation.course.targetArrivalTime", .string target⟩]
    | none => []) ++
  (if state.arrivalCircle > 0 then
    [⟨"navigation.course.arrivalCircle", .ofF64 state.arrivalCircle⟩]
  else []) ++
  (match state.activeRoute with
    | some route =>
      match resolveRoutePoints resources route.href with
      | .ok points =>
        [⟨"navigation.course.activeRoute.distanceRemaining",
          metersValue (distanceRemaining st state route points)⟩]
      | .error _ => []
    | none => [])

/-- The values of `emit_clear_deltas`. -/
def clearValues : List PathValue :=
  [
    "navigation.course.nextPoint.position",
    "navigation.course.nextPoint.type",
    "navigation.course.arrivalCircle",
    "navigation.course.targetArrivalTime",
    "navigation.course.previousPoint.position",
    "navigation.course.activeRoute.href",
    "navigation.course.activeRoute.distanceRemaining",
    "navigation.course.startTime"
  ].map fun path => ⟨path, .null⟩

namespace CourseManager

def new (store : SignalKStore) : CourseManager where
  state := none
  config := {}
  source := .api
  store := store
  stateFile := none

def done (m : CourseManager) : Outcome := ⟨m, [], .ok ()⟩

def fail (m : CourseManager) (e : PluginError) : Outcome := ⟨m, [], .error e⟩

def persistState (m : CourseManager) (state : Option CourseState) : CourseManager :=
  { m with stateFile := state.map CourseState.toValue }

section
variable [JsonText]

def applyDelta (m : CourseManager) (env : Surroundings) (values : List PathValue) :
    CourseManager × List Delta :=
  let delta := Delta.selfVessel [⟨Source.plugin "course-manager", env.timestamp, values⟩]
  let applied := m.store.applyDelta env.clock delta
  ({ m with store := applied.1 }, applied.2)

def emitClearDeltas (m : CourseManager) (env : Surroundings) : CourseManager × List Delta :=
  m.applyDelta env clearValues

def clear (m : CourseManager) (env : Surroundings) : Outcome :=
  let m := { m with state := none }.persistState none
  let emitted := m.emitClearDeltas env
  ⟨emitted.1, emitted.2, .ok ()⟩

def enableApiOnly (m : CourseManager) (env : Surroundings) : Outcome :=
  let m := { m with config := { m.config with apiOnly := true } }
  if m.source = .nmea then
    let m := { m with state := none, source := .api }
    let emitted := m.emitClearDeltas env
    ⟨emitted.1.persistState none, emitted.2, .ok ()⟩
  else m.done

end

def disableApiOnly (m : CourseManager) : Outcome :=
  { m with config := { m.config with apiOnly := false } }.done

section
variable [JsonText] [Geodesy]

def emitDeltas (m : CourseManager) (env : Surroundings) (state : CourseState) :
    CourseManager × List Delta :=
  let values := courseValues env.resources m.store state
  if values ≠ [] then m.applyDelta env values else (m, [])

/-- Persist, emit, then take the new state over. -/
def replace (m : CourseManager) (env : Surroundings) (state : CourseState)
    (source : CourseSource) : Outcome :=
  let m := m.persistState (some state)
  let emitted := m.emitDeltas env state
  ⟨{ emitted.1 with state := some state, source := source }, emitted.2, .ok ()⟩

/-- `apply_state`, for the REST callers. -/
def applyState (m : CourseManager) (env : Surroundings) (state : CourseState) : Outcome :=
  m.replace env state .api

/-- Change the state in place, then persist and emit it. -/
def update (m : CourseManager) (env : Surroundings) (state : CourseState) : Outcome :=
  let m := { m with state := some state }.persistState (some state)
  let emitted := m.emitDeltas env state
  ⟨emitted.1, emitted.2, .ok ()⟩

def destinationPosition (env : Surroundings) (req : DestinationRequest) :
    Except PluginError Position :=
  match req.position, req.href with
  | some pos, _ => .ok pos
  | none, some href => resolveWaypointPosition env.resources href
  | none, none => .error (.config "Either position or href must be provided")

/-- The arrival circle that a new course keeps. -/
def keptCircle (m : CourseManager) : ℚ :=
  (m.state.map CourseState.arrivalCircle).getD 0

def setDestination (m : CourseManager) (env : Surroundings) (req : DestinationRequest) :
    Outcome :=
  match destinationPosition env req with
  | .error e => m.fail e
  | .ok position =>
    m.applyState env {
      startTime := some env.now
      targetArrivalTime := none
      arrivalCircle := m.keptCircle
      activeRoute := none
      nextPoint := some { type_ := .location, position := position, href := req.href }
      previousPoint := m.store.currentVesselPosition.map CoursePoint.ofVessel }

def setActiveRoute (m : CourseManager) (env : Surroundings) (req : ActiveRouteRequest) :
    Outcome :=
  match resolveRoutePoints env.resources req.href with
  | .error e => m.fail e
  | .ok routePoints =>
    let points := directed req.reverse routePoints
    match points with
    | [] => m.fail (.runtime "Route has no waypoints")
    | first :: _ =>
      m.applyState env {
        startTime := some env.now
        targetArrivalTime := none
        arrivalCircle := m.keptCircle
        activeRoute := some {
          href := req.href
          reverse := req.reverse
          pointIndex := 0
          pointTotal := UInt64.ofNat points.length
          name := none
          waypoints := none }
        nextPoint := some (CoursePoint.onRoute first)
        previousPoint := m.store.currentVesselPosition.map CoursePoint.ofVessel }

/-- The course and its route, as every operation on a route needs them. -/
def following (m : CourseManager) : Except PluginError (CourseState × ActiveRoute) :=
  match m.state with
  | none => .error (.runtime "No active course")
  | some course =>
    match course.activeRoute with
    | none => .error (.runtime "No active route")
    | some route => .ok (course, route)

/-- Head for a point of the route; the next point becomes the previous one. -/
def goTo (m : CourseManager) (env : Surroundings) (course : CourseState) (route : ActiveRoute)
    (routePoints : List Position) (index : UInt64) : Outcome :=
  let points := directed route.reverse routePoints
  m.update env { course with
    activeRoute := some { route with pointIndex := index }
    nextPoint := points[index.toNat]?.map CoursePoint.onRoute
    previousPoint := course.nextPoint }

def outOfRange (index total : String) : PluginError :=
  .runtime ("Point index " ++ index ++ " out of range (0.." ++ total ++ ")")

def advanceNextPoint (m : CourseManager) (env : Surroundings) (delta : Int32) : Outcome :=
  match m.following with
  | .error e => m.fail e
  | .ok (course, route) =>
    match resolveRoutePoints env.resources route.href with
    | .error e => m.fail e
    | .ok routePoints =>
      let newIndex := route.pointIndex.toInt64 + delta.toInt64
      if newIndex < 0 ∨ routePoints.length ≤ newIndex.toUInt64.toNat then
        m.fail (outOfRange (toString newIndex) (toString routePoints.length))
      else m.goTo env course route routePoints newIndex.toUInt64

def setPointIndex (m : CourseManager) (env : Surroundings) (index : UInt64) : Outcome :=
  match m.following with
  | .error e => m.fail e
  | .ok (course, route) =>
    match resolveRoutePoints env.resources route.href with
    | .error e => m.fail e
    | .ok routePoints =>
      if routePoints.length ≤ index.toNat then
        m.fail (outOfRange (toString index) (toString routePoints.length))
      else m.goTo env course route routePoints index

/-- The direction is turned in memory before the route is looked up. -/
def reverseRoute (m : CourseManager) (env : Surroundings) : Outcome :=
  match m.following with
  | .error e => m.fail e
  | .ok (course, route) =>
    let route := { route with reverse := !route.reverse }
    match resolveRoutePoints env.resources route.href with
    | .error e => { m with state := some { course with activeRoute := some route } }.fail e
    | .ok routePoints =>
      let points := directed route.reverse routePoints
      m.update env { course with
        activeRoute :=
          some { route with pointIndex := 0, pointTotal := UInt64.ofNat points.length }
        nextPoint := points.head?.map CoursePoint.onRoute
        previousPoint := course.nextPoint }

def setTargetArrivalTime (m : CourseManager) (env : Surroundings) (time : Option String) :
    Outcome :=
  match m.state with
  | none => m.fail (.runtime "No active course")
  | some course => m.update env { course with targetArrivalTime := time }

def setArrivalCircle (m : CourseManager) (env : Surroundings) (radius : ℚ) : Outcome :=
  let m := { m with config := { m.config with arrivalCircle := radius } }
  match m.state with
  | none => m.done
  | some course => m.update env { course with arrivalCircle := radius }

def applyNmeaPosition (m : CourseManager) (env : Surroundings) (position : Position) : Outcome :=
  if m.config.apiOnly then m.done
  else
    m.replace env {
      startTime := some env.now
      targetArrivalTime := none
      arrivalCircle := m.config.arrivalCircle
      activeRoute := none
      nextPoint := some { type_ := .location, position := position, href := none }
      previousPoint := m.store.currentVesselPosition.map CoursePoint.ofVessel } .nmea

end
end CourseManager

inductive CourseOp where
  | setDestination (req : DestinationRequest)
  | setActiveRoute (req : ActiveRouteRequest)
  | advanceNextPoint (delta : Int32)
  | setPointIndex (index : UInt64)
  | reverseRoute
  | setTargetArrivalTime (time : Option String)
  | setArrivalCircle (radius : ℚ)
  | clear
  | nmeaPosition (position : Position)
  | enableApiOnly
  | disableApiOnly

def CourseManager.apply [JsonText] [Geodesy] (m : CourseManager) (env : Surroundings) :
    CourseOp → Outcome
  | .setDestination req => m.setDestination env req
  | .setActiveRoute req => m.setActiveRoute env req
  | .advanceNextPoint delta => m.advanceNextPoint env delta
  | .setPointIndex index => m.setPointIndex env index
  | .reverseRoute => m.reverseRoute env
  | .setTargetArrivalTime time => m.setTargetArrivalTime env time
  | .setArrivalCircle radius => m.setArrivalCircle env radius
  | .clear => m.clear env
  | .nmeaPosition position => m.applyNmeaPosition env position
  | .enableApiOnly => m.enableApiOnly env
  | .disableApiOnly => m.disableApiOnly

/-- An operation of the manager, or something else that happens to the store. -/
inductive CourseEvent where
  | op (env : Surroundings) (op : CourseOp)
  | store (e : StoreEvent)

def CourseManager.step [JsonText] [Geodesy] (m : CourseManager) :
    CourseEvent → CourseManager × List Delta
  | .op env op => ((m.apply env op).manager, (m.apply env op).broadcast)
  | .store e => ({ m with store := (m.store.step e).1 }, (m.store.step e).2)

end SignalK

import SignalK.Course.Manager
import SignalK.Lib.Thread

/-! The operations of the course manager as threads: each step is one access under
one lock or one file operation, in the order of the code, and files can fail. -/
namespace SignalK

/-- How the file system answers a call. A failed write leaves some document, or
none that can be parsed. -/
structure Disk where
  mkdir : Except String Unit
  write : Except (String × Option Json) Unit
  removes : Bool

def Disk.working : Disk where
  mkdir := .ok ()
  write := .ok ()
  removes := true

/-- What has happened to the manager. No step depends on it. -/
structure History where
  /-- who set the course in memory -/
  setBy : CourseSource := .api
  /-- who set the course in the file -/
  filedBy : CourseSource := .api
  /-- how often the next point, or its place in the route, has changed -/
  legs : Nat := 0
  /-- the leg on which the distance in the store was written -/
  distanceLeg : Option Nat := none
  /-- `enable_api_only` has returned and `disable_api_only` was not called since -/
  apiOnly : Bool := false

structure Tracked where
  manager : CourseManager
  history : History

/-- What the arrival check has found: a distance within the circle. -/
structure ArrivalReading where
  distance : ℚ
  circle : ℚ
  leg : Option Nat

inductive CourseNote where
  | broadcast (delta : Delta)
  /-- an arrival on this leg: the route advances, or its end is notified -/
  | arrived (reading : ArrivalReading) (leg : Nat) (advances : Bool)

abbrev CourseThread (ρ : Type) := Thread Tracked CourseNote ρ

abbrev CourseResult := Except PluginError Unit

/-- What a change in place leaves in memory, and the state to save if there is one. -/
structure Revision where
  state : Option CourseState
  saved : Except PluginError (Option CourseState)

def CourseManager.distancePath : String := "navigation.course.calcValues.nextPoint.distance"

def nextPointOf (state : Option CourseState) : Option CoursePoint :=
  state.bind CourseState.nextPoint

/-- The point that is headed for, and its place in the route. -/
def legOf (state : Option CourseState) : Option CoursePoint × Option UInt64 :=
  (nextPointOf state, (state.bind CourseState.activeRoute).map ActiveRoute.pointIndex)

namespace Tracked

/-- Write the state in memory. -/
def setState (t : Tracked) (state : Option CourseState) (setBy : CourseSource) : Tracked where
  manager := { t.manager with state := state }
  history := { t.history with
    setBy := setBy
    legs := if legOf state = legOf t.manager.state then t.history.legs
      else t.history.legs + 1 }

def setFile (t : Tracked) (doc : Option Json) (filedBy : CourseSource) : Tracked where
  manager := { t.manager with stateFile := doc }
  history := { t.history with filedBy := filedBy }

def setSource (t : Tracked) (source : CourseSource) : Tracked :=
  { t with manager := { t.manager with source := source } }

def setConfig (t : Tracked) (f : CourseConfig → CourseConfig) : Tracked :=
  { t with manager := { t.manager with config := f t.manager.config } }

def setApiOnly (t : Tracked) (apiOnly : Bool) : Tracked :=
  { t with history := { t.history with apiOnly := apiOnly } }

end Tracked

/-- Whether a broadcast delta has written the distance of the own vessel. -/
def writesDistance (selfUri : String) (delta : Delta) : Bool :=
  decide (vesselUri selfUri delta.context = some selfUri) &&
    delta.pathValues.any fun pv => decide (pv.path = CourseManager.distancePath)

/-- Something else that happens to the store. -/
def Tracked.outside [JsonText] (t : Tracked) (e : StoreEvent) : Tracked × List CourseNote :=
  let out := t.manager.store.step e
  ({ manager := { t.manager with store := out.1 }
     history := { t.history with
       distanceLeg :=
         if out.2.any (writesDistance t.manager.store.selfUri) then some t.history.legs
         else t.history.distanceLeg } }, out.2.map .broadcast)

def broadcasts (notes : List CourseNote) : List Delta :=
  notes.filterMap fun note =>
    match note with
    | .broadcast delta => some delta
    | .arrived _ _ _ => none

namespace CourseThread
variable {ρ : Type}

def look {α : Type} (f : CourseManager → α) (k : α → CourseThread ρ) : CourseThread ρ :=
  .step (fun t => (t, [])) fun t => k (f t.manager)

def write (f : Tracked → Tracked) (k : CourseThread ρ) : CourseThread ρ :=
  .step (fun t => (f t, [])) fun _ => k

/-- `persist_state`, with what is done after either outcome. -/
def persistState (disk : Disk) (state : Option CourseState) (setBy : CourseSource)
    (k : CourseResult → CourseThread ρ) : CourseThread ρ :=
  match disk.mkdir with
  | .error e => k (.error (.runtime ("mkdir course dir: " ++ e)))
  | .ok () =>
    match state with
    | some state =>
      match disk.write with
      | .error (e, left) =>
        write (·.setFile left setBy) (k (.error (.runtime ("write course state: " ++ e))))
      | .ok () => write (·.setFile (some state.toValue) setBy) (k (.ok ()))
    | none => if disk.removes then write (·.setFile none setBy) (k (.ok ())) else k (.ok ())

/-- The `?` of the code. -/
def orReturn (k : CourseThread CourseResult) : CourseResult → CourseThread CourseResult
  | .ok () => k
  | .error e => .done (.error e)

section
variable [JsonText]

def emit (env : Surroundings) (values : List PathValue) (k : CourseThread ρ) : CourseThread ρ :=
  .step (fun t =>
    let out := t.manager.applyDelta env values
    ({ t with manager := out.1 }, out.2.map .broadcast)) fun _ => k

def clear (env : Surroundings) (disk : Disk) : CourseThread CourseResult :=
  write (·.setState none .api) <|
  persistState disk none .api <| orReturn <|
  emit env clearValues (.done (.ok ()))

namespace enableApiOnly

/-- The call returns. -/
def finish : CourseThread CourseResult :=
  write (·.setApiOnly true) (.done (.ok ()))

def erase (disk : Disk) : CourseThread CourseResult :=
  persistState disk none .api fun _ => finish

def announce (env : Surroundings) (disk : Disk) : CourseThread CourseResult :=
  emit env clearValues (erase disk)

def disown (env : Surroundings) (disk : Disk) : CourseThread CourseResult :=
  write (·.setSource .api) (announce env disk)

def forget (env : Surroundings) (disk : Disk) : CourseThread CourseResult :=
  write (·.setState none .api) (disown env disk)

def examine (env : Surroundings) (disk : Disk) : CourseThread CourseResult :=
  look CourseManager.source fun source => if source = .nmea then forget env disk else finish

end enableApiOnly

def enableApiOnly (env : Surroundings) (disk : Disk) : CourseThread CourseResult :=
  write (·.setConfig ({ · with apiOnly := true })) (enableApiOnly.examine env disk)

end

def disableApiOnly : CourseThread CourseResult :=
  write (fun t => (t.setConfig ({ · with apiOnly := false })).setApiOnly false) (.done (.ok ()))

section
variable [JsonText] [Geodesy]

/-- The store is read for the vessel's position before it is written. -/
def emitDeltas (env : Surroundings) (state : CourseState) (k : CourseThread ρ) :
    CourseThread ρ :=
  look CourseManager.store fun st =>
    let values := courseValues env.resources st state
    if values ≠ [] then emit env values k else k

/-- Persist, emit, then take the new state over. -/
def replace (env : Surroundings) (disk : Disk) (state : CourseState) (source : CourseSource) :
    CourseThread CourseResult :=
  persistState disk (some state) source <| orReturn <|
  emitDeltas env state <|
  write (·.setState (some state) source) <|
  write (·.setSource source) (.done (.ok ()))

/-- Change the state under its lock, then persist and emit what it has become. -/
def revise (env : Surroundings) (disk : Disk) (f : CourseManager → Revision)
    (notes : Tracked → List CourseNote) : CourseThread CourseResult :=
  .step (fun t =>
      (t.setState (f t.manager).state t.history.setBy,
        match (f t.manager).saved with
        | .ok (some _) => notes t
        | _ => []))
    fun t =>
      match (f t.manager).saved with
      | .error e => .done (.error e)
      | .ok none => .done (.ok ())
      | .ok (some state) =>
        persistState disk (some state) t.history.setBy <| orReturn <|
        emitDeltas env state (.done (.ok ()))

def setDestination (env : Surroundings) (disk : Disk) (req : DestinationRequest) :
    CourseThread CourseResult :=
  match CourseManager.destinationPosition env req with
  | .error e => .done (.error e)
  | .ok position =>
    look (·.store.currentVesselPosition) fun previous =>
    look CourseManager.keptCircle fun arrivalCircle =>
    replace env disk {
      startTime := some env.now
      targetArrivalTime := none
      arrivalCircle := arrivalCircle
      activeRoute := none
      nextPoint := some { type_ := .location, position := position, href := req.href }
      previousPoint := previous.map CoursePoint.ofVessel } .api

def setActiveRoute (env : Surroundings) (disk : Disk) (req : ActiveRouteRequest) :
    CourseThread CourseResult :=
  match resolveRoutePoints env.resources req.href with
  | .error e => .done (.error e)
  | .ok routePoints =>
    let points := directed req.reverse routePoints
    match points with
    | [] => .done (.error (.runtime "Route has no waypoints"))
    | first :: _ =>
      look (·.store.currentVesselPosition) fun previous =>
      look CourseManager.keptCircle fun arrivalCircle =>
      replace env disk {
        startTime := some env.now
        targetArrivalTime := none
        arrivalCircle := arrivalCircle
        activeRoute := some {
          href := req.href
          reverse := req.reverse
          pointIndex := 0
          pointTotal := UInt64.ofNat points.length
          name := none
          waypoints := none }
        nextPoint := some (CoursePoint.onRoute first)
        previousPoint := previous.map CoursePoint.ofVessel } .api

def applyNmeaPosition (env : Surroundings) (disk : Disk) (position : Position) :
    CourseThread CourseResult :=
  look CourseManager.config fun config =>
    if config.apiOnly then .done (.ok ())
    else
      look (·.store.currentVesselPosition) fun previous =>
      replace env disk {
        startTime := some env.now
        targetArrivalTime := none
        arrivalCircle := config.arrivalCircle
        activeRoute := none
        nextPoint := some { type_ := .location, position := position, href := none }
        previousPoint := previous.map CoursePoint.ofVessel } .nmea

end
end CourseThread

namespace CourseManager

/-- The state that heads for a point of the route. -/
def heading (course : CourseState) (route : ActiveRoute) (routePoints : List Position)
    (index : UInt64) : CourseState :=
  let points := directed route.reverse routePoints
  { course with
    activeRoute := some { route with pointIndex := index }
    nextPoint := points[index.toNat]?.map CoursePoint.onRoute
    previousPoint := course.nextPoint }

def unchanged (m : CourseManager) (e : PluginError) : Revision := ⟨m.state, .error e⟩

def changed (state : CourseState) : Revision := ⟨some state, .ok (some state)⟩

def advanced (env : Surroundings) (delta : Int32) (m : CourseManager) : Revision :=
  match m.following with
  | .error e => m.unchanged e
  | .ok (course, route) =>
    match resolveRoutePoints env.resources route.href with
    | .error e => m.unchanged e
    | .ok routePoints =>
      let newIndex := route.pointIndex.toInt64 + delta.toInt64
      if newIndex < 0 ∨ routePoints.length ≤ newIndex.toUInt64.toNat then
        m.unchanged (outOfRange (toString newIndex) (toString routePoints.length))
      else changed (heading course route routePoints newIndex.toUInt64)

def pointedAt (env : Surroundings) (index : UInt64) (m : CourseManager) : Revision :=
  match m.following with
  | .error e => m.unchanged e
  | .ok (course, route) =>
    match resolveRoutePoints env.resources route.href with
    | .error e => m.unchanged e
    | .ok routePoints =>
      if routePoints.length ≤ index.toNat then
        m.unchanged (outOfRange (toString index) (toString routePoints.length))
      else changed (heading course route routePoints index)

/-- The direction is turned before the route is looked up, and stays turned. -/
def reversed (env : Surroundings) (m : CourseManager) : Revision :=
  match m.following with
  | .error e => m.unchanged e
  | .ok (course, route) =>
    let route := { route with reverse := !route.reverse }
    match resolveRoutePoints env.resources route.href with
    | .error e => ⟨some { course with activeRoute := some route }, .error e⟩
    | .ok routePoints =>
      let points := directed route.reverse routePoints
      changed { course with
        activeRoute :=
          some { route with pointIndex := 0, pointTotal := UInt64.ofNat points.length }
        nextPoint := points.head?.map CoursePoint.onRoute
        previousPoint := course.nextPoint }

def timed (time : Option String) (m : CourseManager) : Revision :=
  match m.state with
  | none => m.unchanged (.runtime "No active course")
  | some course => changed { course with targetArrivalTime := time }

def circled (radius : ℚ) (m : CourseManager) : Revision :=
  match m.state with
  | none => ⟨none, .ok none⟩
  | some course => changed { course with arrivalCircle := radius }

/-- The arrival check's look at state and store: distance, circle and whether the
route goes on. -/
def arrival (m : CourseManager) : Option (ℚ × ℚ × Bool) := do
  let course ← m.state
  let distance ← (m.store.getSelfPath distancePath).bind fun value => value.value.asF64
  if 0 < course.arrivalCircle ∧ distance < course.arrivalCircle then
    let goesOn := course.activeRoute.any fun route =>
      decide (0 < route.pointTotal ∧ route.pointIndex + 1 < route.pointTotal)
    return (distance, course.arrivalCircle, goesOn)
  else none

def arrivalNotification : PathValue where
  path := "notifications.navigation.arrivalCircleEntered"
  value := Json.ofFields [("state", .string "alert"),
    ("method", .array [.string "visual", .string "sound"]),
    ("message", .string "Arrived at destination")]

/-- `load` after a start of the server: the course in the file is emitted and taken
over, as one of the API. -/
def load [JsonText] [FloatText] [Geodesy] (m : CourseManager) (env : Surroundings) :
    CourseManager × List Delta :=
  match m.stateFile.bind fun doc => CourseState.fromValue doc.reparsed with
  | none => (m, [])
  | some state =>
    let emitted := m.emitDeltas env state
    ({ emitted.1 with state := some state }, emitted.2)

end CourseManager

namespace CourseThread
variable [JsonText] [Geodesy]

def setArrivalCircle (env : Surroundings) (disk : Disk) (radius : ℚ) :
    CourseThread CourseResult :=
  write (·.setConfig ({ · with arrivalCircle := radius })) <|
  revise env disk (CourseManager.circled radius) fun _ => []

def ofOp (env : Surroundings) (disk : Disk) : CourseOp → CourseThread CourseResult
  | .setDestination req => setDestination env disk req
  | .setActiveRoute req => setActiveRoute env disk req
  | .advanceNextPoint delta => revise env disk (CourseManager.advanced env delta) fun _ => []
  | .setPointIndex index => revise env disk (CourseManager.pointedAt env index) fun _ => []
  | .reverseRoute => revise env disk (CourseManager.reversed env) fun _ => []
  | .setTargetArrivalTime time => revise env disk (CourseManager.timed time) fun _ => []
  | .setArrivalCircle radius => setArrivalCircle env disk radius
  | .clear => clear env disk
  | .nmeaPosition position => applyNmeaPosition env disk position
  | .enableApiOnly => enableApiOnly env disk
  | .disableApiOnly => disableApiOnly

/-- What is done about an arrival: advance the route, or notify at its end. -/
def arrive (env : Surroundings) (disk : Disk) (reading : ArrivalReading) (goesOn : Bool) :
    CourseThread Bool :=
  let note (t : Tracked) := [CourseNote.arrived reading t.history.legs goesOn]
  if goesOn then
    (revise env disk (CourseManager.advanced env 1) note).andThen fun _ => .done true
  else
    .step (fun t =>
      let out := t.manager.applyDelta env [CourseManager.arrivalNotification]
      ({ t with manager := out.1 }, note t ++ out.2.map .broadcast)) fun _ => .done true

def checkArrival (env : Surroundings) (disk : Disk) : CourseThread Bool :=
  .step (fun t => (t, [])) fun t =>
    match t.manager.arrival with
    | none => .done false
    | some (distance, circle, goesOn) =>
      arrive env disk ⟨distance, circle, t.history.distanceLeg⟩ goesOn

/-- The positions that the NMEA listener takes from a delta, whatever its context. -/
def nmeaPositions (delta : Delta) : List Position :=
  (delta.updates.filter fun update => decide (update.source.label ≠ "course-manager")).flatMap
    fun update => update.values.filterMap fun pv =>
      if pv.path = "navigation.courseGreatCircle.nextPoint.position" ∨
          pv.path = "navigation.courseRhumbline.nextPoint.position" then
        Position.fromValue pv.value
      else none

/-- Each position is applied in turn; a failure is only logged. -/
def applyPositions (around : Nat → Surroundings × Disk) :
    List Position → CourseThread CourseResult
  | [] => .done (.ok ())
  | position :: positions =>
    (applyNmeaPosition (around 0).1 (around 0).2 position).andThen fun _ =>
      applyPositions (fun n => around (n + 1)) positions

end CourseThread

structure CourseCall where
  env : Surroundings
  disk : Disk
  op : CourseOp

/-- Who runs threads on the manager: a caller, the listener for a delta, the timer. -/
inductive CourseParty where
  | request (call : CourseCall)
  | received (around : Nat → Surroundings × Disk) (delta : Delta)
  | tick (env : Surroundings) (disk : Disk)

section
variable [JsonText] [Geodesy]

def CourseCall.thread (c : CourseCall) : CourseThread CourseResult :=
  CourseThread.ofOp c.env c.disk c.op

def CourseParty.thread : CourseParty → CourseThread CourseResult
  | .request call => call.thread
  | .received around delta =>
    CourseThread.applyPositions around (CourseThread.nmeaPositions delta)
  | .tick env disk => (CourseThread.checkArrival env disk).andThen fun _ => .done (.ok ())

/-- A new manager over a new store; only the file is left of the old one. -/
def Tracked.restart [FloatText] (t : Tracked) (start : Surroundings × SignalKStore) :
    Tracked × List CourseNote :=
  let loaded :=
    { CourseManager.new start.2 with stateFile := t.manager.stateFile }.load start.1
  ({ manager := loaded.1
     history := { t.history with
       setBy := t.history.filedBy
       legs := t.history.legs + 1
       distanceLeg := none } }, loaded.2.map .broadcast)

end
end SignalK

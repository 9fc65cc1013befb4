import SignalK.Lib.Text
import SignalK.Types.Resources

/-! Positions and routes taken from resources, and the distances along them. The
trigonometry of a distance is left open. -/
namespace SignalK

inductive PluginError where
  | config (message : String)
  | io (message : String)
  | json (message : String)
  | runtime (message : String)
  | invalidState (message : String)
  | registration (message : String)
  | notFound (message : String)
  | badRequest (message : String)
  | other (message : String)
  deriving DecidableEq

/-- A resource provider's answer for a type and an id. -/
abbrev Resources := String → String → Except PluginError (Option Json)

/-- Double arithmetic as far as distances need it; `none` is not a finite number. -/
class Geodesy where
  add : ℚ → ℚ → Option ℚ
  haversineMeters : ℚ → ℚ → ℚ → ℚ → Option ℚ

/-- For runs in which no distance is looked at. -/
@[reducible] def Geodesy.unused : Geodesy := ⟨fun _ _ => none, fun _ _ _ _ => none⟩

def addMeters [Geodesy] (a b : Option ℚ) : Option ℚ :=
  a.bind fun x => b.bind fun y => Geodesy.add x y

def routeRemainingDistance [Geodesy] (waypoints : List (ℚ × ℚ)) (fromIndex : Nat) : Option ℚ :=
  if waypoints.length ≤ fromIndex + 1 then some 0
  else
    ((waypoints.drop fromIndex).zip (waypoints.drop (fromIndex + 1))).foldl
      (fun total pair =>
        addMeters total (Geodesy.haversineMeters pair.1.1 pair.1.2 pair.2.1 pair.2.2))
      (some 0)

/-- `value.pointer(..)` for tokens that are not array indices. -/
def Json.pointer (tokens : List String) (value : Json) : Option Json :=
  tokens.foldl (fun j token => j.bind fun j => j.get token) (some value)

/-- `/resources/waypoints/abc-123` as `("waypoints", "abc-123")`. -/
def parseResourceHref (href : String) : Except PluginError (String × String) :=
  match Text.split '/' (String.ofList (href.toList.dropWhile (· = '/'))) with
  | "resources" :: resourceType :: id :: rest =>
    .ok (resourceType, Text.join '/' (id :: rest))
  | _ => .error (.config ("Invalid resource href: " ++ href))

/-- Longitude and latitude of a GeoJSON coordinate. -/
def coordinate (coord : Json) : Option Position := do
  let longitude ← (coord.getIdx 0).bind Json.asF64
  let latitude ← (coord.getIdx 1).bind Json.asF64
  return { latitude := latitude, longitude := longitude, altitude := none }

def directPosition (pos : Json) : Option Position := do
  let latitude ← (pos.get "latitude").bind Json.asF64
  let longitude ← (pos.get "longitude").bind Json.asF64
  return {
    latitude := latitude
    longitude := longitude
    altitude := (pos.get "altitude").bind Json.asF64 }

def extractPosition (value : Json) : Except PluginError Position :=
  match (value.get "position").bind directPosition with
  | some position => .ok position
  | none =>
    match ((value.pointer ["feature", "geometry", "coordinates"]).or
        (value.pointer ["geometry", "coordinates"])).bind coordinate with
    | some position => .ok position
    | none => .error (.runtime "Could not extract position from resource")

/-- The resource behind an href, with the name that its absence is reported under. -/
def lookupResource (resources : Resources) (kind href : String) : Except PluginError Json :=
  match parseResourceHref href with
  | .error e => .error e
  | .ok (resourceType, id) =>
    match resources resourceType id with
    | .error e => .error e
    | .ok none => .error (.runtime (kind ++ " not found: " ++ href))
    | .ok (some value) => .ok value

def resolveWaypointPosition (resources : Resources) (href : String) :
    Except PluginError Position :=
  (lookupResource resources "Waypoint" href).bind extractPosition

/-- The points of a GeoJSON line. -/
def linePositions (value : Json) : List Position :=
  let line := ((value.pointer ["feature", "geometry", "coordinates"]).or
    (value.pointer ["geometry", "coordinates"])).or (value.get "coordinates")
  ((line.bind Json.asArray).getD []).filterMap coordinate

def waypointPositions (value : Json) : List Position :=
  (((value.get "waypoints").bind Json.asArray).getD []).filterMap fun wp =>
    (extractPosition wp).toOption

def extractRoutePoints (href : String) (value : Json) : Except PluginError (List Position) :=
  if linePositions value ≠ [] then .ok (linePositions value)
  else if waypointPositions value ≠ [] then .ok (waypointPositions value)
  else .error (.runtime ("Could not extract route points from " ++ href))

def resolveRoutePoints (resources : Resources) (href : String) :
    Except PluginError (List Position) :=
  (lookupResource resources "Route" href).bind (extractRoutePoints href)

/-- A route that resolves has a point. -/
theorem resolveRoutePoints_ne_nil {resources : Resources} {href : String}
    {points : List Position} (h : resolveRoutePoints resources href = .ok points) :
    points ≠ [] := by
  unfold resolveRoutePoints at h
  cases hv : lookupResource resources "Route" href with
  | error e =>
    rw [hv] at h
    cases h
  | ok value =>
    rw [hv] at h
    simp only [Except.bind, extractRoutePoints] at h
    split_ifs at h with hl hw
    · cases h
      exact hl
    · cases h
      exact hw

example : parseResourceHref "/resources/waypoints/abc-123" = .ok ("waypoints", "abc-123") := by
  decide

end SignalK

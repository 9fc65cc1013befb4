import Mathlib.Data.List.Nodup
import SignalK.Types.Json

/-! Positions and the course state, with their derived JSON form. Only the object
form of a structure is decoded, the one that the serializer writes. -/
namespace SignalK

/-- What serde_json's parser, at its default precision, makes of the text that its
printer writes for a double. -/
class FloatText where
  reparse : ℚ → ℚ
  reparse_zero : reparse 0 = 0

/-- For doubles whose text reads back as the same double. -/
@[reducible] def FloatText.exact : FloatText := ⟨id, rfl⟩

namespace Json

def asBool : Json → Option Bool
  | bool b => some b
  | _ => none

def asU64 : Json → Option UInt64
  | number (.posInt n) => some n
  | _ => none

/-- The object of the fields that are not skipped. -/
def ofPresent (fields : List (String × Option Json)) : Json :=
  ofFields (fields.filterMap fun e => e.2.map fun j => (e.1, j))

/-- An optional field: absent and null are both `None`. -/
def optional {α : Type} (decode : Json → Option α) : Option Json → Option (Option α)
  | none => some none
  | some null => some none
  | some j => (decode j).map some

def ofList {α : Type} (enc : α → Json) (as : List α) : Json :=
  array (as.map enc)

def asList {α : Type} (decode : Json → Option α) : Json → Option (List α)
  | array items => items.mapM decode
  | _ => none

/-- A structure decoded from the fields of an object. -/
def decodeObject {α : Type} (decode : (String → Option Json) → Option α) : Json → Option α
  | object fields => decode (get (object fields))
  | _ => none

/-- A field with `#[serde(default)]`. -/
def withDefault {α : Type} (default : α) (decode : Json → Option α) : Option Json → Option α
  | none => some default
  | some j => decode j

mutual
/-- The document that reading a document's text gives. -/
def reparsed [FloatText] : Json → Json
  | number (.float x) => number (.float (FloatText.reparse x))
  | array items => array (reparsedItems items)
  | object fields => object (reparsedFields fields)
  | null => null
  | bool b => bool b
  | number (.posInt n) => number (.posInt n)
  | number (.negInt n) => number (.negInt n)
  | string s => string s

def reparsedItems [FloatText] : List Json → List Json
  | [] => []
  | j :: items => reparsed j :: reparsedItems items

def reparsedFields [FloatText] : List (String × Json) → List (String × Json)
  | [] => []
  | (key, j) :: fields => (key, reparsed j) :: reparsedFields fields
end

theorem reparsedItems_eq [FloatText] (items : List Json) :
    reparsedItems items = items.map reparsed := by
  induction items with
  | nil => rfl
  | cons j items ih => rw [reparsedItems, ih, List.map_cons]

theorem get_reparsed [FloatText] (j : Json) (key : String) :
    j.reparsed.get key = (j.get key).map reparsed := by
  cases j with
  | object fields =>
    simp only [reparsed, get]
    induction fields with
    | nil => rfl
    | cons e fields ih =>
      obtain ⟨k, v⟩ := e
      by_cases hk : key = k
      · simp [reparsedFields, SortedMap.get, hk]
      · simpa [reparsedFields, SortedMap.get, hk] using ih
  | number n => cases n <;> rfl
  | null => rfl
  | bool b => rfl
  | string s => rfl
  | array items => rfl

/-- Every field of an object reads back, a skipped one as absent. -/
theorem get_ofPresent {fields : List (String × Option Json)} (hn : (fields.map Prod.fst).Nodup)
    {key : String} {o : Option Json} (h : (key, o) ∈ fields) : (ofPresent fields).get key = o := by
  have hmem : ∀ e : String × Json, e ∈ fields.filterMap (fun e => e.2.map fun j => (e.1, j)) ↔
      (e.1, some e.2) ∈ fields := by
    intro e
    simp only [List.mem_filterMap, Option.map_eq_some_iff]
    constructor
    · intro he
      obtain ⟨⟨k, v⟩, hm, w, hw, rfl⟩ := he
      rwa [← show v = some w from hw]
    · intro hm
      exact ⟨_, hm, e.2, rfl, rfl⟩
  cases o with
  | some j =>
    have hsub : ((fields.filterMap fun e => e.2.map fun j => (e.1, j)).map Prod.fst).Sublist
        (fields.map Prod.fst) := by
      clear hn h hmem
      induction fields with
      | nil => exact List.Sublist.slnil
      | cons e fields ih =>
        obtain ⟨k, v⟩ := e
        cases v with
        | none => simpa using ih.cons k
        | some v => simpa using ih
    exact SortedMap.get_foldl_insert (hn.sublist hsub) ((hmem (key, j)).mpr h) []
  | none =>
    refine SortedMap.get_foldl_insert_ne (fun e he hk => ?_) []
    have heq := List.inj_on_of_nodup_map hn h ((hmem e).mp he) hk
    cases heq

/-- An optional field that is skipped when absent. -/
theorem optional_skipped [FloatText] {α : Type} {decode : Json → Option α} {enc : α → Json}
    {f : α → α} (hnull : decode null = none) (h : ∀ a, decode (enc a).reparsed = some (f a))
    (o : Option α) : optional decode ((o.map enc).map reparsed) = some (o.map f) := by
  cases o with
  | none => rfl
  | some a =>
    have ha := h a
    simp only [Option.map_some]
    cases hj : (enc a).reparsed with
    | null =>
      rw [hj, hnull] at ha
      cases ha
    | _ =>
      rw [hj] at ha
      simp [optional, ha]

/-- An optional field that is null when absent. -/
theorem optional_nullable [FloatText] {α : Type} {decode : Json → Option α} {enc : α → Json}
    {f : α → α} (hnull : decode null = none) (h : ∀ a, decode (enc a).reparsed = some (f a))
    (o : Option α) : optional decode ((some (o.elim null enc)).map reparsed) = some (o.map f) := by
  cases o with
  | none => rfl
  | some a => exact optional_skipped hnull h (some a)

theorem optional_string_skipped [FloatText] (o : Option String) :
    optional asStr ((o.map string).map reparsed) = some o := by
  have h : optional asStr ((o.map string).map reparsed) = some (o.map id) :=
    optional_skipped (by rfl) (by intro s; rfl) o
  rwa [Option.map_id] at h

theorem optional_string_nullable [FloatText] (o : Option String) :
    optional asStr ((some (o.elim null string)).map reparsed) = some o := by
  have h : optional asStr ((some (o.elim null string)).map reparsed) = some (o.map id) :=
    optional_nullable (by rfl) (by intro s; rfl) o
  rwa [Option.map_id] at h

theorem asList_reparsed [FloatText] {α : Type} {decode : Json → Option α} {enc : α → Json}
    {f : α → α} (h : ∀ a, decode (enc a).reparsed = some (f a)) (as : List α) :
    asList decode (ofList enc as).reparsed = some (as.map f) := by
  have hitems : (ofList enc as).reparsed = array (as.map fun a => (enc a).reparsed) := by
    simp [ofList, reparsed, reparsedItems_eq, Function.comp_def]
  rw [hitems, asList]
  induction as with
  | nil => rfl
  | cons a as ih =>
    have ht := ih (by simp [ofList, reparsed, reparsedItems_eq, Function.comp_def])
    simp [h, ht]

/-- Decoding an object that was written out and read back. -/
theorem decodeObject_reparsed [FloatText] {α : Type} (decode : (String → Option Json) → Option α)
    (fields : List (String × Option Json)) :
    decodeObject decode (ofPresent fields).reparsed =
      decode fun key => ((ofPresent fields).get key).map reparsed := by
  rw [← funext (get_reparsed (ofPresent fields))]
  rfl

end Json

@[ext] structure Position where
  latitude : ℚ
  longitude : ℚ
  altitude : Option ℚ
  deriving DecidableEq

inductive PointType where
  | location | vesselPosition | routePoint
  deriving DecidableEq

structure CoursePoint where
  type_ : PointType
  position : Position
  href : Option String
  deriving DecidableEq

structure ActiveRoute where
  href : String
  reverse : Bool
  pointIndex : UInt64
  pointTotal : UInt64
  name : Option String
  waypoints : Option (List Position)
  deriving DecidableEq

structure CourseState where
  startTime : Option String
  targetArrivalTime : Option String
  arrivalCircle : ℚ
  activeRoute : Option ActiveRoute
  nextPoint : Option CoursePoint
  previousPoint : Option CoursePoint
  deriving DecidableEq

namespace Position

def toFields (p : Position) : List (String × Option Json) :=
  [("latitude", some (.ofF64 p.latitude)), ("longitude", some (.ofF64 p.longitude)),
    ("altitude", p.altitude.map .ofF64)]

def toValue (p : Position) : Json := .ofPresent p.toFields

def fromFields (field : String → Option Json) : Option Position := do
  let latitude ← (field "latitude").bind Json.asF64
  let longitude ← (field "longitude").bind Json.asF64
  let altitude ← Json.optional Json.asF64 (field "altitude")
  return { latitude := latitude, longitude := longitude, altitude := altitude }

def fromValue : Json → Option Position := Json.decodeObject fromFields

/-- The position once its numbers have gone through their text. -/
def reread [FloatText] (p : Position) : Position where
  latitude := FloatText.reparse p.latitude
  longitude := FloatText.reparse p.longitude
  altitude := p.altitude.map FloatText.reparse

theorem fromValue_reparsed [FloatText] (p : Position) :
    fromValue p.toValue.reparsed = some p.reread := by
  have hn : (p.toFields.map Prod.fst).Nodup := by simp [toFields]
  have hget : ∀ e ∈ p.toFields, p.toValue.get e.1 = e.2 := fun e => Json.get_ofPresent hn
  simp only [toFields, List.forall_mem_cons] at hget
  obtain ⟨hlat, hlon, halt, -⟩ := hget
  have ho : Json.optional Json.asF64 ((p.altitude.map Json.ofF64).map Json.reparsed) =
      some (p.altitude.map FloatText.reparse) :=
    Json.optional_skipped (by rfl) (by intro x; rfl) p.altitude
  rw [fromValue, toValue, Json.decodeObject_reparsed, ← toValue, fromFields, hlat, hlon, halt, ho]
  rfl

theorem reread_exact (p : Position) : @reread FloatText.exact p = p :=
  Position.ext rfl rfl (congrFun Option.map_id p.altitude)

end Position

namespace PointType

def toValue : PointType → Json
  | .location => .string "Location"
  | .vesselPosition => .string "VesselPosition"
  | .routePoint => .string "RoutePoint"

def fromValue : Json → Option PointType
  | .string "Location" => some .location
  | .string "VesselPosition" => some .vesselPosition
  | .string "RoutePoint" => some .routePoint
  | _ => none

theorem fromValue_reparsed [FloatText] (t : PointType) :
    fromValue t.toValue.reparsed = some t := by
  cases t <;> rfl

end PointType

namespace CoursePoint

def toFields (p : CoursePoint) : List (String × Option Json) :=
  [("type", some p.type_.toValue), ("position", some p.position.toValue),
    ("href", p.href.map .string)]

def toValue (p : CoursePoint) : Json := .ofPresent p.toFields

def fromFields (field : String → Option Json) : Option CoursePoint := do
  let type_ ← (field "type").bind PointType.fromValue
  let position ← (field "position").bind Position.fromValue
  let href ← Json.optional Json.asStr (field "href")
  return { type_ := type_, position := position, href := href }

def fromValue : Json → Option CoursePoint := Json.decodeObject fromFields

def reread [FloatText] (p : CoursePoint) : CoursePoint :=
  { p with position := p.position.reread }

theorem fromValue_reparsed [FloatText] (p : CoursePoint) :
    fromValue p.toValue.reparsed = some p.reread := by
  have hn : (p.toFields.map Prod.fst).Nodup := by simp [toFields]
  have hget : ∀ e ∈ p.toFields, p.toValue.get e.1 = e.2 := fun e => Json.get_ofPresent hn
  simp only [toFields, List.forall_mem_cons] at hget
  obtain ⟨htype, hpos, hhref, -⟩ := hget
  have ho := Json.optional_string_skipped p.href
  rw [fromValue, toValue, Json.decodeObject_reparsed, ← toValue, fromFields, htype, hpos, hhref, ho]
  simp [PointType.fromValue_reparsed, Position.fromValue_reparsed, reread]

end CoursePoint

namespace ActiveRoute

def toFields (r : ActiveRoute) : List (String × Option Json) :=
  [("href", some (.string r.href)), ("reverse", some (.bool r.reverse)),
    ("pointIndex", some (.number (.posInt r.pointIndex))),
    ("pointTotal", some (.number (.posInt r.pointTotal))), ("name", r.name.map .string),
    ("waypoints", r.waypoints.map (Json.ofList Position.toValue))]

def toValue (r : ActiveRoute) : Json := .ofPresent r.toFields

def fromFields (field : String → Option Json) : Option ActiveRoute := do
  let href ← (field "href").bind Json.asStr
  let reverse ← Json.withDefault false Json.asBool (field "reverse")
  let pointIndex ← Json.withDefault 0 Json.asU64 (field "pointIndex")
  let pointTotal ← Json.withDefault 0 Json.asU64 (field "pointTotal")
  let name ← Json.optional Json.asStr (field "name")
  let waypoints ← Json.optional (Json.asList Position.fromValue) (field "waypoints")
  return {
    href := href
    reverse := reverse
    pointIndex := pointIndex
    pointTotal := pointTotal
    name := name
    waypoints := waypoints }

def fromValue : Json → Option ActiveRoute := Json.decodeObject fromFields

def reread [FloatText] (r : ActiveRoute) : ActiveRoute :=
  { r with waypoints := r.waypoints.map (·.map Position.reread) }

theorem fromValue_reparsed [FloatText] (r : ActiveRoute) :
    fromValue r.toValue.reparsed = some r.reread := by
  have hn : (r.toFields.map Prod.fst).Nodup := by simp [toFields]
  have hget : ∀ e ∈ r.toFields, r.toValue.get e.1 = e.2 := fun e => Json.get_ofPresent hn
  simp only [toFields, List.forall_mem_cons] at hget
  obtain ⟨hhref, hrev, hidx, htotal, hname, hwps, -⟩ := hget
  have hn := Json.optional_string_skipped r.name
  have hw := Json.optional_skipped (by rfl)
    (Json.asList_reparsed Position.fromValue_reparsed) r.waypoints
  rw [fromValue, toValue, Json.decodeObject_reparsed, ← toValue, fromFields, hhref, hrev, hidx,
    htotal, hname, hwps, hn, hw]
  rfl

end ActiveRoute

namespace CourseState

def toFields (s : CourseState) : List (String × Option Json) :=
  [("startTime", s.startTime.map .string),
    ("targetArrivalTime", some (s.targetArrivalTime.elim .null .string)),
    ("arrivalCircle", some (.ofF64 s.arrivalCircle)),
    ("activeRoute", some (s.activeRoute.elim .null ActiveRoute.toValue)),
    ("nextPoint", s.nextPoint.map CoursePoint.toValue),
    ("previousPoint", s.previousPoint.map CoursePoint.toValue)]

def toValue (s : CourseState) : Json := .ofPresent s.toFields

def fromFields (field : String → Option Json) : Option CourseState := do
  let startTime ← Json.optional Json.asStr (field "startTime")
  let targetArrivalTime ← Json.optional Json.asStr (field "targetArrivalTime")
  let arrivalCircle ← Json.withDefault 0 Json.asF64 (field "arrivalCircle")
  let activeRoute ← Json.optional ActiveRoute.fromValue (field "activeRoute")
  let nextPoint ← Json.optional CoursePoint.fromValue (field "nextPoint")
  let previousPoint ← Json.optional CoursePoint.fromValue (field "previousPoint")
  return {
    startTime := startTime
    targetArrivalTime := targetArrivalTime
    arrivalCircle := arrivalCircle
    activeRoute := activeRoute
    nextPoint := nextPoint
    previousPoint := previousPoint }

def fromValue : Json → Option CourseState := Json.decodeObject fromFields

def reread [FloatText] (s : CourseState) : CourseState where
  startTime := s.startTime
  targetArrivalTime := s.targetArrivalTime
  arrivalCircle := FloatText.reparse s.arrivalCircle
  activeRoute := s.activeRoute.map ActiveRoute.reread
  nextPoint := s.nextPoint.map CoursePoint.reread
  previousPoint := s.previousPoint.map CoursePoint.reread

theorem reread_eq_iff [FloatText] (s : CourseState) :
    s.reread = s ↔ FloatText.reparse s.arrivalCircle = s.arrivalCircle ∧
      s.activeRoute.map ActiveRoute.reread = s.activeRoute ∧
      s.nextPoint.map CoursePoint.reread = s.nextPoint ∧
      s.previousPoint.map CoursePoint.reread = s.previousPoint := by
  cases s
  simp [reread]

/-- A state that is written out and read back differs only in the digits of its
numbers. -/
theorem fromValue_reparsed [FloatText] (s : CourseState) :
    fromValue s.toValue.reparsed = some s.reread := by
  have hn : (s.toFields.map Prod.fst).Nodup := by simp [toFields]
  have hget : ∀ e ∈ s.toFields, s.toValue.get e.1 = e.2 := fun e => Json.get_ofPresent hn
  simp only [toFields, List.forall_mem_cons] at hget
  obtain ⟨hstart, htarget, hcircle, hroute, hnext, hprev, -⟩ := hget
  have hs := Json.optional_string_skipped s.startTime
  have ht := Json.optional_string_nullable s.targetArrivalTime
  have hr := Json.optional_nullable (by rfl)
    ActiveRoute.fromValue_reparsed s.activeRoute
  have hn := Json.optional_skipped (by rfl)
    CoursePoint.fromValue_reparsed s.nextPoint
  have hp := Json.optional_skipped (by rfl)
    CoursePoint.fromValue_reparsed s.previousPoint
  rw [fromValue, toValue, Json.decodeObject_reparsed, ← toValue, fromFields, hstart, htarget,
    hcircle, hroute, hnext, hprev, hs, ht, hr, hn, hp]
  rfl

end CourseState
end SignalK

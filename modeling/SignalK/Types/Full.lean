import SignalK.Types.Delta
import SignalK.Types.Meta
import SignalK.Types.Path

/-! The values a vessel holds: flat maps from dot-paths to leaf values, and their
nested JSON form. The order in which a map is iterated is a list of its entries. -/
namespace SignalK

/-- One source's value in the `values` map of a leaf. -/
structure SourceValue where
  value : Json
  timestamp : DateTime
  deriving DecidableEq

structure SignalKValue where
  value : Json
  source : SourceRef
  timestamp : DateTime
  meta_ : Option Metadata
  values : Option (HashMap String SourceValue)
  deriving DecidableEq

def SignalKValue.new (value : Json) (source : SourceRef) (timestamp : DateTime) :
    SignalKValue where
  value := value
  source := source
  timestamp := timestamp
  meta_ := none
  values := none

structure VesselData where
  uuid : Option String
  name : Option String
  mmsi : Option String
  values : HashMap String SignalKValue
  deriving DecidableEq

/-- `VesselData::default()`. -/
def VesselData.empty : VesselData where
  uuid := none
  name := none
  mmsi := none
  values := ∅

/-- What the JSON of a leaf takes from elsewhere: chrono's text of a timestamp,
the derived codec of the metadata, and the order in which a map of per-source
values is iterated. -/
class LeafText where
  timestamp : DateTime → String
  metadata : Metadata → Json
  sourceOrder : HashMap String SourceValue → List (String × SourceValue)

/-- For leaves of one instant, without metadata and per-source values. -/
@[reducible] def LeafText.plain (time : String) : LeafText where
  timestamp _ := time
  metadata _ := .null
  sourceOrder _ := []

def SourceValue.toValue [LeafText] (v : SourceValue) : Json :=
  Json.ofFields [("value", v.value), ("timestamp", .string (LeafText.timestamp v.timestamp))]

/-- The derived serializer of a leaf; absent metadata and sources are skipped. -/
def SignalKValue.toValue [LeafText] (v : SignalKValue) : Json :=
  Json.ofFields <|
    [("value", v.value), ("$source", .string v.source),
      ("timestamp", .string (LeafText.timestamp v.timestamp))] ++
    (match v.meta_ with
      | none => []
      | some m => [("meta", LeafText.metadata m)]) ++
    match v.values with
    | none => []
    | some values =>
      [("values", Json.ofFields ((LeafText.sourceOrder values).map fun e => (e.1, e.2.toValue)))]

/-- Insert at a nested path: the objects on the way are created or merged into,
and the value is dropped when something else stands there. -/
def insertNested (map : List (String × Json)) : List String → Json → List (String × Json)
  | [], _ => map
  | [head], value => SortedMap.insert head value map
  | head :: key :: tail, value =>
    match SortedMap.get head map with
    | none => SortedMap.insert head (.object (insertNested [] (key :: tail) value)) map
    | some (.object nested) =>
      SortedMap.insert head (.object (insertNested nested (key :: tail) value)) map
    | some _ => map

/-- The identity fields of a vessel, which come first. -/
def VesselData.identity (v : VesselData) : List (String × String) :=
  (v.uuid.map fun s => ("uuid", s)).toList ++ (v.name.map fun s => ("name", s)).toList ++
    (v.mmsi.map fun s => ("mmsi", s)).toList

/-- `VesselData::serialize`, its values visited in the given order. -/
def VesselData.toFields [LeafText] (v : VesselData) (entries : List (String × SignalKValue)) :
    List (String × Json) :=
  let map := v.identity.foldl (fun map e => SortedMap.insert e.1 (.string e.2) map) []
  entries.foldl (fun map e => insertNested map (segments e.1) e.2.toValue) map

/-- The three fields that make an object a leaf. -/
def isLeaf (obj : List (String × Json)) : Bool :=
  (SortedMap.get "value" obj).isSome && (SortedMap.get "$source" obj).isSome &&
    (SortedMap.get "timestamp" obj).isSome

section
variable (fromValue : Json → Except String SignalKValue)

mutual
def flattenInto (pre : String) :
    Json → HashMap String SignalKValue → Except String (HashMap String SignalKValue)
  | .object obj, map =>
    if isLeaf obj then (fromValue (.object obj)).map fun sk => map.insert pre sk
    else flattenFields pre obj map
  | _, map => .ok map

/-- The children of an object that is no leaf. -/
def flattenFields (pre : String) :
    List (String × Json) → HashMap String SignalKValue →
      Except String (HashMap String SignalKValue)
  | [], map => .ok map
  | (key, val) :: obj, map =>
    (flattenInto (if pre = "" then key else pre ++ "." ++ key) val map).bind
      (flattenFields pre obj)
end

/-- One top-level field of a vessel. -/
def VesselData.readField (vessel : VesselData) (key : String) (val : Json) :
    Except String VesselData :=
  if key = "uuid" then .ok { vessel with uuid := val.asStr }
  else if key = "name" then .ok { vessel with name := val.asStr }
  else if key = "mmsi" then .ok { vessel with mmsi := val.asStr }
  else (flattenInto fromValue key val vessel.values).map
    fun values => { vessel with values := values }

/-- `VesselData::deserialize`, given the codec of a leaf. -/
def VesselData.ofFields (raw : List (String × Json)) : Except String VesselData :=
  raw.foldlM (fun vessel e => vessel.readField fromValue e.1 e.2) VesselData.empty

end
end SignalK

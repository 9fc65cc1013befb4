import SignalK.Store.Store
import SignalK.Types.Nesting

/-! The full data model as the REST API serves it: the store's vessels, the self
vessel's leaves enriched with metadata and per-source values, and the sources. -/
namespace SignalK

structure FullModel where
  version : String
  selfUri : String
  vessels : HashMap String VesselData
  sources : Json

/-- One registered source: two levels when its reference has a dot. -/
def addSource (root : List (String × Json)) (ref : SourceRef) (source : Json) :
    List (String × Json) :=
  match Text.split '.' ref with
  | label :: part :: parts =>
    let suffix := Text.join '.' (part :: parts)
    match SortedMap.get label root with
    | none => SortedMap.insert label (.object (SortedMap.insert suffix source [])) root
    | some (.object labelMap) =>
      SortedMap.insert label (.object (SortedMap.insert suffix source labelMap)) root
    | some _ => root
  | _ => SortedMap.insert ref source root

/-- The sources registry in the order it is iterated, each source as its JSON. -/
def buildSourcesHierarchy (sources : List (SourceRef × Json)) : Json :=
  .object (sources.foldl (fun root e => addSource root e.1 e.2) [])

namespace SignalKStore

/-- Explicit metadata first, then the defaults; per-source values from two on. -/
def enrich (st : SignalKStore) (path : String) (sv : SignalKValue) : SignalKValue where
  value := sv.value
  source := sv.source
  timestamp := sv.timestamp
  meta_ := ((st.metadata.lookup path).or (defaultMetadata path)).or sv.meta_
  values :=
    match st.multiSource.lookup path with
    | none => sv.values
    | some sourceMap =>
      if sourceMap.keys.card > 1 then
        some (sourceMap.mapValues fun _ v => { value := v.value, timestamp := v.timestamp })
      else sv.values

def modelVessel (st : SignalKStore) (uri : String) (vessel : VesselData) : VesselData :=
  if uri = st.selfUri then { vessel with values := vessel.values.mapValues st.enrich } else vessel

/-- `full_model`, given the sources registry in JSON, in the order of iteration. -/
def fullModel (st : SignalKStore) (sources : List (SourceRef × Json)) : FullModel where
  version := "1.7.0"
  selfUri := "vessels." ++ st.selfUri
  vessels := st.vessels.mapValues st.modelVessel
  sources := buildSourcesHierarchy sources

end SignalKStore

/-- Orders in which the maps of a model may be iterated. -/
structure ModelOrder (model : FullModel) where
  vessels : List (String × VesselData)
  values : String → List (String × SignalKValue)
  vessels_order : HashMap.IterOrder vessels model.vessels
  values_order : ∀ uri vessel, model.vessels.lookup uri = some vessel →
    HashMap.IterOrder (values uri) vessel.values

/-- The derived serializer of a model. -/
def FullModel.toValue [LeafText] (model : FullModel) (order : ModelOrder model) : Json :=
  Json.ofFields
    [("version", .string model.version), ("self", .string model.selfUri),
      ("vessels", Json.ofFields
        (order.vessels.map fun e => (e.1, .object (e.2.toFields (order.values e.1))))),
      ("sources", model.sources)]

/-- `traverse_json`: follow the segments of a URL. -/
def traverseJson : Json → List String → Option Json
  | value, [] => some value
  | .object map, part :: parts =>
    match SortedMap.get part map with
    | none => none
    | some child => traverseJson child parts
  | _, _ :: _ => none

theorem traverseJson_eq (value : Json) (parts : List String) :
    traverseJson value parts = Nested.traverse value parts := by
  induction parts generalizing value with
  | nil => cases value <;> rfl
  | cons part parts ih =>
    cases value with
    | object map =>
      have ho := Nested.traverse_object map part parts
      cases hg : SortedMap.get part map with
      | none =>
        rw [hg] at ho
        simp only [traverseJson, hg]
        exact ho.symm
      | some child =>
        rw [hg] at ho
        simp only [traverseJson, hg, ih]
        exact ho.symm
    | _ => rfl

/-- A vessel of the model is found under its URI. -/
theorem FullModel.traverse_vessel [LeafText] (model : FullModel) (order : ModelOrder model)
    {uri : String} {vessel : VesselData} (h : model.vessels.lookup uri = some vessel)
    (parts : List String) :
    traverseJson (model.toValue order) ("vessels" :: uri :: parts) =
      Nested.traverse (Json.object (vessel.toFields (order.values uri))) parts := by
  have hmem := (order.vessels_order.mem_iff uri vessel).mpr h
  have hn : ((order.vessels.map fun e => (e.1, Json.object (e.2.toFields (order.values e.1)))).map
      Prod.fst).Nodup := by
    simpa [Function.comp_def] using order.vessels_order.nodup
  have hget : SortedMap.get uri
      ((order.vessels.map fun e => (e.1, Json.object (e.2.toFields (order.values e.1)))).foldl
        (fun m e => SortedMap.insert e.1 e.2 m) []) =
      some (.object (vessel.toFields (order.values uri))) :=
    SortedMap.get_foldl_insert hn (List.mem_map.mpr ⟨(uri, vessel), hmem, rfl⟩) []
  simp only [FullModel.toValue, Json.ofFields, traverseJson, List.foldl_cons, List.foldl_nil,
    SortedMap.get_insert]
  simp only [String.reduceEq, if_true, if_false, traverseJson, hget, traverseJson_eq]

end SignalK

import SignalK.Tracks.Exact
import SignalK.Tracks.Gpx

/-! The tracks as GeoJSON, the answers of the plugin with their bodies, and what a reader of the
features finds in them. -/
namespace SignalK.Tracks

def LabelledTrack.totalPoints (track : LabelledTrack) : Nat :=
  (track.segments.map List.length).sum

def LabelledTrack.oldest (track : LabelledTrack) : Option String :=
  track.segments.head?.bind fun s => s.head?.map fun p => Rfc3339.utc p.timestamp

def LabelledTrack.newest (track : LabelledTrack) : Option String :=
  track.segments.getLast?.bind fun s => s.getLast?.map fun p => Rfc3339.utc p.timestamp

/-- A field that is set if there is a value. -/
def optionalField (key : String) (value : Option String) : List (String × Json) :=
  (value.map fun s => (key, Json.string s)).toList

def coordinates (track : LabelledTrack) : Json :=
  .array (track.segments.map fun points =>
    .array (points.map fun p => .array [.ofF64 p.lon, .ofF64 p.lat]))

def trackToFeature (track : LabelledTrack) : Json :=
  .ofFields
    [("type", .string "Feature"),
      ("properties", .ofFields (
        [("context", .string track.context),
          ("pointCount", .number (.posInt (UInt64.ofNat track.totalPoints)))] ++
        optionalField "label" track.label ++ optionalField "oldest" track.oldest ++
        optionalField "newest" track.newest)),
      ("geometry", .ofFields
        [("type", .string "MultiLineString"), ("coordinates", coordinates track)])]

def tracksToGeojson (tracks : List LabelledTrack) : Json :=
  .ofFields [("type", .string "FeatureCollection"),
    ("features", .array (tracks.map trackToFeature))]

/-- The status of an answer and what it carries. -/
inductive TracksBody where
  | json (status : Nat) (value : Json)
  | gpx (text : List Char)

/-- The store knows no labels. -/
def TracksResponse.body : TracksResponse → TracksBody
  | .badRequest error => .json 400 (.ofFields [("error", .string error)])
  | .tracks .geoJson vessels => .json 200 (tracksToGeojson (vessels.map (⟨·, none⟩)))
  | .tracks .gpx vessels => .gpx (tracksToGpx (vessels.map (⟨·, none⟩)))

/-! A reader of features. -/

structure Feature where
  context : String
  label : Option String
  pointCount : UInt64
  oldest : Option String
  newest : Option String
  lines : List (List (ℚ × ℚ))

def readPosition (j : Json) : Option (ℚ × ℚ) := do
  let lon ← (← j.getIdx 0).asF64
  let lat ← (← j.getIdx 1).asF64
  some (lon, lat)

def readLine (j : Json) : Option (List (ℚ × ℚ)) :=
  j.asArray.bind (·.mapM readPosition)

def readCount : Json → Option UInt64
  | .number (.posInt n) => some n
  | _ => none

def readText (key : String) (j : Json) : Option String :=
  (j.get key).bind Json.asStr

def readFeature (j : Json) : Option Feature := do
  let properties ← j.get "properties"
  let geometry ← j.get "geometry"
  let context ← readText "context" properties
  let count ← (properties.get "pointCount").bind readCount
  let lines ← ((geometry.get "coordinates").bind Json.asArray).bind (·.mapM readLine)
  if readText "type" j = some "Feature" ∧ readText "type" geometry = some "MultiLineString" then
    some ⟨context, readText "label" properties, count, readText "oldest" properties,
      readText "newest" properties, lines⟩
  else none

def readFeatures (j : Json) : Option (List Feature) :=
  if readText "type" j = some "FeatureCollection" then
    ((j.get "features").bind Json.asArray).bind (·.mapM readFeature)
  else none

/-- Longitude before latitude. -/
def QueriedPoint.position (p : QueriedPoint) : ℚ × ℚ := (p.lon, p.lat)

/-- The feature of a track. -/
def LabelledTrack.feature (track : LabelledTrack) : Feature where
  context := track.context
  label := track.label
  pointCount := UInt64.ofNat track.totalPoints
  oldest := track.oldest
  newest := track.newest
  lines := track.segments.map (·.map QueriedPoint.position)

theorem get_ofFields {fields : List (String × Json)} (hn : (fields.map Prod.fst).Nodup)
    {key : String} {value : Json} (h : (key, value) ∈ fields) :
    (Json.ofFields fields).get key = some value :=
  SortedMap.get_foldl_insert hn h []

/-! Every feature is read. -/

def properties (track : LabelledTrack) : List (String × Json) :=
  [("context", .string track.context),
    ("pointCount", .number (.posInt (UInt64.ofNat track.totalPoints)))] ++
    optionalField "label" track.label ++ optionalField "oldest" track.oldest ++
    optionalField "newest" track.newest

theorem keys_optionalField {e : String × Json} {key : String} {value : Option String}
    (h : e ∈ optionalField key value) : e.1 = key := by
  cases value with
  | none => exact absurd h List.not_mem_nil
  | some s => rw [List.mem_singleton.mp h]

theorem nodup_properties (track : LabelledTrack) :
    ((properties track).map Prod.fst).Nodup := by
  unfold properties
  cases track.label <;> cases track.oldest <;> cases track.newest <;>
    simp [optionalField]

theorem readText_optional {fields : List (String × Json)} (hn : (fields.map Prod.fst).Nodup)
    {key : String} {value : Option String} (hfields : ∀ j, (key, j) ∈ fields ↔
      (key, j) ∈ optionalField key value) : readText key (Json.ofFields fields) = value := by
  cases value with
  | none =>
    have hnone : (Json.ofFields fields).get key = none := by
      refine (SortedMap.get_foldl_insert_ne (fun e he => ?_) []).trans rfl
      rintro rfl
      exact absurd ((hfields e.2).mp he) List.not_mem_nil
    rw [readText, hnone]
    rfl
  | some s =>
    have hmem : (key, Json.string s) ∈ fields := (hfields _).mpr (List.mem_singleton.mpr rfl)
    rw [readText, get_ofFields hn hmem]
    rfl

theorem readLine_points (points : List QueriedPoint) :
    readLine (.array (points.map fun p => .array [.ofF64 p.lon, .ofF64 p.lat])) =
      some (points.map QueriedPoint.position) :=
  mapM_map fun _ _ => rfl

theorem readFeature_track (track : LabelledTrack) :
    readFeature (trackToFeature track) = some track.feature := by
  have hproperties : (trackToFeature track).get "properties" =
      some (.ofFields (properties track)) :=
    get_ofFields (by simp) (by simp [properties])
  have hgeometry : (trackToFeature track).get "geometry" = some (.ofFields
      [("type", .string "MultiLineString"), ("coordinates", coordinates track)]) :=
    get_ofFields (by simp) (by simp)
  have htype : readText "type" (trackToFeature track) = some "Feature" := by
    rw [readText, trackToFeature, get_ofFields (by simp) (List.mem_cons_self)]
    rfl
  have hkind : readText "type" (.ofFields
      [("type", .string "MultiLineString"), ("coordinates", coordinates track)]) =
      some "MultiLineString" := by
    rw [readText, get_ofFields (by simp) (List.mem_cons_self)]
    rfl
  have hn := nodup_properties track
  have hcontext : readText "context" (.ofFields (properties track)) = some track.context := by
    rw [readText, get_ofFields hn (show ("context", Json.string track.context) ∈ properties track by
      simp [properties])]
    rfl
  have hcount : ((Json.ofFields (properties track)).get "pointCount").bind readCount =
      some (UInt64.ofNat track.totalPoints) := by
    rw [get_ofFields hn (show ("pointCount", Json.number (.posInt
      (UInt64.ofNat track.totalPoints))) ∈ properties track by simp [properties])]
    rfl
  have hlabel : readText "label" (.ofFields (properties track)) = track.label := by
    refine readText_optional hn fun j => ?_
    simp [properties, optionalField]
  have holdest : readText "oldest" (.ofFields (properties track)) = track.oldest := by
    refine readText_optional hn fun j => ?_
    simp [properties, optionalField]
  have hnewest : readText "newest" (.ofFields (properties track)) = track.newest := by
    refine readText_optional hn fun j => ?_
    simp [properties, optionalField]
  have hlines : (((Json.ofFields [("type", .string "MultiLineString"),
      ("coordinates", coordinates track)]).get "coordinates").bind Json.asArray).bind
      (·.mapM readLine) = some (track.segments.map (·.map QueriedPoint.position)) := by
    rw [get_ofFields (by simp) (List.mem_cons_of_mem _ List.mem_cons_self)]
    exact mapM_map fun points _ => readLine_points points
  rw [readFeature, hproperties, hgeometry]
  simp only [Option.bind_eq_bind, Option.bind_some, hcontext, hcount, hlines, hlabel, holdest,
    hnewest, htype, hkind, and_self, if_true]
  rfl

theorem readFeatures_tracks (tracks : List LabelledTrack) :
    readFeatures (tracksToGeojson tracks) = some (tracks.map LabelledTrack.feature) := by
  have htype : readText "type" (tracksToGeojson tracks) = some "FeatureCollection" := by
    rw [readText, tracksToGeojson, get_ofFields (by simp) List.mem_cons_self]
    rfl
  have hfeatures : (tracksToGeojson tracks).get "features" =
      some (.array (tracks.map trackToFeature)) :=
    get_ofFields (by simp) (by simp)
  rw [readFeatures, if_pos htype, hfeatures]
  exact mapM_map fun track _ => readFeature_track track

/-! Simplification keeps the ends. -/

section
variable [FloatMath]

theorem simplifyTrackPoints_ends (points : List QueriedPoint) (epsilon : F64) :
    simplifyTrackPoints points epsilon = points ∨
      ∃ first middle last kept, points = first :: (middle ++ [last]) ∧
        simplifyTrackPoints points epsilon = first :: (kept ++ [last]) ∧
        kept.Sublist middle := by
  by_cases hshort : points.length ≤ 2 ∨ epsilon.le (.finite 0) = true
  · exact .inl (if_pos hshort)
  · right
    obtain ⟨first, rest, rfl⟩ := List.exists_cons_of_ne_nil
      (List.ne_nil_of_length_pos (by omega : 0 < points.length))
    obtain ⟨middle, last, rfl⟩ : ∃ middle last, rest = middle ++ [last] := by
      have hne : rest ≠ [] := by
        rintro rfl
        simp at hshort
      exact ⟨rest.dropLast, rest.getLast hne, (List.dropLast_append_getLast hne).symm⟩
    rw [simplifyTrackPoints, if_neg hshort]
    dsimp only
    generalize hkeep : rdpIndices _ _ _ _ _ = keep
    have hfirst : 0 ∈ keep := hkeep ▸ mem_rdpIndices (by simp)
    have hlast : 1 + middle.length ∈ keep := by
      rw [← hkeep]
      refine mem_rdpIndices ?_
      simp [Nat.add_comm]
    refine ⟨first, middle, last,
      ((middle.zipIdx 1).filter fun p => decide (p.2 ∈ keep)).map Prod.fst, rfl, ?_, ?_⟩
    · simp [List.zipIdx_cons, List.zipIdx_append, hfirst, hlast]
    · have hsub := (List.filter_sublist (l := middle.zipIdx 1)
        (p := fun p => decide (p.2 ∈ keep))).map Prod.fst
      rwa [List.zipIdx_map_fst] at hsub

/-- A line of a feature and the points of its segment: fewer positions, but the same ends. -/
structure Thins (line : List (ℚ × ℚ)) (points : List QueriedPoint) : Prop where
  sublist : line.Sublist (points.map QueriedPoint.position)
  first : line.head? = (points.map QueriedPoint.position).head?
  last : line.getLast? = (points.map QueriedPoint.position).getLast?
  two : 2 ≤ line.length ↔ 2 ≤ points.length

theorem simplified_ends (points : List QueriedPoint) (epsilon : F64) :
    (simplifyTrackPoints points epsilon).head? = points.head? ∧
      (simplifyTrackPoints points epsilon).getLast? = points.getLast? := by
  obtain hsame | ⟨first, middle, last, kept, hpoints, hkept, -⟩ :=
    simplifyTrackPoints_ends points epsilon
  · rw [hsame]
    exact ⟨rfl, rfl⟩
  · rw [hkept, hpoints]
    refine ⟨rfl, ?_⟩
    rw [← List.cons_append, ← List.cons_append, List.getLast?_concat, List.getLast?_concat]

theorem thins_simplified (points : List QueriedPoint) (epsilon : F64) :
    Thins ((simplifyTrackPoints points epsilon).map QueriedPoint.position) points := by
  obtain ⟨hfirst, hlast⟩ := simplified_ends points epsilon
  refine ⟨(simplifyTrackPoints_sublist points epsilon).1.map _, ?_, ?_, ?_⟩
  · rw [List.head?_map, List.head?_map, hfirst]
  · rw [List.getLast?_map, List.getLast?_map, hlast]
  · obtain hsame | ⟨first, middle, last, kept, hpoints, hkept, -⟩ :=
      simplifyTrackPoints_ends points epsilon
    · rw [hsame, List.length_map]
    · rw [hkept, hpoints]
      simp

/-- A feature and the track that the store answers with. -/
structure Draws (q : TrackQuery) (feature : Feature) (track : VesselTrack) : Prop where
  context : feature.context = track.context
  label : feature.label = none
  oldest : feature.oldest =
    track.segments.flatten.head?.map fun p => Rfc3339.utc p.timestamp
  newest : feature.newest =
    track.segments.flatten.getLast?.map fun p => Rfc3339.utc p.timestamp
  count : feature.pointCount = UInt64.ofNat feature.lines.flatten.length
  lines : List.Forall₂ Thins feature.lines track.segments
  whole : q.simplify = none → feature.lines = track.segments.map (·.map QueriedPoint.position)

omit [FloatMath] in
theorem head_flatten {segments : List (List QueriedPoint)} (h : [] ∉ segments) :
    segments.flatten.head? = segments.head?.bind List.head? := by
  cases segments with
  | nil => rfl
  | cons s segments =>
    cases s with
    | nil => exact absurd List.mem_cons_self h
    | cons p s => rfl

omit [FloatMath] in
theorem getLast_flatten {segments : List (List QueriedPoint)} (h : [] ∉ segments) :
    segments.flatten.getLast? = segments.getLast?.bind List.getLast? := by
  obtain rfl | ⟨front, s, rfl⟩ := List.eq_nil_or_concat' segments
  · rfl
  · have hs : s ≠ [] := fun hnil => h (by simp [hnil])
    rw [List.flatten_append, List.getLast?_concat, List.flatten_singleton,
      List.getLast?_append_of_ne_nil _ hs]
    rfl

omit [FloatMath] in
theorem thins_whole (points : List QueriedPoint) :
    Thins (points.map QueriedPoint.position) points :=
  ⟨List.Sublist.refl _, rfl, rfl, by rw [List.length_map]⟩

/-- What is read of the answer about one vessel. -/
theorem draws_feature (q : TrackQuery) {track : VesselTrack} (h : [] ∉ track.segments) :
    Draws q (LabelledTrack.feature ⟨simplified q.simplify track, none⟩) track := by
  have hends : ∃ f : List QueriedPoint → List QueriedPoint,
      (simplified q.simplify track).segments = track.segments.map f ∧
      (∀ s, (f s).head? = s.head? ∧ (f s).getLast? = s.getLast?) ∧
      (∀ s, Thins ((f s).map QueriedPoint.position) s) ∧ (q.simplify = none → f = id) := by
    cases hsimplify : q.simplify with
    | none =>
      exact ⟨id, (List.map_id _).symm, fun _ => ⟨rfl, rfl⟩, thins_whole, fun _ => rfl⟩
    | some epsilon =>
      exact ⟨(simplifyTrackPoints · epsilon), rfl, (simplified_ends · epsilon),
        (thins_simplified · epsilon), fun hnone => absurd hnone (Option.some_ne_none epsilon)⟩
  obtain ⟨f, hsegments, hends, hthins, hid⟩ := hends
  constructor
  case context => exact simplified_context q.simplify track
  case label => rfl
  case oldest =>
    change LabelledTrack.oldest _ = _
    rw [LabelledTrack.oldest, hsegments, head_flatten h, List.head?_map]
    cases track.segments.head? with
    | none => rfl
    | some s => rw [Option.map_some, Option.bind_some, Option.bind_some, (hends s).1]
  case newest =>
    change LabelledTrack.newest _ = _
    rw [LabelledTrack.newest, hsegments, getLast_flatten h, List.getLast?_map]
    cases track.segments.getLast? with
    | none => rfl
    | some s => rw [Option.map_some, Option.bind_some, Option.bind_some, (hends s).2]
  case count =>
    change UInt64.ofNat (LabelledTrack.totalPoints _) = UInt64.ofNat (List.length (List.flatten
      ((simplified q.simplify track).segments.map (·.map QueriedPoint.position))))
    rw [LabelledTrack.totalPoints, List.length_flatten, List.map_map]
    congr 3
    funext s
    exact (List.length_map _).symm
  case lines =>
    change List.Forall₂ Thins ((simplified q.simplify track).segments.map _) _
    rw [hsegments, List.map_map]
    induction track.segments with
    | nil => exact .nil
    | cons s segments ih => exact .cons (hthins s) ih
  case whole =>
    intro hnone
    change (simplified q.simplify track).segments.map _ = _
    rw [hsegments, hid hnone, List.map_id]

end

section
variable [FloatMath] [FloatParse] [HistoryLibs] [Haversine]

end

section
attribute [local instance] FloatMath.exact FloatParse.digits HistoryLibs.unused Haversine.unused

/-- Three points, the one in between off their line by less than the epsilon. -/
def coast : List (String × QueriedPoint) :=
  [("vessels.a", ⟨54, 10, epoch, none, none, none⟩),
    ("vessels.a", ⟨541 / 10, 101 / 10, epoch + 1000000000, none, none, none⟩),
    ("vessels.a", ⟨55, 11, epoch + 2000000000, none, none, none⟩)]

def coarse : TrackQuery :=
  ⟨none, none, none, none, none, none, some (.finite 1), .geoJson⟩

end

end SignalK.Tracks

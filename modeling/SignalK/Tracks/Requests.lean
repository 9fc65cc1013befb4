import SignalK.History.Columns
import SignalK.Tracks.Points
import SignalK.Tracks.Query

/-! Requests for the track of one vessel. The server writes the vessel into a query string,
from which the plugin reads it again. -/
namespace SignalK.Tracks

/-- The context that the plugin reads. -/
def effectiveContext (vesselId : String) (rawQuery : Option String) : String :=
  ((parseQuery (prependContext rawQuery ("vessels." ++ vesselId))).lookup "context").getD ""

theorem prependContext_pairs (rawQuery : Option String) (vesselId : String) :
    parsePairs (prependContext rawQuery ("vessels." ++ vesselId)) =
      parsePairs ("context=vessels." ++ vesselId) ++ parsePairs (rawQuery.getD "") := by
  have hplain : "context=" ++ ("vessels." ++ vesselId) = "context=vessels." ++ vesselId := by
    rw [← String.append_assoc]
    rfl
  have hempty : parsePairs "" = [] := by decide
  cases rawQuery with
  | none => simp [prependContext, hplain, hempty]
  | some q =>
    by_cases hq : q = ""
    · simp [prependContext, hq, hplain, hempty]
    · have hsplit : Text.split '&' ("context=" ++ ("vessels." ++ vesselId) ++ "&" ++ q) =
          Text.split '&' ("context=vessels." ++ vesselId) ++ Text.split '&' q := by
        rw [hplain]
        exact Text.split_append_separator '&' _ q
      rw [prependContext, if_pos hq, parsePairs, hsplit, List.filter_append, List.map_append]
      rfl

/-- A piece that begins with the key. -/
theorem splitPair_context (rest : String) :
    splitPair ("context=" ++ rest) = ("context", rest) := by
  simp [splitPair]

/-- The server's own parameter is the first one of its key. -/
theorem first_pair (vesselId : String) :
    ∃ value rest, parsePairs ("context=vessels." ++ vesselId) = ("context", value) :: rest := by
  obtain ⟨first, rest, -, hsplit⟩ := Text.split_append
    (show '&' ∉ "context=vessels.".toList by decide) vesselId
  have hpiece : "context=vessels." ++ first = "context=" ++ ("vessels." ++ first) := by
    rw [← String.append_assoc]
    rfl
  rw [hpiece] at hsplit
  refine ⟨"vessels." ++ first, (rest.filter fun s => decide (s ≠ "")).map splitPair, ?_⟩
  rw [parsePairs, hsplit, List.filter_cons_of_pos (by simp), List.map_cons, splitPair_context]

/-- There is always a context. -/
theorem lookup_context (vesselId : String) (rawQuery : Option String) :
    (parseQuery (prependContext rawQuery ("vessels." ++ vesselId))).lookup "context" =
      some (effectiveContext vesselId rawQuery) := by
  obtain ⟨value, rest, hfirst⟩ := first_pair vesselId
  have hsome : ((parseQuery (prependContext rawQuery ("vessels." ++ vesselId))).lookup
      "context").isSome = true := by
    rw [parseQuery, HashMap.lookup_collect, prependContext_pairs, hfirst]
    simp
  obtain ⟨context, hcontext⟩ := Option.isSome_iff_exists.mp hsome
  rw [effectiveContext, hcontext, Option.getD_some]

/-- An id that cannot be split and a query without a context leave the vessel as it is. -/
theorem effectiveContext_plain {vesselId : String} {rawQuery : Option String}
    (hid : '&' ∉ vesselId.toList) (hraw : ∀ e ∈ parsePairs (rawQuery.getD ""), e.1 ≠ "context") :
    effectiveContext vesselId rawQuery = "vessels." ++ vesselId := by
  have hpiece : "context=vessels." ++ vesselId = "context=" ++ ("vessels." ++ vesselId) := by
    rw [← String.append_assoc]
    rfl
  have hwhole : '&' ∉ ("context=vessels." ++ vesselId).toList := by
    rw [String.toList_append, List.mem_append]
    exact fun h => h.elim (by decide) hid
  have hpairs : parsePairs ("context=vessels." ++ vesselId) =
      [("context", "vessels." ++ vesselId)] := by
    have hsplit : Text.split '&' ("context=vessels." ++ vesselId) =
        ["context=vessels." ++ vesselId] := by
      rw [Text.split, List.splitOn_eq_singleton hwhole, List.map_cons, List.map_nil,
        String.ofList_toList]
    rw [parsePairs, hsplit, hpiece, List.filter_cons_of_pos (by simp), List.map_cons,
      splitPair_context]
    rfl
  have hnone : (parsePairs (rawQuery.getD "")).filter (·.1 = "context") = [] := by
    rw [List.filter_eq_nil_iff]
    exact fun e he => by simpa using hraw e he
  rw [effectiveContext, parseQuery, HashMap.lookup_collect, prependContext_pairs, hpairs,
    List.filter_append, hnone]
  rfl

/-! What is in an answer. -/

section
variable [FloatMath] [FloatParse] [HistoryLibs] [Haversine]

def TracksResponse.points : TracksResponse → List (String × QueriedPoint)
  | .badRequest _ => []
  | .tracks _ vessels => vessels.flatMap fun t => t.segments.flatten.map fun p => (t.context, p)

omit [FloatParse] [HistoryLibs] [Haversine] in
theorem mem_rdpIndices {coords : Nat → F64 × F64} {epsilon : F64} {start stop k : Nat}
    {keep : List Nat} (h : k ∈ keep) : k ∈ rdpIndices coords epsilon start stop keep := by
  fun_induction rdpIndices coords epsilon start stop keep with
  | case1 start stop keep m hbetween hfar ih _ ih' => exact ih' (ih (List.mem_cons_of_mem _ h))
  | case2 => exact h
  | case3 => exact h

omit [FloatParse] [HistoryLibs] [Haversine] in
/-- Simplification thins out, and does not drop everything. -/
theorem simplifyTrackPoints_sublist (points : List QueriedPoint) (epsilon : F64) :
    (simplifyTrackPoints points epsilon).Sublist points ∧
      (simplifyTrackPoints points epsilon = [] → points = []) := by
  rw [simplifyTrackPoints]
  split_ifs with hshort
  · exact ⟨List.Sublist.refl points, id⟩
  · constructor
    · have hsub := (List.filter_sublist (l := points.zipIdx) (p := fun p =>
        decide (p.2 ∈ rdpIndices (fun i => ((points[i]?).map fun p =>
          (F64.finite p.lat, F64.finite p.lon)).getD (.nan, .nan)) epsilon 0 (points.length - 1)
          [0, points.length - 1]))).map Prod.fst
      rwa [List.zipIdx_map_fst] at hsub
    · intro hempty
      cases points with
      | nil => rfl
      | cons p points =>
        have hfirst : (p, 0) ∈ (p :: points).zipIdx := by simp [List.zipIdx_cons]
        rw [List.map_eq_nil_iff, List.filter_eq_nil_iff] at hempty
        have hdrop := hempty (p, 0) hfirst
        exact (hdrop (decide_eq_true (mem_rdpIndices List.mem_cons_self))).elim

omit [FloatMath] [FloatParse] [HistoryLibs] in
theorem mem_selected {q : TrackQuery} {table : List StoredRow} {row : StoredRow} :
    row ∈ selected q table ↔ row ∈ table ∧ q.wants row = true ∧ q.passes row = true := by
  rw [selected, List.mem_filter, (Provider.orderBy_perm _ _).mem_iff,
    (Provider.orderBy_perm _ _).mem_iff, List.mem_filter, TrackQuery.passes]
  simp only [Bool.and_eq_true, and_assoc]

omit [FloatMath] [FloatParse] [HistoryLibs] [Haversine] in
theorem lookup_grouped (rows : List StoredRow) (context : String) :
    (rows.foldl groupPoint ∅).lookup context =
      if rows.filter (·.context = context) = [] then none
      else some ((rows.filter (·.context = context)).map StoredRow.point) := by
  induction rows using List.reverseRecOn with
  | nil => simp [Finmap.lookup_empty]
  | append_singleton rows row ih =>
    rw [List.foldl_append, List.foldl_cons, List.foldl_nil, groupPoint, HashMap.lookup_alter,
      List.filter_append]
    by_cases hc : context = row.context
    · subst hc
      rw [if_pos rfl, ih]
      by_cases hempty : rows.filter (·.context = row.context) = [] <;> simp [hempty]
    · have hne : ¬row.context = context := fun he => hc he.symm
      rw [if_neg hc, ih]
      simp [hne]

omit [FloatMath] [FloatParse] [HistoryLibs] in
/-- One track for every context among the selected rows. -/
theorem mem_query {visit : HashMap.Iteration String (List QueriedPoint)} {q : TrackQuery}
    {table : List StoredRow} {track : VesselTrack} :
    track ∈ query visit q table ↔
      (selected q table).filter (·.context = track.context) ≠ [] ∧
      track.segments = segmentByGap (limited q.limit
        (((selected q table).filter (·.context = track.context)).map StoredRow.point)) := by
  obtain ⟨context, segments⟩ := track
  have hentry : ∀ points, (context, points) ∈
      visit.entries ((selected q table).foldl groupPoint ∅) ↔
      (selected q table).filter (·.context = context) ≠ [] ∧
        ((selected q table).filter (·.context = context)).map StoredRow.point = points := by
    intro points
    rw [(visit.order _).mem_iff, lookup_grouped]
    by_cases hempty : (selected q table).filter (·.context = context) = [] <;> simp [hempty]
  rw [query, List.mem_filterMap]
  constructor
  · rintro ⟨⟨c, points⟩, hmem, htrack⟩
    dsimp only at htrack
    split_ifs at htrack with hpoints
    obtain ⟨rfl, rfl⟩ := VesselTrack.mk.inj (Option.some.inj htrack)
    obtain ⟨hne, rfl⟩ := (hentry points).mp hmem
    exact ⟨hne, rfl⟩
  · rintro ⟨hne, hsegments⟩
    refine ⟨(context, _), (hentry _).mpr ⟨hne, rfl⟩, ?_⟩
    dsimp only at hsegments ⊢
    rw [if_neg (by simpa using hne), hsegments]

omit [FloatParse] [HistoryLibs] [Haversine] in
theorem simplified_context (epsilon : Option F64) (track : VesselTrack) :
    (simplified epsilon track).context = track.context := by
  cases epsilon <;> rfl

omit [FloatParse] [HistoryLibs] [Haversine] in
theorem simplified_points (epsilon : Option F64) (track : VesselTrack) :
    ((simplified epsilon track).segments.flatten.Sublist track.segments.flatten) ∧
      ((simplified epsilon track).segments.flatten = [] → ∀ s ∈ track.segments, s = []) := by
  cases epsilon with
  | none => exact ⟨List.Sublist.refl _, fun h => List.flatten_eq_nil_iff.mp h⟩
  | some epsilon =>
    have hthin := fun s => simplifyTrackPoints_sublist s epsilon
    constructor
    · simp only [simplified]
      induction track.segments with
      | nil => exact List.Sublist.refl _
      | cons s segments ih => exact (hthin s).1.append ih
    · intro hempty s hs
      exact (hthin s).2 (List.flatten_eq_nil_iff.mp hempty _ (List.mem_map_of_mem hs))

omit [FloatMath] [FloatParse] [HistoryLibs] [Haversine] in
theorem limited_points (limit : Option Nat) (points : List QueriedPoint) :
    (limited limit points).Sublist points ∧
      (limit ≠ some 0 → limited limit points = [] → points = []) := by
  cases limit with
  | none => exact ⟨List.Sublist.refl points, fun _ h => h⟩
  | some n =>
    refine ⟨List.drop_sublist _ points, fun hn hempty => ?_⟩
    have hpos : n ≠ 0 := fun h => hn (congrArg some h)
    have hlength := List.drop_eq_nil_iff.mp hempty
    exact List.eq_nil_of_length_eq_zero (by omega)

omit [FloatMath] [FloatParse] [HistoryLibs] [Haversine] in
theorem limited_zero (points : List QueriedPoint) : limited (some 0) points = [] := by
  simp [limited]

/-- An answer is made of the selected rows, and shows every context among them unless the
limit is zero. -/
theorem handleGetTracks_points (visit : HashMap.Iteration String (List QueriedPoint))
    (table : List StoredRow) {queryString : String} {q : TrackQuery}
    (hq : parseTrackQuery queryString = .ok q) :
    (∀ e ∈ (handleGetTracks visit table (some queryString)).points,
      q.limit ≠ some 0 ∧ ∃ row ∈ selected q table, row.context = e.1 ∧ row.point = e.2) ∧
    (q.limit ≠ some 0 → ∀ row ∈ selected q table,
      ∃ p, (row.context, p) ∈ (handleGetTracks visit table (some queryString)).points) := by
  have hresponse : (handleGetTracks visit table (some queryString)).points =
      (query visit q table).flatMap fun t => (simplified q.simplify t).segments.flatten.map
        fun p => (t.context, p) := by
    rw [handleGetTracks, Option.getD_some, hq]
    simp only [TracksResponse.points, List.flatMap_map, simplified_context]
  rw [hresponse]
  constructor
  · intro e he
    obtain ⟨t, ht, hshown⟩ := List.mem_flatMap.mp he
    obtain ⟨p, hp, rfl⟩ := List.mem_map.mp hshown
    obtain ⟨-, hsegments⟩ := mem_query.mp ht
    have hp' := (simplified_points q.simplify t).1.subset hp
    rw [hsegments, segmentByGap, List.flatten_splitBy] at hp'
    have hlimit : q.limit ≠ some 0 := by
      intro hzero
      rw [hzero, limited_zero] at hp'
      cases hp'
    obtain ⟨row, hrow, rfl⟩ := List.mem_map.mp ((limited_points q.limit _).1.subset hp')
    obtain ⟨hrow, hcontext⟩ := List.mem_filter.mp hrow
    exact ⟨hlimit, row, hrow, of_decide_eq_true hcontext, rfl⟩
  · intro hlimit row hrow
    have hmem : row ∈ (selected q table).filter (·.context = row.context) :=
      List.mem_filter.mpr ⟨hrow, decide_eq_true rfl⟩
    let points := limited q.limit
      (((selected q table).filter (·.context = row.context)).map StoredRow.point)
    have htrack : (⟨row.context, segmentByGap points⟩ : VesselTrack) ∈ query visit q table :=
      mem_query.mpr ⟨List.ne_nil_of_mem hmem, rfl⟩
    have hpoints : points ≠ [] := by
      intro hempty
      have hnil := (limited_points q.limit _).2 hlimit hempty
      rw [List.map_eq_nil_iff] at hnil
      exact List.ne_nil_of_mem hmem hnil
    have hshown : (simplified q.simplify
        ⟨row.context, segmentByGap points⟩).segments.flatten ≠ [] := by
      intro hempty
      have hsegments := (simplified_points q.simplify _).2 hempty
      obtain ⟨s, hs⟩ := List.exists_mem_of_ne_nil _
        (List.splitBy_ne_nil (r := fun a b : QueriedPoint =>
          decide (gap a.timestamp b.timestamp ≤ 300000000000)) |>.mpr hpoints)
      exact List.ne_nil_of_mem_splitBy hs (hsegments s hs)
    obtain ⟨p, hp⟩ := List.exists_mem_of_ne_nil _ hshown
    exact ⟨p, List.mem_flatMap.mpr ⟨_, htrack, List.mem_map.mpr ⟨p, hp, rfl⟩⟩⟩

omit [FloatMath] [Haversine] in
theorem parseTrackQuery_context {queryString : String} {q : TrackQuery}
    (h : parseTrackQuery queryString = .ok q) :
    q.context = contextOf (parseQuery queryString) := by
  have hbind : ∀ {α β : Type} {x : Except String α} {f : α → Except String β} {b : β},
      (x >>= f) = .ok b → ∃ a, f a = .ok b := by
    intro α β x f b hx
    cases x with
    | error e => cases hx
    | ok a => exact ⟨a, hx⟩
  obtain ⟨after, h⟩ := hbind h
  obtain ⟨before, h⟩ := hbind h
  obtain ⟨bbox, h⟩ := hbind h
  obtain ⟨radius, h⟩ := hbind h
  obtain ⟨limit, h⟩ := hbind h
  obtain ⟨simplify, h⟩ := hbind h
  obtain ⟨format, h⟩ := hbind h
  obtain rfl := Except.ok.inj h
  rfl

omit [FloatMath] [Haversine] in
/-- What a request of the server asks for. -/
theorem wants_iff {vesselId : String} {rawQuery : Option String} {q : TrackQuery}
    (h : parseTrackQuery (prependContext rawQuery ("vessels." ++ vesselId)) = .ok q)
    (row : StoredRow) :
    q.wants row = true ↔ effectiveContext vesselId rawQuery = "" ∨
      row.context = effectiveContext vesselId rawQuery := by
  rw [TrackQuery.wants, parseTrackQuery_context h, contextOf, lookup_context]
  by_cases hempty : effectiveContext vesselId rawQuery = "" <;> simp [hempty]

/-- A request concerns the addressed vessel alone: its points are shown, its rows deleted; and
under `self` the points of the own vessel are selected. -/
def Addressed (visit : HashMap.Iteration String (List QueriedPoint)) (table : List StoredRow)
    (selfUri vesselId : String) (rawQuery : Option String) : Prop :=
  (∀ e ∈ (getVesselTrack visit table vesselId rawQuery).points, e.1 = "vessels." ++ vesselId) ∧
  (∀ row ∈ table, row.context ≠ "vessels." ++ vesselId →
    row ∈ (deleteVesselTrack table vesselId rawQuery).1) ∧
  (vesselId = "self" → ∀ q,
    parseTrackQuery (prependContext rawQuery ("vessels." ++ vesselId)) = .ok q →
    ∀ row ∈ table, row ∈ selected q table ↔
      ownShip selfUri (some row.context) = true ∧ q.passes row = true)

end

section
attribute [local instance] FloatMath.unused FloatParse.digits HistoryLibs.unused Haversine.unused

def rowOf (context : String) : StoredRow where
  context := context
  lat := 54
  lon := 10
  timestamp := "2026-03-01T12:00:00+00:00"
  sog := none
  cog := none
  depth := none

end

end SignalK.Tracks

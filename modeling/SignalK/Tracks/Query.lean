import Mathlib.Data.List.SplitBy
import SignalK.History.Provider
import SignalK.Tracks.Recorder

/-! The track store on SQLite and the handlers of the tracks plugin, which take everything they
need from a query string. -/
namespace SignalK.Tracks

/-- `geo::haversine_meters` -/
class Haversine where
  meters : F64 → F64 → F64 → F64 → F64

/-- For requests without a radius. -/
@[reducible] def Haversine.unused : Haversine := ⟨fun _ _ _ _ => .nan⟩

inductive TrackFormat where
  | geoJson
  | gpx
  deriving DecidableEq

structure TrackQuery where
  context : Option String
  after : Option Int
  before : Option Int
  bbox : Option (F64 × F64 × F64 × F64)
  radius : Option (F64 × F64 × F64)
  limit : Option Nat
  simplify : Option F64
  format : TrackFormat

/-- A row as it is stored. -/
structure StoredRow where
  context : String
  lat : ℚ
  lon : ℚ
  timestamp : String
  sog : Option ℚ
  cog : Option ℚ
  depth : Option ℚ
  deriving DecidableEq

/-- A row as it is read: an instant in place of its text. -/
structure QueriedPoint where
  lat : ℚ
  lon : ℚ
  timestamp : Int
  sog : Option ℚ
  cog : Option ℚ
  depth : Option ℚ
  deriving DecidableEq

structure VesselTrack where
  context : String
  segments : List (List QueriedPoint)
  deriving DecidableEq

/-! Query strings. -/

/-- `splitn(2, '=')`: a pair without the sign has an empty value. -/
def splitPair (pair : String) : String × String :=
  (String.ofList (pair.toList.takeWhile (· ≠ '=')),
    String.ofList (pair.toList.dropWhile (· ≠ '=')).tail)

def parsePairs (query : String) : List (String × String) :=
  ((Text.split '&' query).filter fun s => decide (s ≠ "")).map splitPair

/-- The pairs of a query string; the last one of a key counts. -/
def parseQuery (query : String) : HashMap String String :=
  HashMap.collect (parsePairs query)

section
variable [FloatParse] [HistoryLibs]

def parseF64 (name s : String) : Except String F64 :=
  match FloatParse.parse s with
  | some x => .ok x
  | none => .error ("invalid '" ++ name ++ "': " ++
      if s = "" then "cannot parse float from empty string" else "invalid float literal")

/-- `parse::<usize>()` of the characters after a sign. -/
def usizeDigits : Nat → List Char → Except String Nat
  | n, [] => .ok n
  | n, c :: cs =>
    match Digits.value c with
    | none => .error "invalid digit found in string"
    | some d =>
      if 10 * n + d < 2 ^ 64 then usizeDigits (10 * n + d) cs
      else .error "number too large to fit in target type"

def parseUsize (s : String) : Except String Nat :=
  match s.toList with
  | [] => .error "cannot parse integer from empty string"
  | '+' :: c :: cs => usizeDigits 0 (c :: cs)
  | cs => usizeDigits 0 cs

def parseInstant (name s : String) : Except String Int :=
  match Rfc3339.parse s with
  | some d => .ok d.instant
  | none => .error ("invalid '" ++ name ++ "' timestamp: " ++ HistoryLibs.parseError s)

/-- Numbers between commas. -/
def parseNumbers (name s : String) : Except String (List F64) :=
  (Text.split ',' s).mapM fun part => parseF64 name (String.ofList (Text.trim part.toList))

def parseBbox (s : String) : Except String (F64 × F64 × F64 × F64) := do
  match ← parseNumbers "bbox" s with
  | [west, south, east, north] => .ok (west, south, east, north)
  | _ => .error "'bbox' must have exactly 4 values: west,south,east,north"

def parseRadius (params : HashMap String String) (s : String) :
    Except String (F64 × F64 × F64) := do
  match ← parseNumbers "center" s with
  | [lat, lon] =>
    match params.lookup "radius" with
    | none => .error "'radius' is required when 'center' is specified"
    | some radius => do
      let meters ← parseF64 "radius" radius
      .ok (lat, lon, meters)
  | _ => .error "'center' must have exactly 2 values: lat,lon"

def parseLimit (s : String) : Except String Nat :=
  match parseUsize s with
  | .ok n => .ok n
  | .error e => .error ("invalid 'limit': " ++ e)

def parseFormat (s : String) : Except String TrackFormat :=
  if s = "gpx" then .ok .gpx
  else if s = "geojson" then .ok .geoJson
  else .error ("unknown format '" ++ s ++ "', expected 'geojson' or 'gpx'")

/-- A parameter, if it is there. -/
def optional {α : Type} (params : HashMap String String) (name : String)
    (parse : String → Except String α) : Except String (Option α) :=
  match params.lookup name with
  | none => .ok none
  | some s => (parse s).map some

/-- What the store is asked for: an empty context is none. -/
def contextOf (params : HashMap String String) : Option String :=
  (params.lookup "context").filter fun context => decide (context ≠ "")

def parseTrackQuery (query : String) : Except String TrackQuery := do
  let params := parseQuery query
  let after ← optional params "after" (parseInstant "after")
  let before ← optional params "before" (parseInstant "before")
  let bbox ← optional params "bbox" parseBbox
  let radius ← optional params "center" (parseRadius params)
  let limit ← optional params "limit" parseLimit
  let simplify ← optional params "simplify" (parseF64 "simplify")
  let format ← optional params "format" parseFormat
  .ok ⟨contextOf params, after, before, bbox, radius, limit, simplify, format.getD .geoJson⟩

end

/-! The store. -/

/-- `record`: the row of a point, with the text of its time. -/
def StoredRow.of (text : DateTime → String) (row : TrackRow) : StoredRow where
  context := row.context
  lat := row.point.lat
  lon := row.point.lon
  timestamp := text row.point.timestamp
  sog := row.point.sog
  cog := row.point.cog
  depth := row.point.depth

def epoch : Int := Rfc3339.startOfYear 1970

example : Rfc3339.utc epoch = "1970-01-01T00:00:00+00:00" := by decide +kernel

/-- A text that is no time reads as the epoch. -/
def StoredRow.point (row : StoredRow) : QueriedPoint where
  lat := row.lat
  lon := row.lon
  timestamp := ((Rfc3339.parse row.timestamp).map (·.instant)).getD epoch
  sog := row.sog
  cog := row.cog
  depth := row.depth

/-- The context that a query asks for. -/
def TrackQuery.wants (q : TrackQuery) (row : StoredRow) : Bool :=
  q.context.all fun context => decide (row.context = context)

/-- The other conditions of the statement; a NaN compares with nothing. -/
def TrackQuery.inRange (q : TrackQuery) (row : StoredRow) : Bool :=
  (q.after.all fun t => decide (Text.Le (Rfc3339.utc t) row.timestamp)) &&
  (q.before.all fun t => decide (Text.Le row.timestamp (Rfc3339.utc t))) &&
  q.bbox.all fun (west, south, east, north) =>
    west.le (.finite row.lon) && (F64.finite row.lon).le east &&
      south.le (.finite row.lat) && (F64.finite row.lat).le north

section
variable [Haversine]

/-- The radius is checked on the rows that come back. -/
def TrackQuery.inRadius (q : TrackQuery) (row : StoredRow) : Bool :=
  q.radius.all fun (lat, lon, radius) =>
    !(radius.lt (Haversine.meters lat lon (.finite row.lat) (.finite row.lon)))

/-- Everything but the context. -/
def TrackQuery.passes (q : TrackQuery) (row : StoredRow) : Bool :=
  q.inRange row && q.inRadius row

/-- The rows of a query, in the order of context and time. -/
def selected (q : TrackQuery) (table : List StoredRow) : List StoredRow :=
  (Sqlite.orderBy StoredRow.context (Sqlite.orderBy StoredRow.timestamp
    (table.filter fun row => q.wants row && q.inRange row))).filter q.inRadius

def groupPoint (grouped : HashMap String (List QueriedPoint)) (row : StoredRow) :
    HashMap String (List QueriedPoint) :=
  grouped.alter row.context [] (· ++ [row.point])

/-- The last points, at most as many as the limit. -/
def limited (limit : Option Nat) (points : List QueriedPoint) : List QueriedPoint :=
  match limit with
  | none => points
  | some n => points.drop (points.length - n)

/-- `b - a`; a leap second between two times of day is counted. -/
def gap (a b : Int) : Int :=
  let ofDay (t : Int) : Int := Rfc3339.Instant.minutes t % 1440 * 60 +
    min (Rfc3339.Instant.second t) 59
  let leap :=
    if ofDay a < ofDay b ∧ Rfc3339.Instant.second a = 60 then 1
    else if ofDay b < ofDay a ∧ Rfc3339.Instant.second b = 60 then -1
    else 0
  Chrono.elapsed b - Chrono.elapsed a + leap * 1000000000

/-- A new segment after a gap of more than five minutes. -/
def segmentByGap (points : List QueriedPoint) : List (List QueriedPoint) :=
  points.splitBy fun a b => decide (gap a.timestamp b.timestamp ≤ 300000000000)

/-- `query`; the vessels come in the order in which the map of groups is visited. -/
def query (visit : HashMap.Iteration String (List QueriedPoint)) (q : TrackQuery)
    (table : List StoredRow) : List VesselTrack :=
  (visit.entries ((selected q table).foldl groupPoint ∅)).filterMap fun (context, points) =>
    if points = [] then none
    else some ⟨context, segmentByGap (limited q.limit points)⟩

end

/-! Simplification. -/

section
variable [FloatMath]

def perpendicularDistance (p a b : F64 × F64) : F64 :=
  let dx := FloatMath.sub b.1 a.1
  let dy := FloatMath.sub b.2 a.2
  let lenSq := FloatMath.add (FloatMath.mul dx dx) (FloatMath.mul dy dy)
  let ex := FloatMath.sub p.1 a.1
  let ey := FloatMath.sub p.2 a.2
  if lenSq.lt (.finite (1 / 100000000000000000000)) then
    FloatMath.sqrt (FloatMath.add (FloatMath.mul ex ex) (FloatMath.mul ey ey))
  else
    let cross := FloatMath.sub (FloatMath.mul ex dy) (FloatMath.mul ey dx)
    let abs := if cross.lt (.finite 0) then FloatMath.neg cross else cross
    FloatMath.div abs (FloatMath.sqrt lenSq)

/-- The point between two others that is farthest from their line, with its distance. -/
def farthest (coords : Nat → F64 × F64) (start stop : Nat) : F64 × Nat :=
  (List.range' (start + 1) (stop - (start + 1))).foldl (fun m i =>
    let d := perpendicularDistance (coords i) (coords start) (coords stop)
    if m.1.lt d then (d, i) else m) (.finite 0, start)

/-- Unless no point is off the line, the farthest lies in between. -/
theorem farthest_between (coords : Nat → F64 × F64) (start stop : Nat) :
    farthest coords start stop = (.finite 0, start) ∨
      start < (farthest coords start stop).2 ∧ (farthest coords start stop).2 < stop := by
  have hfold : ∀ (l : List Nat) (m : F64 × Nat), (∀ i ∈ l, start < i ∧ i < stop) →
      (m = (.finite 0, start) ∨ start < m.2 ∧ m.2 < stop) →
      (l.foldl (fun m i =>
        let d := perpendicularDistance (coords i) (coords start) (coords stop)
        if m.1.lt d then (d, i) else m) m = (.finite 0, start) ∨
      start < (l.foldl (fun m i =>
        let d := perpendicularDistance (coords i) (coords start) (coords stop)
        if m.1.lt d then (d, i) else m) m).2 ∧ (l.foldl (fun m i =>
        let d := perpendicularDistance (coords i) (coords start) (coords stop)
        if m.1.lt d then (d, i) else m) m).2 < stop) := by
    intro l
    induction l with
    | nil => exact fun m _ hm => hm
    | cons i l ih =>
      intro m hl hm
      refine ih _ (fun j hj => hl j (List.mem_cons_of_mem i hj)) ?_
      dsimp only
      split_ifs with hd
      · exact .inr (hl i List.mem_cons_self)
      · exact hm
  refine hfold _ _ (fun i hi => ?_) (.inl rfl)
  rw [List.mem_range'_1] at hi
  omega

/-- The indices to keep. A point that is farther than a positive epsilon lies in between. -/
def rdpIndices (coords : Nat → F64 × F64) (epsilon : F64) (start stop : Nat)
    (keep : List Nat) : List Nat :=
  let m := farthest coords start stop
  if _h : start < m.2 ∧ m.2 < stop then
    if epsilon.lt m.1 then
      rdpIndices coords epsilon m.2 stop
        (rdpIndices coords epsilon start m.2 (m.2 :: keep))
    else keep
  else keep
termination_by stop - start
decreasing_by
  all_goals
    have hbetween : start < (farthest coords start stop).2 ∧
      (farthest coords start stop).2 < stop := _h
    omega

/-- For the epsilons that get here, what lies in between is no condition. -/
theorem rdpIndices_eq {epsilon : F64} (hpos : epsilon.le (.finite 0) = false)
    (coords : Nat → F64 × F64) (start stop : Nat) (keep : List Nat) :
    rdpIndices coords epsilon start stop keep =
      let m := farthest coords start stop
      if epsilon.lt m.1 then
        rdpIndices coords epsilon m.2 stop
          (rdpIndices coords epsilon start m.2 (m.2 :: keep))
      else keep := by
  rw [rdpIndices]
  obtain hnone | hbetween := farthest_between coords start stop
  · have hlt : epsilon.lt (.finite 0) = false := by
      cases epsilon <;> simp_all [F64.lt, F64.le]
      exact hpos.le
    simp [hnone, hlt]
  · simp only [dif_pos hbetween]

def simplifyTrackPoints (points : List QueriedPoint) (epsilon : F64) : List QueriedPoint :=
  if points.length ≤ 2 ∨ epsilon.le (.finite 0) then points
  else
    let coords (i : Nat) : F64 × F64 :=
      ((points[i]?).map fun p => (F64.finite p.lat, F64.finite p.lon)).getD (.nan, .nan)
    let keep := rdpIndices coords epsilon 0 (points.length - 1) [0, points.length - 1]
    (points.zipIdx.filter fun p => decide (p.2 ∈ keep)).map (·.1)

end

/-! The handlers of the plugin. -/

section
variable [FloatMath] [FloatParse] [HistoryLibs] [Haversine]

inductive TracksResponse where
  /-- 400 -/
  | badRequest (error : String)
  | tracks (format : TrackFormat) (tracks : List VesselTrack)

def simplified (epsilon : Option F64) (track : VesselTrack) : VesselTrack :=
  match epsilon with
  | none => track
  | some epsilon => { track with
      segments := track.segments.map fun points => simplifyTrackPoints points epsilon }

def handleGetTracks (visit : HashMap.Iteration String (List QueriedPoint))
    (table : List StoredRow) (queryString : Option String) : TracksResponse :=
  match parseTrackQuery (queryString.getD "") with
  | .error e => .badRequest e
  | .ok q => .tracks q.format ((query visit q table).map (simplified q.simplify))

/-- `handle_delete_tracks`, with the rows that are left. -/
def handleDeleteTracks (table : List StoredRow) (queryString : Option String) :
    List StoredRow × String :=
  match (parseQuery (queryString.getD "")).lookup "context" with
  | some context =>
    (table.filter fun row => row.context ≠ context, "cleared tracks for " ++ context)
  | none => ([], "all tracks cleared")

/-! The routes of the server. -/

def prependContext (existing : Option String) (context : String) : String :=
  match existing with
  | some q => if q ≠ "" then "context=" ++ context ++ "&" ++ q else "context=" ++ context
  | none => "context=" ++ context

def getVesselTrack (visit : HashMap.Iteration String (List QueriedPoint))
    (table : List StoredRow) (vesselId : String) (rawQuery : Option String) : TracksResponse :=
  handleGetTracks visit table (some (prependContext rawQuery ("vessels." ++ vesselId)))

def deleteVesselTrack (table : List StoredRow) (vesselId : String) (rawQuery : Option String) :
    List StoredRow × String :=
  handleDeleteTracks table (some (prependContext rawQuery ("vessels." ++ vesselId)))

end

end SignalK.Tracks

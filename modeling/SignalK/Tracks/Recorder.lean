import SignalK.History.Provider
import SignalK.Plugins.Host

/-! The tracks plugin: which positions of the broadcast deltas become points of a track. -/
namespace SignalK.Tracks

structure TracksConfig where
  minIntervalSecs : UInt64
  trackSelf : Bool
  trackOthers : Bool
  deriving DecidableEq

/-- `TimeDelta::seconds(cfg.min_interval_secs as i64)`, which the start of the plugin does not
survive out of range. -/
def TracksConfig.minInterval (cfg : TracksConfig) : Fallible String Int :=
  Chrono.seconds cfg.minIntervalSecs.toBitVec.toInt

/-- Last known values of a vessel. -/
structure AuxCache where
  sog : Option ℚ
  cog : Option ℚ
  depth : Option ℚ
  deriving DecidableEq

def AuxCache.default : AuxCache := ⟨none, none, none⟩

structure TrackPoint where
  lat : ℚ
  lon : ℚ
  timestamp : DateTime
  sog : Option ℚ
  cog : Option ℚ
  depth : Option ℚ
  deriving DecidableEq

/-- A row of `track_points`. -/
structure TrackRow where
  context : String
  point : TrackPoint
  deriving DecidableEq

structure Recorder where
  lastRecorded : HashMap String DateTime
  auxCache : HashMap String AuxCache

def Recorder.new : Recorder := ⟨∅, ∅⟩

/-- What the plugin subscribes to. -/
def tracksSubscription : SubscriptionSpec :=
  .allVessels [
    .ofPath "navigation.position",
    .ofPath "navigation.speedOverGround",
    .ofPath "navigation.courseOverGroundTrue",
    .ofPath "environment.depth.belowTransducer"]

/-! The callback. -/

def isSelf (context : String) : Bool :=
  decide (context = "vessels.self") ||
    Text.startsWith context "vessels.urn:mrn:signalk:uuid:"

/-- Latitude and longitude, if both are numbers. -/
def positionOf (value : Json) : Option (ℚ × ℚ) := do
  let lat ← (value.get "latitude").bind Json.asF64
  let lon ← (value.get "longitude").bind Json.asF64
  some (lat, lon)

/-- The variables that the loop over updates and values sets. -/
structure Gathered where
  position : Option (ℚ × ℚ)
  timestamp : DateTime
  aux : HashMap String AuxCache

def Gathered.setAux (g : Gathered) (context : String) (f : AuxCache → AuxCache) : Gathered :=
  { g with aux := g.aux.alter context AuxCache.default f }

def gatherValue (context : String) (g : Gathered) (pv : PathValue) : Gathered :=
  if pv.path = "navigation.position" then
    match positionOf pv.value with
    | some pos => { g with position := some pos }
    | none => g
  else if pv.path = "navigation.speedOverGround" then
    match pv.value.asF64 with
    | some v => g.setAux context fun aux => { aux with sog := some v }
    | none => g
  else if pv.path = "navigation.courseOverGroundTrue" then
    match pv.value.asF64 with
    | some v => g.setAux context fun aux => { aux with cog := some v }
    | none => g
  else if pv.path = "environment.depth.belowTransducer" then
    match pv.value.asF64 with
    | some v => g.setAux context fun aux => { aux with depth := some v }
    | none => g
  else g

def gatherUpdate (context : String) (g : Gathered) (update : Update) : Gathered :=
  update.values.foldl (gatherValue context) { g with timestamp := update.timestamp }

/-- The delta callback at a reading of the clock, with the row it records. -/
def callback (cfg : TracksConfig) (minInterval : Int) (s : Recorder) (now : DateTime)
    (delta : Delta) : Recorder × List TrackRow :=
  match delta.context with
  | none => (s, [])
  | some context =>
    if isSelf context && !cfg.trackSelf then (s, [])
    else if !isSelf context && !cfg.trackOthers then (s, [])
    else
      let g := delta.updates.foldl (gatherUpdate context) ⟨none, now, s.auxCache⟩
      match g.position with
      | none => ({ s with auxCache := g.aux }, [])
      | some (lat, lon) =>
        let tooRecent := (s.lastRecorded.lookup context).any fun prev =>
          decide (g.timestamp - prev < minInterval * 1000000000)
        if tooRecent then ({ s with auxCache := g.aux }, [])
        else
          let aux := (g.aux.lookup context).getD AuxCache.default
          (⟨s.lastRecorded.insert context g.timestamp, g.aux⟩,
            [⟨context, ⟨lat, lon, g.timestamp, aux.sog, aux.cog, aux.depth⟩⟩])

/-- A broadcast delta, and when it is received. -/
structure Broadcast where
  now : DateTime
  delta : Delta

def receive (cfg : TracksConfig) (minInterval : Int) (s : Recorder) (e : Broadcast) :
    Recorder × List TrackRow :=
  if tracksSubscription.receives e.delta then callback cfg minInterval s e.now e.delta
  else (s, [])

/-- The rows that a run records, in this order. -/
def recorded (cfg : TracksConfig) (minInterval : Int) (es : List Broadcast) : List TrackRow :=
  (Machine.exec (receive cfg minInterval) Recorder.new es).2

end SignalK.Tracks

import SignalK.Types.Full

/-! The in-memory store: arbitration of sources, lazy eviction of expired values
and the broadcast of what was applied. A clock is the sequence of readings that
the values of one delta see; nothing is assumed of it. -/
namespace SignalK

def defaultSourcePriority : UInt16 := 100

/-- The context of a delta with an absent one and "vessels.self" resolved. -/
def resolveContext (selfUri : String) (context : Option String) : String :=
  let context := context.getD ("vessels." ++ selfUri)
  if context = "vessels.self" then "vessels." ++ selfUri else context

/-- The vessel a delta addresses; other contexts are not stored. -/
def vesselUri (selfUri : String) (context : Option String) : Option String :=
  Text.stripPrefix (resolveContext selfUri context) "vessels."

structure SignalKStore where
  selfUri : String
  vessels : HashMap String VesselData
  sources : HashMap SourceRef Source
  metadata : HashMap String Metadata
  /-- path → source → latest value, for the self vessel only -/
  multiSource : HashMap String (HashMap SourceRef SignalKValue)
  sourcePriorities : HashMap SourceRef UInt16
  sourceTtls : HashMap SourceRef UInt64
  deltaCount : UInt64
  sourceDeltaCounts : HashMap String UInt64

namespace SignalKStore

def new (selfUri : String) : SignalKStore where
  selfUri := selfUri
  vessels := HashMap.collect [(selfUri, { VesselData.empty with uuid := some selfUri })]
  sources := ∅
  metadata := ∅
  multiSource := ∅
  sourcePriorities := ∅
  sourceTtls := ∅
  deltaCount := 0
  sourceDeltaCounts := ∅

def setSourcePriorities (st : SignalKStore) (priorities : HashMap SourceRef UInt16) :
    SignalKStore :=
  { st with sourcePriorities := priorities }

def setSourceTtls (st : SignalKStore) (ttls : HashMap SourceRef UInt64) : SignalKStore :=
  { st with sourceTtls := ttls }

def setVesselIdentity (st : SignalKStore) (vesselUri : String) (name mmsi : Option String) :
    SignalKStore :=
  match st.vessels.lookup vesselUri with
  | none => st
  | some vessel =>
    let vessel :=
      { vessel with name := name.or vessel.name, mmsi := mmsi.or vessel.mmsi }
    { st with vessels := st.vessels.insert vesselUri vessel }

def getVesselPath (st : SignalKStore) (vesselUri path : String) : Option SignalKValue :=
  (st.vessels.lookup vesselUri).bind fun vessel => vessel.values.lookup path

def getSelfPath (st : SignalKStore) (path : String) : Option SignalKValue :=
  st.getVesselPath st.selfUri path

def getSelfPathBySource (st : SignalKStore) (path : String) (sourceRef : SourceRef) :
    Option SignalKValue :=
  st.multiSource.lookup₂ path sourceRef

def priority (st : SignalKStore) (sourceRef : SourceRef) : UInt16 :=
  (st.sourcePriorities.lookup sourceRef).getD defaultSourcePriority

/-- Enter a source in the registry and count the update under its label. -/
def registerSource [JsonText] (st : SignalKStore) (source : Source) : SignalKStore :=
  let sourceRef := makeSourceRef source
  let sourceLabel := (Text.split '.' sourceRef).headD sourceRef
  { st with
    sources := if sourceRef ∈ st.sources then st.sources else st.sources.insert sourceRef source
    sourceDeltaCounts := st.sourceDeltaCounts.alter sourceLabel 0 (· + 1) }

/-- The active value's source when that value has outlived the source's TTL;
the comparison casts the TTL to a signed integer. -/
def evictStale (st : SignalKStore) (vesselUri path : String) (now : DateTime) :
    Option SourceRef :=
  (st.getVesselPath vesselUri path).bind fun current =>
    (st.sourceTtls.lookup current.source).bind fun ttl =>
      if secondsSince now current.timestamp > ttl.toInt64.toInt then some current.source else none

def shouldUpdate (st : SignalKStore) (vesselUri path : String) (sourceRef : SourceRef)
    (now : DateTime) : Bool :=
  (st.evictStale vesselUri path now).isSome ||
    match st.getVesselPath vesselUri path with
    | some current => decide (st.priority sourceRef ≤ st.priority current.source)
    | none => true

/-- The per-source values with one more: only the self vessel's are retained. -/
def recordSource (st : SignalKStore) (vesselUri path : String) (value : SignalKValue) :
    HashMap String (HashMap SourceRef SignalKValue) :=
  if vesselUri = st.selfUri then st.multiSource.alter path ∅ (·.insert value.source value)
  else st.multiSource

/-- Drop an evicted source from a path, when the path is retained at all. -/
def removeSource (multiSource : HashMap String (HashMap SourceRef SignalKValue)) (path : String)
    (evicted : Option SourceRef) : HashMap String (HashMap SourceRef SignalKValue) :=
  match evicted, multiSource.lookup path with
  | some evicted, some sourceMap => multiSource.insert path (sourceMap.erase evicted)
  | _, _ => multiSource

def setActive (st : SignalKStore) (vesselUri path : String) (value : SignalKValue) :
    HashMap String VesselData :=
  st.vessels.alter vesselUri VesselData.empty
    fun vessel => { vessel with values := vessel.values.insert path value }

/-- One value of one update, with whether it became the active value. -/
def applyValue (st : SignalKStore) (vesselUri : String) (sourceRef : SourceRef)
    (timestamp now : DateTime) (pv : PathValue) : SignalKStore × Bool :=
  let value := SignalKValue.new pv.value sourceRef timestamp
  let multiSource := st.recordSource vesselUri pv.path value
  if st.shouldUpdate vesselUri pv.path sourceRef now then
    let evicted := st.evictStale vesselUri pv.path now
    ({ st with
        multiSource := removeSource multiSource pv.path evicted
        vessels := st.setActive vesselUri pv.path value }, true)
  else ({ st with multiSource := multiSource }, false)

/-- The inner loop, with the values that were applied. -/
def applyValues (vesselUri : String) (sourceRef : SourceRef) (timestamp : DateTime) :
    (Nat → DateTime) → SignalKStore → List PathValue → SignalKStore × List PathValue
  | _, st, [] => (st, [])
  | clock, st, pv :: pvs =>
    let (st, applied) := st.applyValue vesselUri sourceRef timestamp (clock 0) pv
    let (st, rest) :=
      applyValues vesselUri sourceRef timestamp (fun n => clock (n + 1)) st pvs
    (st, if applied then pv :: rest else rest)

/-- The outer loop, with the updates that were applied. -/
def applyUpdates [JsonText] (vesselUri : String) :
    (Nat → DateTime) → SignalKStore → List Update → SignalKStore × List Update
  | _, st, [] => (st, [])
  | clock, st, update :: updates =>
    let (st, values) := applyValues vesselUri (makeSourceRef update.source) update.timestamp
      clock (st.registerSource update.source) update.values
    let (st, rest) :=
      applyUpdates vesselUri (fun n => clock (n + update.values.length)) st updates
    (st, if values = [] then rest else { update with values := values } :: rest)

/-- `apply_delta` with what it sends on the broadcast channel. -/
def applyDelta [JsonText] (clock : Nat → DateTime) (st : SignalKStore) (delta : Delta) :
    SignalKStore × List Delta :=
  match vesselUri st.selfUri delta.context with
  | none => (st, [delta])
  | some uri =>
    let vessels := st.vessels.alter uri VesselData.empty id
    let (st, updates) :=
      applyUpdates uri clock { st with vessels := vessels } delta.updates
    if updates = [] then (st, [])
    else
      ({ st with deltaCount := st.deltaCount + 1 },
        [{ context := delta.context, updates := updates }])

end SignalKStore

/-- The calls that change what the store answers, with the clock that
`apply_delta` reads. -/
inductive StoreEvent where
  | applyDelta (clock : Nat → DateTime) (delta : Delta)
  | setSourcePriorities (priorities : HashMap SourceRef UInt16)
  | setSourceTtls (ttls : HashMap SourceRef UInt64)
  | setVesselIdentity (vesselUri : String) (name mmsi : Option String)

def SignalKStore.step [JsonText] (st : SignalKStore) : StoreEvent → SignalKStore × List Delta
  | .applyDelta clock delta => st.applyDelta clock delta
  | .setSourcePriorities priorities => (st.setSourcePriorities priorities, [])
  | .setSourceTtls ttls => (st.setSourceTtls ttls, [])
  | .setVesselIdentity uri name mmsi => (st.setVesselIdentity uri name mmsi, [])

end SignalK

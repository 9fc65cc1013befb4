import Mathlib.Algebra.BigOperators.Group.List.Basic
import Mathlib.Tactic.Linarith
import SignalK.Lib.Machine
import SignalK.Ws.Connection

/-! The statistics that a socket sends to administrators, while any number of sockets come and go
and the store is written to at any point between their steps. -/
namespace SignalK.Statistics

/-! A counter that is reported by its growth since the report before. -/

section
variable {ω ι : Type*}

/-- What was reported since the last mark is how far the counters had come when they were last
read. -/
def Metered (mark : ω) (rates : ι → ω → ℚ) (counts : ι → ω → Bool) (prev : ι → Nat)
    (out : List ω) : Prop :=
  ∃ before between, out = before ++ mark :: between ∧ mark ∉ between ∧ ∀ i,
    before.countP (counts i) ≤ prev i ∧ prev i ≤ out.countP (counts i) ∧
    (between.map (rates i)).sum = prev i - before.countP (counts i)

variable {mark : ω} {rates : ι → ω → ℚ} {counts : ι → ω → Bool} {prev : ι → Nat}
  {out : List ω}

theorem Metered.start (out : List ω) :
    Metered mark rates counts (fun i => out.countP (counts i)) (out ++ [mark]) := by
  refine ⟨out, [], rfl, List.not_mem_nil, fun i => ⟨Nat.le_refl _, ?_, ?_⟩⟩
  · rw [List.countP_append]
    exact Nat.le_add_right _ _
  · rw [List.map_nil, List.sum_nil, sub_self]

/-- What is no report and no mark changes nothing. -/
theorem Metered.append (h : Metered mark rates counts prev out) {more : List ω}
    (hmark : mark ∉ more) (hzero : ∀ i, ∀ o ∈ more, rates i o = 0) :
    Metered mark rates counts prev (out ++ more) := by
  obtain ⟨before, between, rfl, hlast, h⟩ := h
  refine ⟨before, between ++ more, by simp, ?_, fun i => ?_⟩
  · rw [List.mem_append, not_or]
    exact ⟨hlast, hmark⟩
  · obtain ⟨hstart, hle, hsum⟩ := h i
    have hnone : (more.map (rates i)).sum = 0 := by
      refine List.sum_eq_zero fun x hx => ?_
      obtain ⟨o, ho, rfl⟩ := List.mem_map.mp hx
      exact hzero i o ho
    refine ⟨hstart, ?_, ?_⟩
    · rw [List.countP_append]
      omega
    · rw [List.map_append, List.sum_append, hsum, hnone, add_zero]

/-- A report of the growth brings it up to date. -/
theorem Metered.report (h : Metered mark rates counts prev out) {o : ω} (hmark : mark ≠ o)
    (hrate : ∀ i, rates i o = out.countP (counts i) - prev i) :
    Metered mark rates counts (fun i => out.countP (counts i)) (out ++ [o]) := by
  obtain ⟨before, between, hout, hlast, h⟩ := h
  refine ⟨before, between ++ [o], by simp [hout], ?_, fun i => ?_⟩
  · rw [List.mem_append, List.mem_singleton, not_or]
    exact ⟨hlast, hmark⟩
  · obtain ⟨hstart, hle, hsum⟩ := h i
    refine ⟨Nat.le_trans hstart hle, ?_, ?_⟩
    · rw [List.countP_append]
      exact Nat.le_add_right _ _
    · rw [List.map_append, List.sum_append, hsum, List.map_singleton, List.sum_singleton,
        hrate i]
      linarith

theorem Metered.le (h : Metered mark rates counts prev out) (i : ι) :
    prev i ≤ out.countP (counts i) := by
  obtain ⟨before, between, hout, hlast, h⟩ := h
  exact (h i).2.1

/-- With the growth since the last report all that was counted since the mark is told. -/
theorem Metered.total (h : Metered mark rates counts prev out)
    (hmark : ∀ i, counts i mark = false) :
    ∃ before between, out = before ++ mark :: between ∧ mark ∉ between ∧ ∀ i,
      (between.map (rates i)).sum + ((out.countP (counts i) : ℚ) - prev i) =
        between.countP (counts i) := by
  obtain ⟨before, between, hout, hlast, h⟩ := h
  refine ⟨before, between, hout, hlast, fun i => ?_⟩
  obtain ⟨hstart, hle, hsum⟩ := h i
  have hcount : out.countP (counts i) =
      before.countP (counts i) + between.countP (counts i) := by
    rw [hout, List.countP_append, List.countP_cons_of_neg (by simp [hmark i])]
  rw [hsum, hcount, Nat.cast_add]
  linarith

end

/-! The sockets. -/

/-- Where the task of a socket is in `handle_socket`. -/
inductive Socket where
  /-- up to the subscription to the broadcasts -/
  | greeting (serverevents : Bool)
  | subscribed (serverevents : Bool)
  | counted (serverevents : Bool) (prevDeltaCount : UInt64)
  | serving (serverevents : Bool) (prevDeltaCount : UInt64)
      (prevSourceCounts : HashMap String UInt64)

def Socket.prevDeltaCount : Socket → Option UInt64
  | counted _ n => some n
  | serving _ n _ => some n
  | _ => none

def Socket.prevSourceCounts : Socket → Option (HashMap String UInt64)
  | serving _ _ counts => some counts
  | _ => none

structure ServerState where
  store : SignalKStore
  /-- a `usize` -/
  wsClientCount : UInt64
  sockets : HashMap Nat Socket

/-- A socket's task goes on. -/
def ServerState.set (s : ServerState) (id : Nat) (socket : Socket) : ServerState :=
  { s with sockets := s.sockets.insert id socket }

def ServerState.new (selfUri : String) : ServerState := ⟨SignalKStore.new selfUri, 0, ∅⟩

structure ProviderStats where
  deltaRate : ℚ
  deltaCount : UInt64

structure ServerStatisticsData where
  deltaRate : ℚ
  numberOfAvailablePaths : Nat
  wsClients : UInt64
  uptime : UInt64
  providerStatistics : HashMap String ProviderStats

/-- What happens in the order in which it happens. -/
inductive Output where
  | connected (id : Nat)
  /-- `prev_delta_count` has its first value. -/
  | deltaCountRead (id : Nat)
  /-- `prev_source_counts` has its first value. -/
  | sourceCountsRead (id : Nat)
  | left (id : Nat)
  /-- An update was registered under the label of its source. -/
  | updated (label : String)
  /-- Values of a vessel were applied and sent to the subscribers. -/
  | applied (delta : Delta)
  | statistics (id : Nat) (data : ServerStatisticsData)

/-- One step of one task. More runs are possible here than in the server, where the lock of the
store keeps writers out while a socket is greeting. -/
inductive Event where
  | write (e : StoreEvent)
  | connect (id : Nat) (serverevents : Bool)
  | subscribe (id : Nat)
  | readDeltaCount (id : Nat)
  | readSourceCounts (id : Nat)
  | tick (id : Nat) (uptime : UInt64)
  /-- by any of the breaks or early returns -/
  | leave (id : Nat)

section
variable [JsonText]

/-- The label under which the store counts the updates of a source. -/
def sourceLabel (source : Source) : String :=
  (Text.split '.' (makeSourceRef source)).headD (makeSourceRef source)

/-- What a write to the store counts. -/
def written (store : SignalKStore) : StoreEvent → List Output
  | .applyDelta clock delta =>
    match vesselUri store.selfUri delta.context with
    | none => []
    | some _ => delta.updates.map (fun update => .updated (sourceLabel update.source)) ++
        (store.applyDelta clock delta).2.map .applied
  | _ => []

/-- `(count - prev) as f64` -/
def rate (count prev : UInt64) : ℚ := roundToDouble (count - prev).toNat

/-- `self_path_count` -/
def selfPathCount (store : SignalKStore) : Nat :=
  ((store.vessels.lookup store.selfUri).map fun vessel => vessel.values.keys.card).getD 0

def serverStatistics (s : ServerState) (prevDeltaCount : UInt64)
    (prevSourceCounts : HashMap String UInt64) (uptime : UInt64) : ServerStatisticsData where
  deltaRate := rate s.store.deltaCount prevDeltaCount
  numberOfAvailablePaths := selfPathCount s.store
  wsClients := s.wsClientCount
  uptime := uptime
  providerStatistics := s.store.sourceDeltaCounts.mapValues fun source count =>
    { deltaRate := rate count ((prevSourceCounts.lookup source).getD 0), deltaCount := count }

def step (s : ServerState) : Event → ServerState × List Output
  | .write e => ({ s with store := (s.store.step e).1 }, written s.store e)
  | .connect id serverevents =>
    -- Every socket has a task of its own.
    if id ∈ s.sockets then (s, [])
    else
      ({ s with
          wsClientCount := s.wsClientCount + 1
          sockets := s.sockets.insert id (.greeting serverevents) }, [.connected id])
  | .subscribe id =>
    match s.sockets.lookup id with
    | some (.greeting serverevents) =>
      (s.set id (.subscribed serverevents), [])
    | _ => (s, [])
  | .readDeltaCount id =>
    match s.sockets.lookup id with
    | some (.subscribed serverevents) =>
      (s.set id (.counted serverevents s.store.deltaCount), [.deltaCountRead id])
    | _ => (s, [])
  | .readSourceCounts id =>
    match s.sockets.lookup id with
    | some (.counted serverevents prev) =>
      (s.set id (.serving serverevents prev s.store.sourceDeltaCounts), [.sourceCountsRead id])
    | _ => (s, [])
  | .tick id uptime =>
    match s.sockets.lookup id with
    | some (.serving true prev prevSources) =>
      (s.set id (.serving true s.store.deltaCount s.store.sourceDeltaCounts),
        [.statistics id (serverStatistics s prev prevSources uptime)])
    | _ => (s, [])
  | .leave id =>
    if id ∈ s.sockets then
      ({ s with wsClientCount := s.wsClientCount - 1, sockets := s.sockets.erase id }, [.left id])
    else (s, [])

end

/-! What a trace says. -/

def isApplied : Output → Bool
  | .applied _ => true
  | _ => false

def isUpdated (label : String) : Output → Bool
  | .updated other => decide (other = label)
  | _ => false

/-- The rate for a label; a source that is not listed has none. -/
def ServerStatisticsData.rateOf (label : String) (data : ServerStatisticsData) : ℚ :=
  ((data.providerStatistics.lookup label).map (·.deltaRate)).getD 0

/-- What a socket was told about all deltas. -/
def deltaRate (id : Nat) : Output → ℚ
  | .statistics other data => if other = id then data.deltaRate else 0
  | _ => 0

/-- What a socket was told about a source. -/
def sourceRate (id : Nat) (label : String) : Output → ℚ
  | .statistics other data => if other = id then data.rateOf label else 0
  | _ => 0

def openStep (ids : Finset Nat) : Output → Finset Nat
  | .connected id => insert id ids
  | .left id => ids.erase id
  | _ => ids

/-- The sockets that are connected after a trace. -/
def openIds (out : List Output) : Finset Nat := out.foldl openStep ∅

/-- The statistics against what came before: the rates since a socket read the counts add up to
what was counted since then, and all sockets are counted. -/
structure Covers (id : Nat) (data : ServerStatisticsData) (front : List Output) : Prop where
  connected : id ∈ openIds front
  wsClients : data.wsClients = UInt64.ofNat (openIds front).card
  deltas : ∃ before between, front = before ++ .deltaCountRead id :: between ∧
    .deltaCountRead id ∉ between ∧
    (between.map (deltaRate id)).sum + data.deltaRate = between.countP isApplied
  sources : ∃ before between, front = before ++ .sourceCountsRead id :: between ∧
    .sourceCountsRead id ∉ between ∧ ∀ label,
    (between.map (sourceRate id label)).sum + data.rateOf label = between.countP (isUpdated label)
  counts : ∀ label, ∀ stats ∈ data.providerStatistics.lookup label,
    stats.deltaCount = UInt64.ofNat (front.countP (isUpdated label))

def Faithful (out : List Output) : Prop :=
  ∀ front id data after, out = front ++ .statistics id data :: after → Covers id data front

/-! What the store counts. -/

section
variable [JsonText]

omit [JsonText] in
theorem applyValues_counts (uri : String) (source : SourceRef) (timestamp : DateTime)
    (clock : Nat → DateTime) (st : SignalKStore) (values : List PathValue) :
    (st.applyValues uri source timestamp clock values).1.deltaCount = st.deltaCount ∧
      (st.applyValues uri source timestamp clock values).1.sourceDeltaCounts =
        st.sourceDeltaCounts := by
  induction values generalizing clock st with
  | nil => exact ⟨rfl, rfl⟩
  | cons pv values ih =>
    have hvalue : (st.applyValue uri source timestamp (clock 0) pv).1.deltaCount =
        st.deltaCount ∧ (st.applyValue uri source timestamp (clock 0) pv).1.sourceDeltaCounts =
        st.sourceDeltaCounts := by
      unfold SignalKStore.applyValue
      dsimp only
      split
      · exact ⟨rfl, rfl⟩
      · exact ⟨rfl, rfl⟩
    obtain ⟨hdelta, hsource⟩ := ih (fun n => clock (n + 1))
      (st.applyValue uri source timestamp (clock 0) pv).1
    exact ⟨hdelta.trans hvalue.1, hsource.trans hvalue.2⟩

/-- How often a source was counted. -/
def sourceCount (store : SignalKStore) (label : String) : UInt64 :=
  (store.sourceDeltaCounts.lookup label).getD 0

theorem applyUpdates_counts (uri : String) (clock : Nat → DateTime) (st : SignalKStore)
    (updates : List Update) :
    (st.applyUpdates uri clock updates).1.deltaCount = st.deltaCount ∧
      ∀ label, sourceCount (st.applyUpdates uri clock updates).1 label = sourceCount st label +
        UInt64.ofNat ((updates.map fun update => .updated (sourceLabel update.source)).countP
          (isUpdated label)) := by
  induction updates generalizing clock st with
  | nil =>
    refine ⟨rfl, fun label => ?_⟩
    exact (UInt64.add_zero _).symm
  | cons update updates ih =>
    obtain ⟨hdelta, hsource⟩ := applyValues_counts uri (makeSourceRef update.source)
      update.timestamp clock (st.registerSource update.source) update.values
    obtain ⟨hdeltas, hsources⟩ := ih (fun n => clock (n + update.values.length))
      (SignalKStore.applyValues uri (makeSourceRef update.source)
      update.timestamp clock (st.registerSource update.source) update.values).1
    refine ⟨hdeltas.trans hdelta, fun label => (hsources label).trans ?_⟩
    have hregister : sourceCount (st.registerSource update.source) label =
        sourceCount st label + if sourceLabel update.source = label then 1 else 0 := by
      change ((st.sourceDeltaCounts.alter (sourceLabel update.source) 0 (· + 1)).lookup
        label).getD 0 = _
      rw [HashMap.lookup_alter]
      by_cases hlabel : label = sourceLabel update.source
      · subst hlabel
        simp [sourceCount]
      · rw [if_neg hlabel, if_neg (Ne.symm hlabel), UInt64.add_zero]
        rfl
    rw [sourceCount, hsource, ← sourceCount, hregister, List.map_cons, List.countP_cons]
    by_cases hlabel : sourceLabel update.source = label
    · have hcounted : isUpdated label (.updated (sourceLabel update.source)) = true :=
        decide_eq_true hlabel
      rw [if_pos hlabel, if_pos hcounted, UInt64.ofNat_add, UInt64.add_assoc, UInt64.add_comm 1]
      rfl
    · simp [hlabel, isUpdated]

/-- A write adds to the counts what it says it does. -/
theorem step_counts (store : SignalKStore) (e : StoreEvent) :
    (store.step e).1.deltaCount =
        store.deltaCount + UInt64.ofNat ((written store e).countP isApplied) ∧
      ∀ label, sourceCount (store.step e).1 label = sourceCount store label +
        UInt64.ofNat ((written store e).countP (isUpdated label)) := by
  have hsame : ∀ other : SignalKStore, other.deltaCount = store.deltaCount →
      other.sourceDeltaCounts = store.sourceDeltaCounts →
      other.deltaCount = store.deltaCount + UInt64.ofNat (([] : List Output).countP isApplied) ∧
        ∀ label, sourceCount other label = sourceCount store label +
          UInt64.ofNat (([] : List Output).countP (isUpdated label)) := by
    intro other hdelta hsource
    refine ⟨hdelta.trans (UInt64.add_zero _).symm, fun label => ?_⟩
    rw [sourceCount, hsource]
    exact (UInt64.add_zero _).symm
  cases e with
  | setSourcePriorities priorities => exact hsame _ rfl rfl
  | setSourceTtls ttls => exact hsame _ rfl rfl
  | setVesselIdentity uri name mmsi =>
    refine hsame _ ?_ ?_
    · rw [SignalKStore.step, SignalKStore.setVesselIdentity]
      split
      · rfl
      · rfl
    · rw [SignalKStore.step, SignalKStore.setVesselIdentity]
      split
      · rfl
      · rfl
  | applyDelta clock delta =>
    rw [SignalKStore.step, written, SignalKStore.applyDelta]
    cases huri : vesselUri store.selfUri delta.context with
    | none => exact hsame _ rfl rfl
    | some uri =>
      dsimp only
      obtain ⟨hdelta, hsource⟩ := applyUpdates_counts uri clock
        { store with vessels := store.vessels.alter uri VesselData.empty id } delta.updates
      generalize SignalKStore.applyUpdates uri clock
        { store with vessels := store.vessels.alter uri VesselData.empty id } delta.updates = r
        at hdelta hsource ⊢
      have hupdates : (delta.updates.map fun update =>
          Output.updated (sourceLabel update.source)).countP isApplied = 0 := by
        rw [List.countP_eq_zero]
        intro o ho
        obtain ⟨update, -, rfl⟩ := List.mem_map.mp ho
        exact Bool.false_ne_true
      by_cases hnone : r.2 = []
      · simp only [hnone, if_true, List.map_nil, List.append_nil, hupdates]
        exact ⟨hdelta.trans (UInt64.add_zero _).symm, hsource⟩
      · simp only [if_neg hnone, List.map_singleton, List.countP_append, hupdates]
        refine ⟨?_, fun label => (hsource label).trans ?_⟩
        · rw [hdelta]
          rfl
        · simp [sourceCount, isUpdated]

/-! A run keeps the books. -/

/-- What the sockets have read and told, when all of it has been one trace. -/
structure Kept (s : ServerState) (out : List Output) : Prop where
  deltaCount : s.store.deltaCount = UInt64.ofNat (out.countP isApplied)
  sourceCount : ∀ label,
    sourceCount s.store label = UInt64.ofNat (out.countP (isUpdated label))
  sockets : s.sockets.keys = openIds out
  wsClientCount : s.wsClientCount = UInt64.ofNat (openIds out).card
  deltas : ∀ id socket prev, s.sockets.lookup id = some socket →
    socket.prevDeltaCount = some prev →
    ∃ n, prev = UInt64.ofNat n ∧ Metered (.deltaCountRead id) (fun _ : Unit => deltaRate id)
      (fun _ => isApplied) (fun _ => n) out
  sources : ∀ id socket prev, s.sockets.lookup id = some socket →
    socket.prevSourceCounts = some prev →
    ∃ n : String → Nat, (∀ label, (prev.lookup label).getD 0 = UInt64.ofNat (n label)) ∧
      Metered (.sourceCountsRead id) (sourceRate id) isUpdated n out

omit [JsonText] in
theorem openIds_append (out more : List Output) :
    openIds (out ++ more) = more.foldl openStep (openIds out) :=
  List.foldl_append

omit [JsonText] in
theorem rate_ofNat {count prev : Nat} (hle : prev ≤ count) (hfew : count < 2 ^ 53) :
    rate (UInt64.ofNat count) (UInt64.ofNat prev) = count - prev := by
  have hcount : (UInt64.ofNat count - UInt64.ofNat prev).toNat = count - prev := by
    have hsub : UInt64.ofNat count - UInt64.ofNat prev = UInt64.ofNat (count - prev) := by
      rw [UInt64.ofNat_sub hle]
    rw [hsub, UInt64.toNat_ofNat', Nat.mod_eq_of_lt (by omega)]
  rw [rate, hcount, roundToDouble, if_pos (by omega), Nat.cast_sub hle]

omit [JsonText] in
theorem Kept.deltas_append {s : ServerState} {out : List Output} (h : Kept s out) {id : Nat}
    {socket : Socket} {prev : UInt64} (hsocket : s.sockets.lookup id = some socket)
    (hprev : socket.prevDeltaCount = some prev) {more : List Output}
    (hmark : .deltaCountRead id ∉ more) (hzero : ∀ o ∈ more, deltaRate id o = 0) :
    ∃ n, prev = UInt64.ofNat n ∧ Metered (.deltaCountRead id) (fun _ : Unit => deltaRate id)
      (fun _ => isApplied) (fun _ => n) (out ++ more) := by
  obtain ⟨n, hn, hmeter⟩ := h.deltas id socket prev hsocket hprev
  exact ⟨n, hn, hmeter.append hmark fun _ => hzero⟩

omit [JsonText] in
theorem Kept.sources_append {s : ServerState} {out : List Output} (h : Kept s out) {id : Nat}
    {socket : Socket} {prev : HashMap String UInt64}
    (hsocket : s.sockets.lookup id = some socket) (hprev : socket.prevSourceCounts = some prev)
    {more : List Output} (hmark : .sourceCountsRead id ∉ more)
    (hzero : ∀ label, ∀ o ∈ more, sourceRate id label o = 0) :
    ∃ n : String → Nat, (∀ label, (prev.lookup label).getD 0 = UInt64.ofNat (n label)) ∧
      Metered (.sourceCountsRead id) (sourceRate id) isUpdated n (out ++ more) := by
  obtain ⟨n, hn, hmeter⟩ := h.sources id socket prev hsocket hprev
  exact ⟨n, hn, hmeter.append hmark hzero⟩

theorem written_cases {store : SignalKStore} {e : StoreEvent} {o : Output}
    (h : o ∈ written store e) : (∃ label, o = .updated label) ∨ ∃ delta, o = .applied delta := by
  cases e with
  | applyDelta clock delta =>
    rw [written] at h
    split at h
    · exact absurd h List.not_mem_nil
    · rcases List.mem_append.mp h with h | h
      · obtain ⟨update, -, rfl⟩ := List.mem_map.mp h
        exact .inl ⟨_, rfl⟩
      · obtain ⟨delta, -, rfl⟩ := List.mem_map.mp h
        exact .inr ⟨_, rfl⟩
  | setSourcePriorities priorities => exact absurd h List.not_mem_nil
  | setSourceTtls ttls => exact absurd h List.not_mem_nil
  | setVesselIdentity uri name mmsi => exact absurd h List.not_mem_nil

theorem kept_write {s : ServerState} {out : List Output} (h : Kept s out) (e : StoreEvent) :
    Kept (step s (.write e)).1 (out ++ (step s (.write e)).2) := by
  obtain ⟨hdelta, hsource⟩ := step_counts s.store e
  have hopen : openIds (out ++ written s.store e) = openIds out := by
    rw [openIds_append]
    generalize hmore : written s.store e = more
    have hcases : ∀ o ∈ more, (∃ label, o = .updated label) ∨ ∃ delta, o = .applied delta :=
      fun o ho => written_cases (hmore ▸ ho)
    clear hmore
    induction more with
    | nil => rfl
    | cons o more ih =>
      rw [List.forall_mem_cons] at hcases
      rw [List.foldl_cons]
      rcases hcases.1 with ⟨label, rfl⟩ | ⟨delta, rfl⟩
      · exact ih hcases.2
      · exact ih hcases.2
  constructor
  case deltaCount =>
    change (s.store.step e).1.deltaCount = _
    rw [hdelta, h.deltaCount, ← UInt64.ofNat_add, ← List.countP_append]
    rfl
  case sourceCount =>
    intro label
    change Statistics.sourceCount (s.store.step e).1 label = _
    rw [hsource, h.sourceCount, ← UInt64.ofNat_add, ← List.countP_append]
    rfl
  case sockets => exact h.sockets.trans hopen.symm
  case wsClientCount => exact h.wsClientCount.trans (by rw [step, hopen])
  case deltas =>
    intro id socket prev hsocket hprev
    refine h.deltas_append hsocket hprev (fun ho => ?_) fun o ho => ?_
    · rcases written_cases ho with ⟨_, ho⟩ | ⟨_, ho⟩ <;> cases ho
    · rcases written_cases ho with ⟨_, rfl⟩ | ⟨_, rfl⟩ <;> rfl
  case sources =>
    intro id socket prev hsocket hprev
    refine h.sources_append hsocket hprev (fun ho => ?_) fun label o ho => ?_
    · rcases written_cases ho with ⟨_, ho⟩ | ⟨_, ho⟩ <;> cases ho
    · rcases written_cases ho with ⟨_, rfl⟩ | ⟨_, rfl⟩ <;> rfl

/-- What the task of a socket does while the socket stays connected. -/
def Own (id : Nat) (o : Output) : Prop :=
  o = .deltaCountRead id ∨ o = .sourceCountsRead id ∨ ∃ data, o = .statistics id data

omit [JsonText] in
/-- One socket goes on; the others do not notice. -/
theorem Kept.set {s : ServerState} {out : List Output} (h : Kept s out) {id : Nat}
    (hid : id ∈ s.sockets) {socket : Socket} {more : List Output} (hown : ∀ o ∈ more, Own id o)
    (hdeltas : ∀ prev, socket.prevDeltaCount = some prev → ∃ n, prev = UInt64.ofNat n ∧
      Metered (.deltaCountRead id) (fun _ : Unit => deltaRate id) (fun _ => isApplied)
        (fun _ => n) (out ++ more))
    (hsources : ∀ prev, socket.prevSourceCounts = some prev → ∃ n : String → Nat,
      (∀ label, (prev.lookup label).getD 0 = UInt64.ofNat (n label)) ∧
      Metered (.sourceCountsRead id) (sourceRate id) isUpdated n (out ++ more)) :
    Kept (s.set id socket) (out ++ more) := by
  have hopen : openIds (out ++ more) = openIds out := by
    rw [openIds_append]
    clear hdeltas hsources
    induction more with
    | nil => rfl
    | cons o more ih =>
      rw [List.forall_mem_cons] at hown
      rw [List.foldl_cons]
      rcases hown.1 with rfl | rfl | ⟨data, rfl⟩
      all_goals exact ih hown.2
  have happlied : (out ++ more).countP isApplied = out.countP isApplied := by
    rw [List.countP_append, Nat.add_eq_left, List.countP_eq_zero]
    intro o ho
    rcases hown o ho with rfl | rfl | ⟨data, rfl⟩
    all_goals exact Bool.false_ne_true
  have hupdated : ∀ label,
      (out ++ more).countP (isUpdated label) = out.countP (isUpdated label) := by
    intro label
    rw [List.countP_append, Nat.add_eq_left, List.countP_eq_zero]
    intro o ho
    rcases hown o ho with rfl | rfl | ⟨data, rfl⟩
    all_goals exact Bool.false_ne_true
  constructor
  case deltaCount => exact h.deltaCount.trans (by rw [happlied])
  case sourceCount => exact fun label => (h.sourceCount label).trans (by rw [hupdated])
  case sockets =>
    rw [hopen, ← h.sockets]
    ext other
    rw [Finmap.mem_keys, Finmap.mem_keys, ServerState.set, Finmap.mem_insert]
    exact ⟨fun hor => hor.elim (fun he => he ▸ hid) (fun hmem => hmem), .inr⟩
  case wsClientCount => exact h.wsClientCount.trans (by rw [hopen])
  case deltas =>
    intro other found prev hfound hprev
    rw [ServerState.set, HashMap.lookup_insert] at hfound
    split_ifs at hfound with hother
    · cases hfound
      exact hother ▸ hdeltas prev hprev
    · refine h.deltas_append hfound hprev (fun ho => ?_) fun o ho => ?_
      · rcases hown _ ho with he | he | ⟨data, he⟩
        · cases he
          exact hother rfl
        · cases he
        · cases he
      · rcases hown o ho with rfl | rfl | ⟨data, rfl⟩
        · rfl
        · rfl
        · exact if_neg (Ne.symm hother)
  case sources =>
    intro other found prev hfound hprev
    rw [ServerState.set, HashMap.lookup_insert] at hfound
    split_ifs at hfound with hother
    · cases hfound
      exact hother ▸ hsources prev hprev
    · refine h.sources_append hfound hprev (fun ho => ?_) fun label o ho => ?_
      · rcases hown _ ho with he | he | ⟨data, he⟩
        · cases he
        · cases he
          exact hother rfl
        · cases he
      · rcases hown o ho with rfl | rfl | ⟨data, rfl⟩
        · rfl
        · rfl
        · exact if_neg (Ne.symm hother)

theorem kept_subscribe {s : ServerState} {out : List Output} (h : Kept s out) (id : Nat) :
    Kept (step s (.subscribe id)).1 (out ++ (step s (.subscribe id)).2) := by
  rw [step]
  split
  · rename_i serverevents hsocket
    exact h.set (Finmap.mem_of_lookup_eq_some hsocket) (fun o ho => absurd ho List.not_mem_nil)
      (fun prev hprev => absurd hprev (Option.some_ne_none prev).symm)
      (fun prev hprev => absurd hprev (Option.some_ne_none prev).symm)
  · rwa [List.append_nil]

theorem kept_readDeltaCount {s : ServerState} {out : List Output} (h : Kept s out) (id : Nat) :
    Kept (step s (.readDeltaCount id)).1 (out ++ (step s (.readDeltaCount id)).2) := by
  rw [step]
  split
  · rename_i serverevents hsocket
    refine h.set (Finmap.mem_of_lookup_eq_some hsocket)
      (fun o ho => .inl (List.mem_singleton.mp ho)) (fun prev hprev => ?_)
      (fun prev hprev => absurd hprev (Option.some_ne_none prev).symm)
    cases hprev
    exact ⟨_, h.deltaCount, Metered.start out⟩
  · rwa [List.append_nil]

theorem kept_readSourceCounts {s : ServerState} {out : List Output} (h : Kept s out)
    (id : Nat) :
    Kept (step s (.readSourceCounts id)).1 (out ++ (step s (.readSourceCounts id)).2) := by
  rw [step]
  split
  · rename_i serverevents prev hsocket
    refine h.set (Finmap.mem_of_lookup_eq_some hsocket)
      (fun o ho => .inr (.inl (List.mem_singleton.mp ho))) (fun other hother => ?_)
      (fun counts hcounts => ?_)
    · cases hother
      refine h.deltas_append hsocket rfl ?_ fun o ho => ?_
      · simp
      · rw [List.mem_singleton.mp ho]
        rfl
    · cases hcounts
      exact ⟨_, h.sourceCount, Metered.start out⟩
  · rwa [List.append_nil]

theorem kept_connect {s : ServerState} {out : List Output} (h : Kept s out) (id : Nat)
    (serverevents : Bool) :
    Kept (step s (.connect id serverevents)).1 (out ++ (step s (.connect id serverevents)).2) := by
  rw [step]
  split
  · rwa [List.append_nil]
  · rename_i hid
    have hopen : openIds (out ++ [.connected id]) = insert id (openIds out) := by
      rw [openIds_append]
      rfl
    have hfresh : id ∉ openIds out := by
      rw [← h.sockets, Finmap.mem_keys]
      exact hid
    constructor
    case deltaCount => exact h.deltaCount.trans (by simp [isApplied])
    case sourceCount => exact fun label => (h.sourceCount label).trans (by simp [isUpdated])
    case sockets =>
      rw [hopen, ← h.sockets]
      ext other
      rw [Finmap.mem_keys, Finmap.mem_insert, Finset.mem_insert, Finmap.mem_keys]
    case wsClientCount =>
      rw [hopen, Finset.card_insert_of_notMem hfresh, UInt64.ofNat_add, ← h.wsClientCount]
      rfl
    case deltas =>
      intro other found prev hfound hprev
      rw [HashMap.lookup_insert] at hfound
      split_ifs at hfound with hother
      · cases hfound
        exact absurd hprev (Option.some_ne_none prev).symm
      · refine h.deltas_append hfound hprev (by simp) fun o ho => ?_
        rw [List.mem_singleton.mp ho]
        rfl
    case sources =>
      intro other found prev hfound hprev
      rw [HashMap.lookup_insert] at hfound
      split_ifs at hfound with hother
      · cases hfound
        exact absurd hprev (Option.some_ne_none prev).symm
      · refine h.sources_append hfound hprev (by simp) fun label o ho => ?_
        rw [List.mem_singleton.mp ho]
        rfl

theorem kept_leave {s : ServerState} {out : List Output} (h : Kept s out) (id : Nat) :
    Kept (step s (.leave id)).1 (out ++ (step s (.leave id)).2) := by
  rw [step]
  split
  · rename_i hid
    have hopen : openIds (out ++ [.left id]) = (openIds out).erase id := by
      rw [openIds_append]
      rfl
    have hmem : id ∈ openIds out := by
      rw [← h.sockets, Finmap.mem_keys]
      exact hid
    constructor
    case deltaCount => exact h.deltaCount.trans (by simp [isApplied])
    case sourceCount => exact fun label => (h.sourceCount label).trans (by simp [isUpdated])
    case sockets => rw [hopen, ← h.sockets, Finmap.keys_erase]
    case wsClientCount =>
      have hcard : (openIds out).card = ((openIds out).erase id).card + 1 :=
        (Finset.card_erase_add_one hmem).symm
      change s.wsClientCount - 1 = _
      rw [hopen, h.wsClientCount, hcard, UInt64.ofNat_add]
      exact UInt64.add_sub_cancel _ _
    case deltas =>
      intro other found prev hfound hprev
      rw [HashMap.lookup_erase] at hfound
      split_ifs at hfound with hother
      refine h.deltas_append hfound hprev (by simp) fun o ho => ?_
      rw [List.mem_singleton.mp ho]
      rfl
    case sources =>
      intro other found prev hfound hprev
      rw [HashMap.lookup_erase] at hfound
      split_ifs at hfound with hother
      refine h.sources_append hfound hprev (by simp) fun label o ho => ?_
      rw [List.mem_singleton.mp ho]
      rfl
  · rwa [List.append_nil]

omit [JsonText] in
/-- What is known about the counts of one source when it is reported. -/
theorem rateOf_serverStatistics {s : ServerState} {out : List Output} (h : Kept s out)
    (hfew : out.length < 2 ^ 53) (prev : UInt64) {prevSources : HashMap String UInt64}
    {n : String → Nat} (hn : ∀ label, (prevSources.lookup label).getD 0 = UInt64.ofNat (n label))
    (hle : ∀ label, n label ≤ out.countP (isUpdated label)) (uptime : UInt64) (label : String) :
    (serverStatistics s prev prevSources uptime).rateOf label =
      out.countP (isUpdated label) - n label := by
  have hcount := h.sourceCount label
  have hlt : out.countP (isUpdated label) < 2 ^ 53 := Nat.lt_of_le_of_lt List.countP_le_length hfew
  rw [ServerStatisticsData.rateOf, serverStatistics, HashMap.lookup_mapValues, Option.map_map]
  cases hlookup : s.store.sourceDeltaCounts.lookup label with
  | none =>
    have hzero : out.countP (isUpdated label) = 0 := by
      rw [Statistics.sourceCount, hlookup, Option.getD_none] at hcount
      have hnat := congrArg UInt64.toNat hcount
      rw [UInt64.toNat_ofNat', Nat.mod_eq_of_lt (by omega)] at hnat
      exact hnat.symm
    have hnone : n label = 0 := Nat.le_zero.mp (hzero ▸ hle label)
    rw [hzero, hnone]
    simp
  | some count =>
    rw [Statistics.sourceCount, hlookup, Option.getD_some] at hcount
    simp only [Option.map_some, Function.comp_apply, Option.getD_some]
    rw [hcount, hn, rate_ofNat (hle label) hlt]

/-- A report tells each socket what it has not been told yet. -/
theorem kept_tick {s : ServerState} {out : List Output} (h : Kept s out)
    (hfew : out.length < 2 ^ 53) (id : Nat) (uptime : UInt64) :
    Kept (step s (.tick id uptime)).1 (out ++ (step s (.tick id uptime)).2) ∧
      ∀ other data, .statistics other data ∈ (step s (.tick id uptime)).2 →
        (step s (.tick id uptime)).2 = [.statistics other data] ∧ Covers other data out := by
  rw [step]
  split
  · rename_i prev prevSources hsocket
    have hid : id ∈ s.sockets := Finmap.mem_of_lookup_eq_some hsocket
    obtain ⟨n, hn, hmeter⟩ := h.deltas id _ prev hsocket rfl
    obtain ⟨m, hm, hsources⟩ := h.sources id _ prevSources hsocket rfl
    have hrate : (serverStatistics s prev prevSources uptime).deltaRate =
        out.countP isApplied - n := by
      rw [serverStatistics, h.deltaCount, hn]
      exact rate_ofNat (hmeter.le ()) (Nat.lt_of_le_of_lt List.countP_le_length hfew)
    have hrates := rateOf_serverStatistics h hfew prev hm hsources.le uptime
    refine ⟨?_, ?_⟩
    · refine h.set hid (fun o ho => .inr (.inr ⟨_, List.mem_singleton.mp ho⟩))
        (fun count hcount => ?_) (fun counts hcounts => ?_)
      · cases hcount
        refine ⟨_, h.deltaCount, hmeter.report (by simp) fun _ => ?_⟩
        rw [deltaRate, if_pos rfl, hrate]
      · cases hcounts
        refine ⟨_, h.sourceCount, hsources.report (by simp) fun label => ?_⟩
        rw [sourceRate, if_pos rfl, hrates]
    · intro other data hdata
      obtain ⟨rfl, rfl⟩ := Output.statistics.inj (List.mem_singleton.mp hdata)
      refine ⟨rfl, ?_⟩
      constructor
      case connected => rwa [← h.sockets, Finmap.mem_keys]
      case wsClients => exact h.wsClientCount
      case deltas =>
        obtain ⟨before, between, hout, hlast, htotal⟩ := hmeter.total fun _ => rfl
        exact ⟨before, between, hout, hlast, hrate ▸ htotal ()⟩
      case sources =>
        obtain ⟨before, between, hout, hlast, htotal⟩ := hsources.total fun _ => rfl
        exact ⟨before, between, hout, hlast, fun label => hrates label ▸ htotal label⟩
      case counts =>
        intro label stats hstats
        rw [serverStatistics, HashMap.lookup_mapValues] at hstats
        obtain ⟨count, hcount, rfl⟩ := Option.map_eq_some_iff.mp hstats
        have hsource := h.sourceCount label
        rwa [Statistics.sourceCount, hcount] at hsource
  · refine ⟨by rwa [List.append_nil], fun other data hdata => absurd hdata List.not_mem_nil⟩

theorem kept_step {s : ServerState} {out : List Output} (h : Kept s out)
    (hfew : out.length < 2 ^ 53) (e : Event) :
    Kept (step s e).1 (out ++ (step s e).2) ∧
      ∀ id data, .statistics id data ∈ (step s e).2 →
        (step s e).2 = [.statistics id data] ∧ Covers id data out := by
  cases e with
  | write e =>
    refine ⟨kept_write h e, fun id data hdata => ?_⟩
    rcases written_cases hdata with ⟨_, he⟩ | ⟨_, he⟩ <;> cases he
  | connect id serverevents =>
    refine ⟨kept_connect h id serverevents, fun other data hdata => ?_⟩
    rw [step] at hdata
    split at hdata <;> simp at hdata
  | subscribe id =>
    refine ⟨kept_subscribe h id, fun other data hdata => ?_⟩
    rw [step] at hdata
    split at hdata <;> simp at hdata
  | readDeltaCount id =>
    refine ⟨kept_readDeltaCount h id, fun other data hdata => ?_⟩
    rw [step] at hdata
    split at hdata <;> simp at hdata
  | readSourceCounts id =>
    refine ⟨kept_readSourceCounts h id, fun other data hdata => ?_⟩
    rw [step] at hdata
    split at hdata <;> simp at hdata
  | tick id uptime => exact kept_tick h hfew id uptime
  | leave id =>
    refine ⟨kept_leave h id, fun other data hdata => ?_⟩
    rw [step] at hdata
    split at hdata <;> simp at hdata

omit [JsonText] in
theorem kept_new (selfUri : String) : Kept (ServerState.new selfUri) [] where
  deltaCount := rfl
  sourceCount _ := rfl
  sockets := rfl
  wsClientCount := rfl
  deltas _ socket _ hsocket := absurd hsocket (Option.some_ne_none socket).symm
  sources _ socket _ hsocket := absurd hsocket (Option.some_ne_none socket).symm

/-- In every run all statistics that are sent are faithful: no delta and no update of a source
is missed or told twice, and no socket is counted that has gone. -/
theorem statistics_faithful (selfUri : String) (es : List Event)
    (hfew : (Machine.exec step (ServerState.new selfUri) es).2.length < 2 ^ 53) :
    Faithful (Machine.exec step (ServerState.new selfUri) es).2 := by
  suffices h : Kept (Machine.exec step (ServerState.new selfUri) es).1
      (Machine.exec step (ServerState.new selfUri) es).2 ∧
      Faithful (Machine.exec step (ServerState.new selfUri) es).2 from h.2
  induction es using List.reverseRecOn with
  | nil =>
    refine ⟨kept_new selfUri, fun front id data after hout => ?_⟩
    exact absurd hout.symm (List.append_ne_nil_of_right_ne_nil _ (List.cons_ne_nil _ _))
  | append_singleton es e ih =>
    rw [Machine.exec_append] at hfew ⊢
    simp only [Machine.exec, List.append_nil, List.length_append] at hfew ⊢
    obtain ⟨hkept, hfaithful⟩ := ih (by omega)
    obtain ⟨hnext, hcovers⟩ := kept_step hkept (by omega) e
    refine ⟨hnext, fun front id data after hout => ?_⟩
    obtain ⟨rest, hfront, hrest⟩ | ⟨rest, hfront, hrest⟩ := List.append_eq_append_iff.mp hout
    · -- The statistics are among what the last step sends, so they are all of it.
      obtain ⟨hsingle, hlast⟩ := hcovers id data (hrest ▸ by simp)
      rw [hsingle] at hrest
      cases rest with
      | nil => exact (List.append_nil _ ▸ hfront) ▸ hlast
      | cons o rest => simp at hrest
    · cases rest with
      | nil =>
        obtain ⟨hsingle, hlast⟩ := hcovers id data (by
          rw [List.nil_append] at hrest
          exact hrest ▸ List.mem_cons_self)
        exact (List.append_nil front ▸ hfront) ▸ hlast
      | cons o rest =>
        rw [List.cons_append, List.cons.injEq] at hrest
        exact hfaithful front id data rest (hrest.1 ▸ hfront)

end

section
attribute [local instance] JsonText.unused

/-- An engine reports its speed. -/
def speed (revolutions : ℚ) : Event :=
  .write (.applyDelta (fun _ => 0) (Delta.selfVessel [{
    source := Source.plugin "engine"
    timestamp := 0
    values := [⟨"propulsion.port.revolutions", Json.ofF64 revolutions⟩] }]))

/-- Of four reports an administrator comes after the first and goes after the last, before the
next tick. -/
def shift : List Event :=
  [speed 19, .connect 1 true, .subscribe 1, .readDeltaCount 1, .readSourceCounts 1, speed 20,
    speed 21, .tick 1 1, .connect 2 false, speed 22, .leave 1]

theorem shift_faithful : Faithful (Machine.exec step (ServerState.new "u") shift).2 ∧
    ((Machine.exec step (ServerState.new "u") shift).2.map (deltaRate 1)).sum = 2 :=
  ⟨statistics_faithful "u" shift (by decide +kernel), by decide +kernel⟩

end

end SignalK.Statistics

import SignalK.Store.Ledger

/-! The broadcast stream as a log: a subscriber that lays every received value
over its view rebuilds the store's active values. -/
namespace SignalK.Replay

/-- What a subscriber holds: vessel and path → last received value. -/
abbrev View := HashMap (String × String) SignalKValue

def View.put (view : View) (w : Write) : View :=
  view.insert (w.vessel, w.path) w.entry

/-- Fold one broadcast delta; contexts that name no vessel are ignored. -/
def receive [JsonText] (selfUri : String) (view : View) (delta : Delta) : View :=
  (deltaWrites selfUri delta).foldl View.put view

def replay [JsonText] (selfUri : String) (stream : List Delta) : View :=
  stream.foldl (receive selfUri) ∅

/-- The writes of a run that the store accepts, in order. -/
def acceptedWrites [JsonText] : SignalKStore → List StoreEvent → List Write
  | _, [] => []
  | st, .applyDelta clock delta :: es =>
    (Machine.exec Ledger.write st.ledger (Machine.timed clock (deltaWrites st.selfUri delta))).2 ++
      acceptedWrites (st.step (.applyDelta clock delta)).1 es
  | st, e :: es => acceptedWrites (st.step e).1 es

theorem lookup_foldl_put (view : View) (ws : List Write) :
    (fun uri path => (ws.foldl View.put view).lookup (uri, path)) =
      ws.foldl (fun active w => Keyed.set₂ active w.vessel w.path (some w.entry))
        fun uri path => view.lookup (uri, path) := by
  induction ws generalizing view with
  | nil => rfl
  | cons w ws ih =>
    have hput : (fun uri path => (view.put w).lookup (uri, path)) =
        Keyed.set₂ (fun uri path => view.lookup (uri, path)) w.vessel w.path (some w.entry) := by
      funext uri path
      simp [View.put, HashMap.lookup_insert, Keyed.set₂]
    rw [List.foldl_cons, List.foldl_cons, ih, hput]

theorem replay_append [JsonText] (selfUri : String) (stream out : List Delta) :
    replay selfUri (stream ++ out) =
      (out.flatMap (deltaWrites selfUri)).foldl View.put (replay selfUri stream) := by
  rw [replay, List.foldl_append, List.foldl_flatMap]
  rfl

/-- The broadcast of one delta carries exactly its accepted writes. -/
theorem applyDelta_stream [JsonText] (clock : Nat → DateTime) (st : SignalKStore)
    (delta : Delta) :
    (st.applyDelta clock delta).2.flatMap (deltaWrites st.selfUri) =
      (Machine.exec Ledger.write st.ledger
        (Machine.timed clock (deltaWrites st.selfUri delta))).2 := by
  cases hu : vesselUri st.selfUri delta.context with
  | none =>
    have hnone : deltaWrites st.selfUri delta = [] := by simp [deltaWrites, hu]
    simp [SignalKStore.applyDelta, hu, hnone, Machine.timed, Machine.exec]
  | some uri =>
    obtain ⟨hctx, hws⟩ := st.applyDelta_broadcast clock delta hu
    rw [← hws]
    refine List.flatMap_congr fun d hd => ?_
    have hd' : vesselUri st.selfUri d.context = some uri := by rw [hctx d hd, hu]
    simp [deltaWrites, hd']

theorem step_selfUri [JsonText] (st : SignalKStore) (e : StoreEvent) :
    (st.step e).1.selfUri = st.selfUri := by
  cases e with
  | applyDelta clock delta => exact st.applyDelta_selfUri clock delta
  | setSourcePriorities priorities => rfl
  | setSourceTtls ttls => rfl
  | setVesselIdentity uri name mmsi =>
    exact congrArg Ledger.self (st.setVesselIdentity_ledger uri name mmsi)

/-- The view agrees with the store. -/
def Agrees [JsonText] (selfUri : String) (st : SignalKStore) (stream : List Delta) : Prop :=
  st.selfUri = selfUri ∧
    (fun uri path => (replay selfUri stream).lookup (uri, path)) = st.getVesselPath

theorem step_agrees [JsonText] {selfUri : String} (st : SignalKStore) (stream : List Delta)
    (e : StoreEvent) (h : Agrees selfUri st stream) :
    Agrees selfUri (st.step e).1 (stream ++ (st.step e).2) := by
  obtain ⟨hself, hview⟩ := h
  refine ⟨(step_selfUri st e).trans hself, ?_⟩
  cases e with
  | applyDelta clock delta =>
    have hactive := congrArg Ledger.active (st.applyDelta_ledger clock delta)
    rw [Ledger.exec_active] at hactive
    rw [replay_append, lookup_foldl_put, hview, ← hself]
    rw [SignalKStore.step, applyDelta_stream]
    exact hactive.symm
  | setSourcePriorities priorities =>
    rw [SignalKStore.step, List.append_nil]
    exact hview
  | setSourceTtls ttls =>
    rw [SignalKStore.step, List.append_nil]
    exact hview
  | setVesselIdentity uri name mmsi =>
    have hactive := congrArg Ledger.active (st.setVesselIdentity_ledger uri name mmsi)
    rw [SignalKStore.step, List.append_nil]
    exact hview.trans hactive.symm

theorem stream_eq_accepted [JsonText] (selfUri : String) (st : SignalKStore)
    (hself : st.selfUri = selfUri) (events : List StoreEvent) :
    (Machine.exec SignalKStore.step st events).2.flatMap (deltaWrites selfUri) =
      acceptedWrites st events := by
  induction events generalizing st with
  | nil => rfl
  | cons e es ih =>
    have hn := ih (st.step e).1 ((step_selfUri st e).trans hself)
    rw [Machine.exec, List.flatMap_append, hn, ← hself]
    cases e with
    | applyDelta clock delta =>
      rw [acceptedWrites, SignalKStore.step, applyDelta_stream]
    | setSourcePriorities priorities => rfl
    | setSourceTtls ttls => rfl
    | setVesselIdentity uri name mmsi => rfl

/-- The stream replays to the store, and carries the accepted writes and no
others. -/
theorem run_replay [JsonText] (selfUri : String) (events : List StoreEvent) :
    let r := Machine.exec SignalKStore.step (SignalKStore.new selfUri) events
    (∀ uri path, (replay selfUri r.2).lookup (uri, path) = r.1.getVesselPath uri path) ∧
      r.2.flatMap (deltaWrites selfUri) =
        acceptedWrites (SignalKStore.new selfUri) events := by
  intro r
  have hinit : Agrees selfUri (SignalKStore.new selfUri) [] := by
    refine ⟨rfl, ?_⟩
    funext uri path
    simp [replay]
  have hrun := Machine.exec_inv (fun st h e ha _ => step_agrees st h e ha) hinit
    (Machine.meets_true SignalKStore.step (SignalKStore.new selfUri) events)
  constructor
  · intro uri path
    exact congrFun (congrFun hrun.2 uri) path
  · exact stream_eq_accepted selfUri _ rfl events

end SignalK.Replay

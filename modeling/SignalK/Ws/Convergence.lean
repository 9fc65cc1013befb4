import SignalK.Store.Replay
import SignalK.Ws.Connection

/-! A client of the default mode beside the store it follows. Its one
subscription remembers the last value sent on any path, so a value that equals
it is held back within the period although the client never saw it on its own
path. -/
namespace SignalK.Convergence

/-- A default client: its subscriptions and the last value it got for each self
path. -/
structure Client where
  subscriptions : Subscriptions
  view : HashMap String Json

def put (view : HashMap String Json) (pv : PathValue) : HashMap String Json :=
  view.insert pv.path pv.value

/-- The only order of iteration of a default client's subscriptions. -/
def order : List String := ["default-self"]

namespace Client

/-- One delta through the filter, folded into the view. -/
def deliver (clock : Nat → Reading) (client : Client) (delta : Delta) :
    Client × List PathValue :=
  let r := filterDelta order clock client.subscriptions delta
  ({ subscriptions := r.1
     view := (r.2.flatMap Delta.pathValues).foldl put client.view },
    r.2.flatMap Delta.pathValues)

/-- One value through the filter. -/
def receive (client : Client) (e : Reading × PathValue) : Client × List PathValue :=
  let r := filterStep order client.subscriptions e
  ({ subscriptions := r.1, view := r.2.foldl put client.view }, r.2)

theorem deliver_exec (clock : Nat → Reading) (client : Client) (delta : Delta) :
    client.deliver clock delta =
      Machine.exec receive client (Machine.timed clock delta.pathValues) := by
  have hexec : ∀ (es : List (Reading × PathValue)) (client : Client),
      Machine.exec receive client es =
        ({ subscriptions := (Machine.exec (filterStep order) client.subscriptions es).1
           view :=
             (Machine.exec (filterStep order) client.subscriptions es).2.foldl put client.view },
          (Machine.exec (filterStep order) client.subscriptions es).2) := by
    intro es
    induction es with
    | nil => exact fun _ => rfl
    | cons e es ih =>
      intro client
      simp only [Machine.exec, ih, List.foldl_append]
      rfl
  rw [hexec, ← filterDelta_exec]
  rfl

/-- The one subscription is the default one. -/
def IsDefault (client : Client) : Prop :=
  ∃ sub, client.subscriptions.lookup "default-self" = some sub ∧ sub.path = "**" ∧
    sub.policy = .ideal ∧ sub.periodMs = 1000 ∧ sub.minPeriodMs = 0

/-- The filter lets the value through, or the client has it for this path: nothing
was sent yet, or the value differs from the last one sent on any path, or the
period since then is over, or the last value sent for this path was the same. -/
def Unmasked (client : Client) (e : Reading × PathValue) : Prop :=
  ∀ sub ∈ client.subscriptions.lookup "default-self",
    sub.lastSent = none ∨ e.2.value ≠ sub.lastValue.getD .null ∨
      (∃ last ∈ sub.lastSent, elapsed (e.1.check "default-self") last 1000 = true) ∨
      client.view.lookup e.2.path = some e.2.value

instance : DecidableRel Unmasked := fun client _ =>
  inferInstanceAs (Decidable (∀ sub ∈ client.subscriptions.lookup "default-self",
    _ ∨ _ ∨ (∃ last ∈ sub.lastSent, _) ∨ _))

/-- A value that differs from the last one delivered for its path is delivered. -/
def NotSuppressed (client : Client) (e : Reading × PathValue) : Prop :=
  client.view.lookup e.2.path ≠ some e.2.value → (client.receive e).2 = [e.2]

theorem receive_default {client : Client} {sub : ActiveSubscription}
    (hs : client.subscriptions.lookup "default-self" = some sub) (e : Reading × PathValue) :
    client.receive e =
      if sub.shouldDeliver (e.1.check "default-self") e.2.path e.2.value then
        ({ subscriptions := client.subscriptions.insert "default-self"
             (sub.markSent e.1.sent e.2.value)
           view := put client.view e.2 }, [e.2])
      else (client, []) := by
  by_cases hd : sub.shouldDeliver (e.1.check "default-self") e.2.path e.2.value = true <;>
    simp [receive, filterStep, order, filterValue, hs, hd]

theorem default_shouldDeliver {sub : ActiveSubscription} (hpath : sub.path = "**")
    (hpolicy : sub.policy = .ideal) (hperiod : sub.periodMs = 1000) (hmin : sub.minPeriodMs = 0)
    (now : Instant) (path : String) (value : Json) :
    sub.shouldDeliver now path value = true ↔
      sub.lastSent = none ∨ value ≠ sub.lastValue.getD .null ∨
        ∃ last ∈ sub.lastSent, elapsed now last 1000 = true := by
  rw [ActiveSubscription.shouldDeliver_eq, hpath, matchesPattern_all, Bool.true_and]
  cases hl : sub.lastSent with
  | none => simp [ActiveSubscription.due_fresh hl]
  | some last =>
    by_cases hv : value = sub.lastValue.getD .null
    · simp [ActiveSubscription.window, hpolicy, hperiod, ActiveSubscription.due, hl, hv]
    · simp [ActiveSubscription.window, hpolicy, hmin, ActiveSubscription.due_zero, hv]

theorem receive_isDefault {client : Client} (h : client.IsDefault) (e : Reading × PathValue) :
    (client.receive e).1.IsDefault := by
  obtain ⟨sub, hs, hrest⟩ := h
  rw [receive_default hs]
  by_cases hd : sub.shouldDeliver (e.1.check "default-self") e.2.path e.2.value = true
  · rw [if_pos hd]
    exact ⟨sub.markSent e.1.sent e.2.value, by simp, hrest⟩
  · rw [if_neg hd]
    exact ⟨sub, hs, hrest⟩

/-- A default client suppresses exactly the masked values. -/
theorem notSuppressed_iff {client : Client} (h : client.IsDefault) (e : Reading × PathValue) :
    client.NotSuppressed e ↔ client.Unmasked e := by
  obtain ⟨sub, hs, hpath, hpolicy, hperiod, hmin⟩ := h
  have hd := default_shouldDeliver hpath hpolicy hperiod hmin (e.1.check "default-self") e.2.path
    e.2.value
  have hsent : (client.receive e).2 = [e.2] ↔
      sub.shouldDeliver (e.1.check "default-self") e.2.path e.2.value = true := by
    rw [receive_default hs]
    by_cases ht : sub.shouldDeliver (e.1.check "default-self") e.2.path e.2.value = true <;>
      simp [ht]
  have hall : client.Unmasked e ↔
      sub.shouldDeliver (e.1.check "default-self") e.2.path e.2.value = true ∨
        client.view.lookup e.2.path = some e.2.value := by
    rw [hd]
    constructor
    · intro hu
      simpa only [or_assoc] using hu sub hs
    · intro hu sub' hs'
      rw [hs] at hs'
      cases hs'
      simpa only [or_assoc] using hu
  rw [NotSuppressed, hsent, hall]
  by_cases hv : client.view.lookup e.2.path = some e.2.value
  · exact ⟨fun _ => .inr hv, fun _ hne => absurd hv hne⟩
  · exact ⟨fun h => .inl (h hv), fun h _ => h.resolve_right hv⟩

/-- Unmasked, a value always ends up in the view. -/
theorem receive_view {client : Client} (h : client.IsDefault) {e : Reading × PathValue}
    (hu : client.Unmasked e) : (client.receive e).1.view = put client.view e.2 := by
  have hn := (notSuppressed_iff h e).mpr hu
  by_cases hv : client.view.lookup e.2.path = some e.2.value
  · obtain ⟨sub, hs, -⟩ := h
    rw [receive_default hs]
    by_cases hd : sub.shouldDeliver (e.1.check "default-self") e.2.path e.2.value = true
    · rw [if_pos hd]
    · rw [if_neg hd, put, HashMap.insert_of_lookup hv]
  · have hout : (filterStep order client.subscriptions e).2 = [e.2] := hn hv
    simp [receive, hout]

theorem exec_view (es : List (Reading × PathValue)) {client : Client} (h : client.IsDefault)
    (hm : Machine.Meets receive Unmasked client es) :
    (Machine.exec receive client es).1.IsDefault ∧
      (Machine.exec receive client es).1.view = (es.map Prod.snd).foldl put client.view := by
  induction es generalizing client with
  | nil => exact ⟨h, rfl⟩
  | cons e es ih =>
    obtain ⟨hdef, hview⟩ := ih (receive_isDefault h e) hm.2
    rw [receive_view h hm.1] at hview
    exact ⟨hdef, hview⟩

/-- Every value of a delta is unmasked when its turn comes. -/
def UnmaskedDelta (clock : Nat → Reading) (client : Client) (delta : Delta) : Prop :=
  Machine.Meets receive Unmasked client (Machine.timed clock delta.pathValues)

instance (clock : Nat → Reading) : DecidableRel (UnmaskedDelta clock) := fun client delta =>
  Machine.decidableMeets receive Unmasked client (Machine.timed clock delta.pathValues)

theorem deliver_view {clock : Nat → Reading} {client : Client} (h : client.IsDefault)
    {delta : Delta} (hm : UnmaskedDelta clock client delta) :
    (client.deliver clock delta).1.IsDefault ∧
      (client.deliver clock delta).1.view = delta.pathValues.foldl put client.view := by
  have hexec := exec_view _ h hm
  rw [Machine.timed_snd] at hexec
  rwa [deliver_exec]

theorem run_deliver_view {clock : Nat → Reading} (deltas : List Delta) {client : Client}
    (h : client.IsDefault)
    (hm : Machine.Meets (deliver clock) (UnmaskedDelta clock) client deltas) :
    (Machine.run (deliver clock) client deltas).IsDefault ∧
      (Machine.run (deliver clock) client deltas).view =
        (deltas.flatMap Delta.pathValues).foldl put client.view := by
  induction deltas generalizing client with
  | nil => exact ⟨h, rfl⟩
  | cons d ds ih =>
    obtain ⟨hdef, hview⟩ := deliver_view h hm.1
    obtain ⟨hdef', hview'⟩ := ih hdef hm.2
    rw [hview] at hview'
    rw [List.flatMap_cons, List.foldl_append]
    exact ⟨hdef', hview'⟩

end Client

/-- The store and a default client that follows it. -/
structure Session where
  store : SignalKStore
  client : Client

/-- A store call with the readings its broadcast sees at the client. -/
structure SessionEvent where
  call : StoreEvent
  clock : Nat → Reading

namespace Session

/-- Connect with cached values. -/
def connect (store : SignalKStore) (now : DateTime) (entries : List (String × SignalKValue))
    (clock : Nat → Reading) : Session :=
  let r := SignalK.connect .self_ true store.selfUri now entries order clock
  { store := store
    client := { subscriptions := r.1, view := (r.2.flatMap Delta.pathValues).foldl put ∅ } }

def step [JsonText] (s : Session) (e : SessionEvent) : Session × List Delta :=
  let r := s.store.step e.call
  ({ store := r.1, client := Machine.run (Client.deliver e.clock) s.client r.2 }, r.2)

/-- For every self path the client has the store's current value. -/
def Converged (s : Session) : Prop :=
  ∀ path, s.client.view.lookup path = (s.store.getSelfPath path).map (·.value)

/-- The deltas applied address the self vessel. -/
def OnSelf (s : Session) (e : SessionEvent) : Prop :=
  ∀ clock delta, e.call = .applyDelta clock delta →
    resolveContext s.store.selfUri delta.context = "vessels." ++ s.store.selfUri

/-- Every value broadcast is unmasked when its turn comes at the client. -/
def Unmasked [JsonText] (s : Session) (e : SessionEvent) : Prop :=
  Machine.Meets (Client.deliver e.clock) (Client.UnmaskedDelta e.clock) s.client
    (s.store.step e.call).2

instance [JsonText] : DecidableRel Unmasked := fun s e =>
  Machine.decidableMeets (Client.deliver e.clock) (Client.UnmaskedDelta e.clock) s.client
    (s.store.step e.call).2

/-- Every value broadcast that is new to the client for its path is delivered. -/
def NotSuppressed [JsonText] (s : Session) (e : SessionEvent) : Prop :=
  Machine.Meets (Client.deliver e.clock)
    (fun client delta => Machine.Meets Client.receive Client.NotSuppressed client
      (Machine.timed e.clock delta.pathValues))
    s.client (s.store.step e.call).2

/-! The snapshot. -/

/-- A client of the default mode before anything is sent. -/
def freshClient : Client where
  subscriptions := initialSubscriptions .self_
  view := ∅

theorem initialSubscriptions_self :
    (initialSubscriptions .self_).lookup "default-self" =
      some (ActiveSubscription.new "vessels.self" "**" 1000 .ideal 0) := by
  simp [initialSubscriptions, HashMap.collect]

theorem freshClient_isDefault : freshClient.IsDefault :=
  ⟨_, initialSubscriptions_self, rfl, rfl, rfl, rfl⟩

theorem cachedDelta_pathValues (selfUri : String) (now : DateTime)
    (entries : List (String × SignalKValue)) :
    (cachedDelta selfUri now entries).pathValues = entries.map fun e => ⟨e.1, e.2.value⟩ := by
  simp [cachedDelta, Delta.withContext, Delta.pathValues]

theorem connect_client (store : SignalKStore) (now : DateTime)
    (entries : List (String × SignalKValue)) (clock : Nat → Reading) :
    (connect store now entries clock).client =
      (freshClient.deliver clock (cachedDelta store.selfUri now entries)).1 := by
  have hne : initialSubscriptions .self_ ≠ ∅ := by
    intro he
    have hlookup := initialSubscriptions_self
    rw [he] at hlookup
    cases hlookup
  cases entries with
  | nil =>
    rw [Client.deliver_exec, cachedDelta_pathValues]
    simp [connect, SignalK.connect, freshClient, Machine.timed, Machine.exec]
  | cons e es => simp [connect, SignalK.connect, hne, Client.deliver, freshClient]

/-- An unmasked snapshot leaves the client with the store's values. -/
theorem connect_converged {store : SignalKStore} {now : DateTime}
    {entries : List (String × SignalKValue)} {clock : Nat → Reading}
    (ho : SnapshotOrder store entries)
    (hu : freshClient.UnmaskedDelta clock (cachedDelta store.selfUri now entries)) :
    (connect store now entries clock).client.IsDefault ∧
      Converged (connect store now entries clock) := by
  obtain ⟨hdef, hview⟩ := Client.deliver_view freshClient_isDefault hu
  rw [← connect_client] at hdef hview
  refine ⟨hdef, fun path => ?_⟩
  have hcollect := (ho.mapValues fun _ v => v.value).collect_eq
  have hfold : (connect store now entries clock).client.view =
      HashMap.collect (entries.map fun e => (e.1, e.2.value)) := by
    rw [hview, cachedDelta_pathValues, HashMap.collect, List.foldl_map, List.foldl_map]
    rfl
  rw [hfold, hcollect, HashMap.lookup_mapValues]
  have hstore : (connect store now entries clock).store = store := rfl
  rw [hstore, SignalKStore.getSelfPath, SignalKStore.getVesselPath]
  cases store.vessels.lookup store.selfUri <;> rfl

/-! One broadcast. -/

/-- Writes to the self vessel laid over the store's values and over a view. -/
theorem foldl_converged {selfUri : String} (ws : List Write) (hws : ∀ w ∈ ws, w.vessel = selfUri)
    {view : HashMap String Json} {active : String → String → Option SignalKValue}
    (h : ∀ path, view.lookup path = (active selfUri path).map (·.value)) (path : String) :
    ((ws.map Write.pathValue).foldl put view).lookup path =
      ((ws.foldl (fun active w => Keyed.set₂ active w.vessel w.path (some w.entry)) active)
        selfUri path).map (·.value) := by
  induction ws generalizing view active with
  | nil => exact h path
  | cons w ws ih =>
    refine ih (fun v hv => hws v (List.mem_cons_of_mem w hv)) fun p => ?_
    have hvessel : w.vessel = selfUri := hws w List.mem_cons_self
    simp only [put, HashMap.lookup_insert, Keyed.set₂_apply, hvessel]
    by_cases hp : p = w.path
    · simp [hp, Write.pathValue, Write.entry, SignalKValue.new]
    · simp [hp, Ne.symm hp, Write.pathValue, h p]

/-- A call that broadcasts nothing and keeps the self values keeps agreement. -/
theorem converged_of_quiet [JsonText] {s : Session} {e : SessionEvent} (hc : Converged s)
    (hout : (s.store.step e.call).2 = [])
    (hpaths : (s.store.step e.call).1.getVesselPath = s.store.getVesselPath) :
    Converged (s.step e).1 := by
  intro path
  have hstore : (s.step e).1.store.getSelfPath path = s.store.getSelfPath path := by
    have hself : (s.step e).1.store.selfUri = s.store.selfUri := Replay.step_selfUri s.store e.call
    rw [SignalKStore.getSelfPath, SignalKStore.getSelfPath, hself, ← hpaths]
    rfl
  have hclient : (s.step e).1.client = s.client := by
    simp only [step, hout]
    rfl
  rw [hstore, hclient]
  exact hc path

theorem applyDelta_values [JsonText] (clock : Nat → DateTime) (st : SignalKStore) (delta : Delta)
    (h : resolveContext st.selfUri delta.context = "vessels." ++ st.selfUri) :
    (st.applyDelta clock delta).2.flatMap Delta.pathValues =
        ((st.applyDelta clock delta).2.flatMap (deltaWrites st.selfUri)).map Write.pathValue ∧
      ∀ w ∈ (st.applyDelta clock delta).2.flatMap (deltaWrites st.selfUri),
        w.vessel = st.selfUri := by
  have hvessel : vesselUri st.selfUri delta.context = some st.selfUri := by
    rw [vesselUri, h, Text.stripPrefix_append]
  have hself : ∀ d ∈ (st.applyDelta clock delta).2,
      (deltaWrites st.selfUri d).map Write.pathValue = d.pathValues ∧
        ∀ w ∈ deltaWrites st.selfUri d, w.vessel = st.selfUri := by
    intro d hd
    have hctx := (st.applyDelta_broadcast clock delta hvessel).1 d hd
    exact deltaWrites_pathValues (by rw [hctx, hvessel])
  constructor
  · rw [List.map_flatMap]
    exact List.flatMap_congr fun d hd => (hself d hd).1.symm
  · intro w hw
    obtain ⟨d, hd, hw⟩ := List.mem_flatMap.mp hw
    exact (hself d hd).2 w hw

theorem step_converged [JsonText] {s : Session} {e : SessionEvent} (hd : s.client.IsDefault)
    (hc : Converged s) (hself : s.OnSelf e) (hu : s.Unmasked e) :
    (s.step e).1.client.IsDefault ∧ Converged (s.step e).1 := by
  obtain ⟨call, clock⟩ := e
  obtain ⟨hdef, hview⟩ := Client.run_deliver_view _ hd hu
  refine ⟨hdef, ?_⟩
  cases call with
  | applyDelta storeClock delta =>
    obtain ⟨hvalues, hvessel⟩ := applyDelta_values storeClock s.store delta (hself _ _ rfl)
    have hactive := congrArg Ledger.active (s.store.applyDelta_ledger storeClock delta)
    rw [Ledger.exec_active, ← Replay.applyDelta_stream] at hactive
    have hselfUri : (s.step ⟨.applyDelta storeClock delta, clock⟩).1.store.selfUri =
        s.store.selfUri := Replay.step_selfUri _ _
    intro path
    have hfold := foldl_converged _ hvessel hc path
    rw [← hvalues] at hfold
    have hrow := congrFun (congrFun hactive s.store.selfUri) path
    rw [SignalKStore.getSelfPath, hselfUri]
    exact (congrArg (Finmap.lookup path) hview).trans
      (hfold.trans (congrArg (Option.map (·.value)) hrow.symm))
  | setSourcePriorities priorities => exact converged_of_quiet hc rfl rfl
  | setSourceTtls ttls => exact converged_of_quiet hc rfl rfl
  | setVesselIdentity uri name mmsi =>
    exact converged_of_quiet hc rfl
      (congrArg Ledger.active (s.store.setVesselIdentity_ledger uri name mmsi))

theorem unmasked_notSuppressed [JsonText] {s : Session} {e : SessionEvent}
    (hd : s.client.IsDefault) (hu : s.Unmasked e) : s.NotSuppressed e := by
  have hstep : ∀ c d, c.IsDefault → Client.UnmaskedDelta e.clock c d →
      (c.deliver e.clock d).1.IsDefault := fun c d hc hm => (Client.deliver_view hc hm).1
  refine Machine.meets_of_inv hstep ?_ hd hu
  intro client delta hc hm
  exact Machine.meets_of_inv (fun c e hc _ => Client.receive_isDefault hc e)
    (fun c e hc he => (Client.notSuppressed_iff hc e).mpr he) hc hm

/-- A default client that connects with cached values and then follows the
store's deltas of the self vessel has the store's value for every self path after
the snapshot and after each delta, and no value new for its path is suppressed,
in every run in which no value meets the mask. -/
theorem run_converges [JsonText] (store : SignalKStore) (now : DateTime)
    (entries : List (String × SignalKValue)) (clock : Nat → Reading)
    (events : List SessionEvent) (ho : SnapshotOrder store entries)
    (hsnap : freshClient.UnmaskedDelta clock (cachedDelta store.selfUri now entries))
    (hrun : Machine.Meets step (fun s e => s.OnSelf e ∧ s.Unmasked e)
      (connect store now entries clock) events) :
    Converged (Machine.run step (connect store now entries clock) events) ∧
      Machine.Meets Client.receive Client.NotSuppressed freshClient
        (Machine.timed clock (cachedDelta store.selfUri now entries).pathValues) ∧
      Machine.Meets step NotSuppressed (connect store now entries clock) events := by
  have hinit := connect_converged ho hsnap
  have hstep : ∀ s e, s.client.IsDefault ∧ Converged s → s.OnSelf e ∧ s.Unmasked e →
      (s.step e).1.client.IsDefault ∧ Converged (s.step e).1 :=
    fun s e hs he => step_converged hs.1 hs.2 he.1 he.2
  refine ⟨(Machine.run_inv hstep hinit hrun).2, ?_, ?_⟩
  · exact Machine.meets_of_inv (fun c e hc _ => Client.receive_isDefault hc e)
      (fun c e hc he => (Client.notSuppressed_iff hc e).mpr he) freshClient_isDefault hsnap
  · exact Machine.meets_of_inv hstep (fun s e hs he => unmasked_notSuppressed hs.1 he.2)
      hinit hrun

section
local instance : JsonText := JsonText.unused

/-- A self delta from a plugin, applied and delivered at a time in nanoseconds. -/
def pluginEvent (now : Nat) (pvs : List PathValue) : SessionEvent where
  call := .applyDelta (fun _ => now)
    (Delta.selfVessel [{ source := Source.plugin "engine", timestamp := now, values := pvs }])
  clock := fun _ => { check := fun _ => now, sent := now }

theorem pluginEvent_onSelf (s : Session) (now : Nat) (pvs : List PathValue) :
    s.OnSelf (pluginEvent now pvs) := by
  intro clock delta h
  cases h
  simp [Delta.selfVessel, resolveContext]

/-- One value at connect, and then another on a new path. -/
theorem run_converges_new_path :
    let port : PathValue := ⟨"propulsion.port.revolutions", Json.ofF64 20⟩
    let starboard : PathValue := ⟨"propulsion.starboard.revolutions", Json.ofF64 21⟩
    let store := (SignalKStore.new "u").step (pluginEvent 0 [port]).call
    let s := connect store.1 0 [(port.path, SignalKValue.new port.value "engine" 0)]
      fun _ => ⟨fun _ => 0, 0⟩
    Converged (Machine.run step s [pluginEvent 0 [starboard]]) := by
  intro port starboard store s
  exact (run_converges store.1 0 [(port.path, SignalKValue.new port.value "engine" 0)]
    (fun _ => ⟨fun _ => 0, 0⟩) [pluginEvent 0 [starboard]] (by decide +kernel)
    (by decide +kernel) ⟨⟨pluginEvent_onSelf _ _ _, by decide +kernel⟩, trivial⟩).1

/-- Two engines report the same speed: the client never hears of the second. -/
theorem equal_values_masked :
    let store := SignalKStore.new "u"
    let e := pluginEvent 0 [⟨"propulsion.port.revolutions", Json.ofF64 20⟩,
      ⟨"propulsion.starboard.revolutions", Json.ofF64 20⟩]
    let s := connect store 0 [] fun _ => ⟨fun _ => 0, 0⟩
    SnapshotOrder store [] ∧ s.OnSelf e ∧ ¬ Converged (Machine.run step s [e]) := by
  intro store e s
  refine ⟨by decide +kernel, pluginEvent_onSelf _ _ _, ?_⟩
  intro h
  have hstarboard := h "propulsion.starboard.revolutions"
  revert hstarboard
  decide +kernel

end

end Session
end SignalK.Convergence

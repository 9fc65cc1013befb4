import SignalK.Lib.Machine
import SignalK.Lib.Register
import SignalK.Store.Store

/-! What the store is for, without its maps and loops: a ledger of the active
value of every path of every vessel and of the values retained for each source,
written one value at a time. The store refines it. -/
namespace SignalK

structure Write where
  vessel : String
  path : String
  value : Json
  source : SourceRef
  timestamp : DateTime
  deriving DecidableEq

def Write.entry (w : Write) : SignalKValue :=
  SignalKValue.new w.value w.source w.timestamp

@[ext] structure Ledger where
  self : String
  priority : SourceRef → UInt16
  ttl : SourceRef → Option UInt64
  /-- vessel → path → active value -/
  active : String → String → Option SignalKValue
  /-- path → source → latest value, for the self vessel -/
  retained : String → SourceRef → Option SignalKValue

namespace Ledger

def stale (l : Ledger) (now : DateTime) (v : SignalKValue) : Bool :=
  match l.ttl v.source with
  | none => false
  | some ttl => decide (secondsSince now v.timestamp > ttl.toInt64.toInt)

def accepts (l : Ledger) (now : DateTime) (w : Write) : Bool :=
  match l.active w.vessel w.path with
  | none => true
  | some c => l.stale now c || decide (l.priority w.source ≤ l.priority c.source)

/-- The retained values after recording a write, before any eviction. -/
def record (l : Ledger) (w : Write) : String → SourceRef → Option SignalKValue :=
  if w.vessel = l.self then Keyed.set₂ l.retained w.path w.source (some w.entry) else l.retained

/-- The retained values once the expired active value's source is removed. The
removal is by path and source, whatever vessel the write is for. -/
def evict (l : Ledger) (now : DateTime) (w : Write) :
    String → SourceRef → Option SignalKValue :=
  match l.active w.vessel w.path with
  | none => l.record w
  | some c =>
    if l.stale now c then Keyed.set₂ (l.record w) w.path c.source none else l.record w

theorem record_self {l : Ledger} {w : Write} (h : w.vessel = l.self) :
    l.record w = Keyed.set₂ l.retained w.path w.source (some w.entry) := by
  simp [record, h]

theorem record_other {l : Ledger} {w : Write} (h : w.vessel ≠ l.self) :
    l.record w = l.retained := by
  simp [record, h]

theorem evict_fresh {l : Ledger} {now : DateTime} {w : Write}
    (h : ∀ c, l.active w.vessel w.path = some c → l.stale now c = false) :
    l.evict now w = l.record w := by
  cases hc : l.active w.vessel w.path with
  | none => simp [evict, hc]
  | some c => simp [evict, hc, h c hc]

theorem evict_stale {l : Ledger} {now : DateTime} {w : Write} {c : SignalKValue}
    (hc : l.active w.vessel w.path = some c) (hs : l.stale now c = true) :
    l.evict now w = Keyed.set₂ (l.record w) w.path c.source none := by
  simp [evict, hc, hs]

/-- An expired active value is always replaced. -/
theorem accepts_of_stale {l : Ledger} {now : DateTime} {w : Write} {c : SignalKValue}
    (hc : l.active w.vessel w.path = some c) (hs : l.stale now c = true) :
    l.accepts now w = true := by
  simp [accepts, hc, hs]

/-- The source of the active value is never rejected. -/
theorem source_ne_of_rejected {l : Ledger} {now : DateTime} {w : Write} {c : SignalKValue}
    (hc : l.active w.vessel w.path = some c) (hr : l.accepts now w = false) :
    w.source ≠ c.source := by
  intro he
  simp [accepts, hc, he] at hr

/-- One timed write; an accepted one is emitted. -/
def write (l : Ledger) (tw : DateTime × Write) : Ledger × List Write :=
  if l.accepts tw.1 tw.2 then
    ({ l with
        active := Keyed.set₂ l.active tw.2.vessel tw.2.path (some tw.2.entry)
        retained := l.evict tw.1 tw.2 }, [tw.2])
  else ({ l with retained := l.record tw.2 }, [])

@[simp] theorem write_self (l : Ledger) (tw : DateTime × Write) :
    (l.write tw).1.self = l.self := by
  unfold write
  split <;> rfl

@[simp] theorem write_priority (l : Ledger) (tw : DateTime × Write) :
    (l.write tw).1.priority = l.priority := by
  unfold write
  split <;> rfl

@[simp] theorem write_ttl (l : Ledger) (tw : DateTime × Write) :
    (l.write tw).1.ttl = l.ttl := by
  unfold write
  split <;> rfl

/-- Only an accepted write changes an active value, and only its own. -/
theorem write_active (l : Ledger) (now : DateTime) (w : Write) (uri path : String) :
    (l.write (now, w)).1.active uri path =
      if (w.vessel = uri ∧ w.path = path) ∧ l.accepts now w = true then some w.entry
      else l.active uri path := by
  cases ha : l.accepts now w with
  | false => simp [write, ha]
  | true => simp [write, ha, Keyed.set₂_apply]

theorem exec_self (l : Ledger) (ws : List (DateTime × Write)) :
    (Machine.exec write l ws).1.self = l.self := by
  induction ws generalizing l with
  | nil => rfl
  | cons tw ws ih => rw [Machine.exec, ih, write_self]

/-- The active values are the accepted writes laid over the old ones. -/
theorem exec_active (l : Ledger) (ws : List (DateTime × Write)) :
    (Machine.exec write l ws).1.active =
      (Machine.exec write l ws).2.foldl
        (fun active w => Keyed.set₂ active w.vessel w.path (some w.entry)) l.active := by
  induction ws generalizing l with
  | nil => rfl
  | cons tw ws ih =>
    have hw : (l.write tw).1.active = (l.write tw).2.foldl
        (fun active w => Keyed.set₂ active w.vessel w.path (some w.entry)) l.active := by
      unfold write
      split <;> rfl
    rw [Machine.exec, ih, List.foldl_append, hw]

theorem exec_emitted {l : Ledger} {ws : List (DateTime × Write)} {w : Write}
    (h : w ∈ (Machine.exec write l ws).2) : w ∈ ws.map Prod.snd := by
  induction ws generalizing l with
  | nil => cases h
  | cons tw ws ih =>
    rw [Machine.exec] at h
    cases List.mem_append.mp h with
    | inl h =>
      unfold write at h
      split at h
      · rw [List.mem_singleton.mp h]
        exact List.mem_cons_self
      · cases h
    | inr h => exact List.mem_cons_of_mem _ (ih h)

/-- Writes of one source to paths that it alone has written are all accepted. -/
theorem exec_unrivalled {l : Ledger} {s : SourceRef} {tws : List (DateTime × Write)}
    (hs : ∀ tw ∈ tws, tw.2.source = s)
    (hl : ∀ tw ∈ tws, ∀ c, l.active tw.2.vessel tw.2.path = some c → c.source = s) :
    (Machine.exec write l tws).2 = tws.map Prod.snd := by
  induction tws generalizing l with
  | nil => rfl
  | cons tw tws ih =>
    have hsrc := hs tw List.mem_cons_self
    have hacc : l.accepts tw.1 tw.2 = true := by
      cases hc : l.active tw.2.vessel tw.2.path with
      | none => simp [accepts, hc]
      | some c => simp [accepts, hc, hsrc, hl tw List.mem_cons_self c hc]
    have hn := ih (l := (l.write tw).1) (fun t ht => hs t (List.mem_cons_of_mem tw ht))
    rw [Machine.exec, hn]
    · simp [write, hacc]
    · intro t ht c hc
      simp only [write, hacc, if_true, Keyed.set₂_apply] at hc
      split_ifs at hc with hk
      · rw [← Option.some.inj hc]
        exact hsrc
      · exact hl t (List.mem_cons_of_mem tw ht) c hc

/-- Every value of the ledger, active or retained, satisfies a property of its path. -/
def All (P : String → Json → Prop) (l : Ledger) : Prop :=
  (∀ uri path v, l.active uri path = some v → P path v.value) ∧
    ∀ path source v, l.retained path source = some v → P path v.value

theorem All.record {P : String → Json → Prop} {l : Ledger} (h : l.All P) {w : Write}
    (hw : P w.path w.value) {path : String} {source : SourceRef} {v : SignalKValue}
    (hv : l.record w path source = some v) : P path v.value := by
  by_cases hself : w.vessel = l.self
  · rw [record_self hself, Keyed.set₂_apply] at hv
    split_ifs at hv with hk
    · rw [← hk.1, ← Option.some.inj hv]
      exact hw
    · exact h.2 path source v hv
  · rw [record_other hself] at hv
    exact h.2 path source v hv

theorem All.evict {P : String → Json → Prop} {l : Ledger} (h : l.All P) {now : DateTime}
    {w : Write} (hw : P w.path w.value) {path : String} {source : SourceRef} {v : SignalKValue}
    (hv : l.evict now w path source = some v) : P path v.value := by
  cases hc : l.active w.vessel w.path with
  | none =>
    have he : l.evict now w = l.record w := by simp [Ledger.evict, hc]
    rw [he] at hv
    exact h.record hw hv
  | some c =>
    cases hs : l.stale now c with
    | false =>
      rw [evict_fresh fun d hd => by rwa [← Option.some.inj (hc.symm.trans hd)]] at hv
      exact h.record hw hv
    | true =>
      rw [evict_stale hc hs, Keyed.set₂_apply] at hv
      split_ifs at hv
      exact h.record hw hv

theorem All.write {P : String → Json → Prop} {l : Ledger} (h : l.All P) {tw : DateTime × Write}
    (hw : P tw.2.path tw.2.value) : (l.write tw).1.All P := by
  unfold Ledger.write
  split
  · constructor
    · intro uri path v hv
      simp only [Keyed.set₂_apply] at hv
      split_ifs at hv with hk
      · rw [← hk.2, ← Option.some.inj hv]
        exact hw
      · exact h.1 uri path v hv
    · exact fun path source v hv => h.evict hw hv
  · exact ⟨h.1, fun path source v hv => h.record hw hv⟩

theorem All.exec {P : String → Json → Prop} {l : Ledger} (h : l.All P)
    {tws : List (DateTime × Write)} (hw : ∀ tw ∈ tws, P tw.2.path tw.2.value) :
    (Machine.exec Ledger.write l tws).1.All P := by
  induction tws generalizing l with
  | nil => exact h
  | cons tw tws ih =>
    exact ih (h.write (hw tw List.mem_cons_self)) fun t ht => hw t (List.mem_cons_of_mem tw ht)

end Ledger

/-- One value of an update, addressed to the vessel its delta resolves to. -/
def Write.of (vessel : String) (source : SourceRef) (timestamp : DateTime)
    (pv : PathValue) : Write :=
  ⟨vessel, pv.path, pv.value, source, timestamp⟩

/-- The writes of a whole delta: updates, then values, in order. -/
def updateWrites [JsonText] (vessel : String) (updates : List Update) : List Write :=
  updates.flatMap fun u => u.values.map (Write.of vessel (makeSourceRef u.source) u.timestamp)

/-- The writes of a delta as the store sees them: none unless it addresses a
vessel. -/
def deltaWrites [JsonText] (selfUri : String) (delta : Delta) : List Write :=
  match vesselUri selfUri delta.context with
  | none => []
  | some uri => updateWrites uri delta.updates

def Write.pathValue (w : Write) : PathValue :=
  ⟨w.path, w.value⟩

/-- The writes of a delta to a vessel are its values, addressed to that vessel. -/
theorem deltaWrites_pathValues [JsonText] {selfUri uri : String} {delta : Delta}
    (hu : vesselUri selfUri delta.context = some uri) :
    (deltaWrites selfUri delta).map Write.pathValue = delta.pathValues ∧
      ∀ w ∈ deltaWrites selfUri delta, w.vessel = uri := by
  have hw : deltaWrites selfUri delta = updateWrites uri delta.updates := by
    simp [deltaWrites, hu]
  rw [hw, updateWrites, List.map_flatMap]
  constructor
  · simp [Delta.pathValues, Write.pathValue, Write.of, Function.comp_def]
  · intro w hmem
    obtain ⟨u, -, hw⟩ := List.mem_flatMap.mp hmem
    obtain ⟨pv, -, he⟩ := List.mem_map.mp hw
    rw [← he, Write.of]

theorem deltaWrites_selfVessel [JsonText] (selfUri : String) (source : Source)
    (timestamp : DateTime) (values : List PathValue) :
    deltaWrites selfUri (Delta.selfVessel [⟨source, timestamp, values⟩]) =
      values.map (Write.of selfUri (makeSourceRef source) timestamp) := by
  simp [deltaWrites, vesselUri, resolveContext, Delta.selfVessel, updateWrites]

namespace SignalKStore

def ledger (st : SignalKStore) : Ledger where
  self := st.selfUri
  priority := st.priority
  ttl := fun s => st.sourceTtls.lookup s
  active := st.getVesselPath
  retained := st.getSelfPathBySource

theorem evictStale_eq (st : SignalKStore) (uri path : String) (now : DateTime) :
    st.evictStale uri path now =
      ((st.getVesselPath uri path).filter (st.ledger.stale now)).map SignalKValue.source := by
  cases hc : st.getVesselPath uri path with
  | none => simp [evictStale, hc]
  | some c =>
    cases ht : st.sourceTtls.lookup c.source with
    | none => simp [evictStale, hc, ht, Ledger.stale, ledger]
    | some ttl =>
      by_cases ha : secondsSince now c.timestamp > ttl.toInt64.toInt
      · simp [evictStale, hc, ht, Ledger.stale, ledger, ha]
      · simp [evictStale, hc, ht, Ledger.stale, ledger, ha]

theorem shouldUpdate_eq (st : SignalKStore) (now : DateTime) (w : Write) :
    st.shouldUpdate w.vessel w.path w.source now = st.ledger.accepts now w := by
  have ha : st.ledger.active w.vessel w.path = st.getVesselPath w.vessel w.path := rfl
  have hp : st.ledger.priority = st.priority := rfl
  cases hc : st.getVesselPath w.vessel w.path with
  | none => simp [shouldUpdate, evictStale_eq, Ledger.accepts, ha, hc]
  | some c =>
    cases hs : st.ledger.stale now c <;>
      simp [shouldUpdate, evictStale_eq, Ledger.accepts, ha, hp, hc, hs]

theorem setActive_eq (st : SignalKStore) (uri path : String) (v : SignalKValue) :
    (fun u p => ((st.setActive uri path v).lookup u).bind fun vessel => vessel.values.lookup p) =
      Keyed.set₂ st.getVesselPath uri path (some v) := by
  funext u p
  rw [setActive, HashMap.lookup_alter]
  by_cases hu : u = uri
  · subst hu
    cases hv : st.vessels.lookup u <;>
      simp [HashMap.lookup_insert, getVesselPath, hv, VesselData.empty, Keyed.set₂]
  · simp [hu, getVesselPath, Keyed.set₂]

theorem recordSource_eq (st : SignalKStore) (w : Write) :
    (st.recordSource w.vessel w.path w.entry).lookup₂ = st.ledger.record w := by
  funext p s
  by_cases hv : w.vessel = st.selfUri
  · simp [recordSource, hv, Ledger.record, ledger, HashMap.lookup₂_alter_insert, Keyed.set₂,
      getSelfPathBySource, Write.entry, SignalKValue.new]
  · simp [recordSource, hv, Ledger.record, ledger, getSelfPathBySource]

theorem removeSource_some (m : HashMap String (HashMap SourceRef SignalKValue)) (path : String)
    (e : SourceRef) :
    (removeSource m path (some e)).lookup₂ = Keyed.set₂ m.lookup₂ path e none := by
  funext p s
  cases hm : m.lookup path with
  | none =>
    by_cases hp : p = path
    · subst hp
      simp [removeSource, Keyed.set₂, HashMap.lookup₂, hm]
    · simp [removeSource, hm, Keyed.set₂, hp]
  | some sourceMap => simp [removeSource, hm, HashMap.lookup₂_insert_erase hm, Keyed.set₂]

theorem removeSource_eq (st : SignalKStore) (now : DateTime) (w : Write) :
    (removeSource (st.recordSource w.vessel w.path w.entry) w.path
      (st.evictStale w.vessel w.path now)).lookup₂ = st.ledger.evict now w := by
  have hv := evictStale_eq st w.vessel w.path now
  have hl : st.ledger.active w.vessel w.path = st.getVesselPath w.vessel w.path := rfl
  cases hc : st.getVesselPath w.vessel w.path with
  | none => simp [hv, hc, removeSource, recordSource_eq, Ledger.evict, hl]
  | some c =>
    cases hs : st.ledger.stale now c with
    | false => simp [hv, hc, hs, removeSource, recordSource_eq, Ledger.evict, hl]
    | true =>
      have hf : st.evictStale w.vessel w.path now = some c.source := by
        simp [hv, hc, Option.filter, hs]
      simp [hf, hc, hs, removeSource_some, recordSource_eq, Ledger.evict, hl]

/-- One value of one update is one write of the ledger. -/
theorem applyValue_ledger (st : SignalKStore) (uri : String) (source : SourceRef)
    (timestamp now : DateTime) (pv : PathValue) :
    (st.applyValue uri source timestamp now pv).1.ledger =
      (st.ledger.write (now, Write.of uri source timestamp pv)).1 := by
  have hs := st.shouldUpdate_eq now (Write.of uri source timestamp pv)
  cases ha : st.ledger.accepts now (Write.of uri source timestamp pv) with
  | false =>
    rw [ha] at hs
    have hr := st.recordSource_eq (Write.of uri source timestamp pv)
    simp only [Write.of] at hs ha hr ⊢
    simp only [applyValue, hs, Ledger.write, ha, Bool.false_eq_true, if_false]
    exact Ledger.ext rfl rfl rfl rfl hr
  | true =>
    rw [ha] at hs
    have hr := st.removeSource_eq now (Write.of uri source timestamp pv)
    have hv := st.setActive_eq uri pv.path (Write.of uri source timestamp pv).entry
    simp only [Write.of] at hs ha hr hv ⊢
    simp only [applyValue, hs, Ledger.write, ha, if_true]
    exact Ledger.ext rfl rfl rfl hv hr

theorem applyValue_applied (st : SignalKStore) (uri : String) (source : SourceRef)
    (timestamp now : DateTime) (pv : PathValue) :
    (st.applyValue uri source timestamp now pv).2 =
      st.ledger.accepts now (Write.of uri source timestamp pv) := by
  rw [← shouldUpdate_eq]
  unfold applyValue
  simp only [Write.of]
  cases st.shouldUpdate uri pv.path source now <;> simp

theorem registerSource_ledger [JsonText] (st : SignalKStore) (source : Source) :
    (st.registerSource source).ledger = st.ledger := rfl

/-- The inner loop runs the ledger over the writes of its values. -/
theorem applyValues_ledger (uri : String) (source : SourceRef) (timestamp : DateTime)
    (clock : Nat → DateTime) (st : SignalKStore) (pvs : List PathValue) :
    (applyValues uri source timestamp clock st pvs).1.ledger =
      (Machine.exec Ledger.write st.ledger
        (Machine.timed clock (pvs.map (Write.of uri source timestamp)))).1 := by
  induction pvs generalizing clock st with
  | nil => rfl
  | cons pv pvs ih =>
    rw [List.map_cons, Machine.timed, Machine.exec, ← applyValue_ledger]
    exact ih _ _

/-- The inner loop keeps the values that the ledger accepts. -/
theorem applyValues_applied (uri : String) (source : SourceRef) (timestamp : DateTime)
    (clock : Nat → DateTime) (st : SignalKStore) (pvs : List PathValue) :
    (applyValues uri source timestamp clock st pvs).2.map (Write.of uri source timestamp) =
      (Machine.exec Ledger.write st.ledger
        (Machine.timed clock (pvs.map (Write.of uri source timestamp)))).2 := by
  induction pvs generalizing clock st with
  | nil => rfl
  | cons pv pvs ih =>
    have ha := st.applyValue_applied uri source timestamp (clock 0) pv
    have hn := ih (fun n => clock (n + 1)) (st.applyValue uri source timestamp (clock 0) pv).1
    rw [applyValue_ledger] at hn
    rw [List.map_cons, Machine.timed, Machine.exec, ← hn]
    cases hacc : st.ledger.accepts (clock 0) (Write.of uri source timestamp pv) with
    | false =>
      rw [hacc] at ha
      simp [applyValues, ha, Ledger.write, hacc]
    | true =>
      rw [hacc] at ha
      simp [applyValues, ha, Ledger.write, hacc]

/-- The outer loop runs the ledger over the writes of its updates. -/
theorem applyUpdates_ledger [JsonText] (uri : String) (clock : Nat → DateTime)
    (st : SignalKStore) (updates : List Update) :
    (applyUpdates uri clock st updates).1.ledger =
      (Machine.exec Ledger.write st.ledger (Machine.timed clock (updateWrites uri updates))).1 := by
  induction updates generalizing clock st with
  | nil => rfl
  | cons u updates ih =>
    have hv := applyValues_ledger uri (makeSourceRef u.source) u.timestamp clock
      (st.registerSource u.source) u.values
    rw [registerSource_ledger] at hv
    rw [updateWrites, List.flatMap_cons, Machine.timed_append, Machine.exec_append, ← hv,
      List.length_map]
    exact ih _ _

/-- The outer loop keeps the updates with the values that the ledger accepts;
an update that loses all of them contributes nothing. -/
theorem applyUpdates_applied [JsonText] (uri : String) (clock : Nat → DateTime)
    (st : SignalKStore) (updates : List Update) :
    updateWrites uri (applyUpdates uri clock st updates).2 =
      (Machine.exec Ledger.write st.ledger (Machine.timed clock (updateWrites uri updates))).2 := by
  induction updates generalizing clock st with
  | nil => rfl
  | cons u updates ih =>
    have hl := applyValues_ledger uri (makeSourceRef u.source) u.timestamp clock
      (st.registerSource u.source) u.values
    have ha := applyValues_applied uri (makeSourceRef u.source) u.timestamp clock
      (st.registerSource u.source) u.values
    rw [registerSource_ledger] at hl ha
    have hn := ih (fun n => clock (n + u.values.length))
      (applyValues uri (makeSourceRef u.source) u.timestamp clock
        (st.registerSource u.source) u.values).1
    have hc : updateWrites uri (u :: updates) =
        u.values.map (Write.of uri (makeSourceRef u.source) u.timestamp) ++
          updateWrites uri updates := rfl
    rw [hc, Machine.timed_append, Machine.exec_append, ← hl, ← ha, List.length_map, ← hn]
    by_cases he : (applyValues uri (makeSourceRef u.source) u.timestamp clock
        (st.registerSource u.source) u.values).2 = []
    · simp [applyUpdates, he]
    · simp [applyUpdates, he, updateWrites]

/-- Creating the vessel's entry changes no answer. -/
theorem alter_id_ledger (st : SignalKStore) (uri : String) :
    { st with vessels := st.vessels.alter uri VesselData.empty id }.ledger = st.ledger := by
  refine Ledger.ext rfl rfl rfl ?_ rfl
  funext u p
  by_cases hu : u = uri
  · subst hu
    cases hv : st.vessels.lookup u <;>
      simp [ledger, getVesselPath, HashMap.lookup_alter, hv, VesselData.empty]
  · simp [ledger, getVesselPath, HashMap.lookup_alter, hu]

theorem setVesselIdentity_ledger (st : SignalKStore) (uri : String) (name mmsi : Option String) :
    (st.setVesselIdentity uri name mmsi).ledger = st.ledger := by
  cases hv : st.vessels.lookup uri with
  | none => simp [setVesselIdentity, hv]
  | some vessel =>
    simp only [setVesselIdentity, hv]
    refine Ledger.ext rfl rfl rfl ?_ rfl
    funext u p
    by_cases hu : u = uri
    · subst hu
      simp [ledger, getVesselPath, hv]
    · simp [ledger, getVesselPath, hu]

@[simp] theorem new_getVesselPath (selfUri uri path : String) :
    (new selfUri).getVesselPath uri path = none := by
  by_cases hu : uri = selfUri
  · simp [getVesselPath, new, HashMap.collect, HashMap.lookup_insert, hu, VesselData.empty]
  · simp [getVesselPath, new, HashMap.collect, hu]

@[simp] theorem new_getSelfPathBySource (selfUri path : String) (source : SourceRef) :
    (new selfUri).getSelfPathBySource path source = none := by
  simp [getSelfPathBySource, new, HashMap.lookup₂]

/-- `apply_delta` refines the ledger's run over the delta's writes. -/
theorem applyDelta_ledger [JsonText] (clock : Nat → DateTime) (st : SignalKStore)
    (delta : Delta) :
    (st.applyDelta clock delta).1.ledger =
      (Machine.exec Ledger.write st.ledger
        (Machine.timed clock (deltaWrites st.selfUri delta))).1 := by
  cases hu : vesselUri st.selfUri delta.context with
  | none => simp [applyDelta, deltaWrites, hu, Machine.timed, Machine.exec]
  | some uri =>
    have hr := applyUpdates_ledger uri clock
      { st with vessels := st.vessels.alter uri VesselData.empty id } delta.updates
    rw [alter_id_ledger] at hr
    by_cases he : (applyUpdates uri clock
        { st with vessels := st.vessels.alter uri VesselData.empty id } delta.updates).2 = []
    · simpa [applyDelta, deltaWrites, hu, he] using hr
    · simp only [applyDelta, deltaWrites, hu, he, if_false]
      exact hr

theorem applyDelta_selfUri [JsonText] (clock : Nat → DateTime) (st : SignalKStore)
    (delta : Delta) : (st.applyDelta clock delta).1.selfUri = st.selfUri := by
  have h := congrArg Ledger.self (st.applyDelta_ledger clock delta)
  rwa [Ledger.exec_self] at h

/-- A delta of one value of the self vessel is one write. -/
theorem applyDelta_single [JsonText] (clock : Nat → DateTime) (st : SignalKStore)
    (source : Source) (timestamp : DateTime) (pv : PathValue) :
    (st.applyDelta clock (Delta.selfVessel [⟨source, timestamp, [pv]⟩])).1.ledger =
      (st.ledger.write
        (clock 0, Write.of st.selfUri (makeSourceRef source) timestamp pv)).1 := by
  rw [applyDelta_ledger, deltaWrites_selfVessel]
  rfl

theorem getSelfPath_single [JsonText] (clock : Nat → DateTime) (st : SignalKStore)
    (source : Source) (timestamp : DateTime) (pv : PathValue) (path : String) :
    (st.applyDelta clock (Delta.selfVessel [⟨source, timestamp, [pv]⟩])).1.getSelfPath path =
      if path = pv.path ∧ st.ledger.accepts (clock 0)
          (Write.of st.selfUri (makeSourceRef source) timestamp pv) = true then
        some (SignalKValue.new pv.value (makeSourceRef source) timestamp)
      else st.getSelfPath path := by
  have hl := st.applyDelta_single clock source timestamp pv
  have hactive := congrFun (congrFun (congrArg Ledger.active hl) st.selfUri) path
  have hget : (st.applyDelta clock (Delta.selfVessel [⟨source, timestamp, [pv]⟩])).1.getSelfPath
      path = (st.applyDelta clock (Delta.selfVessel [⟨source, timestamp, [pv]⟩])).1.ledger.active
      st.selfUri path := by
    rw [getSelfPath, applyDelta_selfUri]
    rfl
  rw [hget, hactive, Ledger.write_active]
  simp only [Write.of, Write.entry, true_and, eq_comm (a := pv.path)]
  rfl

/-- A property of all values is kept by a delta whose values have it. -/
theorem all_applyDelta [JsonText] {P : String → Json → Prop} (clock : Nat → DateTime)
    {st : SignalKStore} {delta : Delta} (h : st.ledger.All P)
    (hd : vesselUri st.selfUri delta.context ≠ none → ∀ pv ∈ delta.pathValues, P pv.path pv.value) :
    (st.applyDelta clock delta).1.ledger.All P := by
  rw [applyDelta_ledger]
  apply h.exec
  intro tw htw
  have hmem : tw.2 ∈ deltaWrites st.selfUri delta := by
    have hm := List.mem_map_of_mem (f := Prod.snd) htw
    rwa [Machine.timed_snd] at hm
  cases hu : vesselUri st.selfUri delta.context with
  | none =>
    rw [deltaWrites, hu] at hmem
    cases hmem
  | some uri =>
    have hpv := List.mem_map_of_mem (f := Write.pathValue) hmem
    rw [(deltaWrites_pathValues hu).1] at hpv
    exact hd (by simp [hu]) tw.2.pathValue hpv

/-- What `apply_delta` broadcasts for a vessel keeps the context and carries
exactly the accepted writes, in order. -/
theorem applyDelta_broadcast [JsonText] (clock : Nat → DateTime) (st : SignalKStore)
    (delta : Delta) {uri : String} (hu : vesselUri st.selfUri delta.context = some uri) :
    (∀ d ∈ (st.applyDelta clock delta).2, d.context = delta.context) ∧
    (st.applyDelta clock delta).2.flatMap (fun d => updateWrites uri d.updates) =
      (Machine.exec Ledger.write st.ledger
        (Machine.timed clock (deltaWrites st.selfUri delta))).2 := by
  have hr := applyUpdates_applied uri clock
    { st with vessels := st.vessels.alter uri VesselData.empty id } delta.updates
  rw [alter_id_ledger] at hr
  by_cases he : (applyUpdates uri clock
      { st with vessels := st.vessels.alter uri VesselData.empty id } delta.updates).2 = []
  · have hz : updateWrites uri [] = [] := rfl
    rw [he, hz] at hr
    simpa [applyDelta, deltaWrites, hu, he] using hr
  · simpa [applyDelta, deltaWrites, hu, he] using hr

end SignalKStore
end SignalK

import SignalK.Store.Ledger

/-! What tells sources apart and what a reference keeps of it. The reference joins
the label and, for the two NMEA types, the talker or the PGN with a dot; the source
address and the type itself do not take part, and labels may have dots. -/
namespace SignalK

namespace Source

/-- The fields by which sources differ. -/
structure Identity where
  label : String
  type : String
  talker : Option Json
  src : Option Json
  pgn : Option Json
  deriving DecidableEq

def identity (source : Source) : Identity where
  label := source.label
  type := source.type
  talker := source.extra.lookup "talker"
  src := source.extra.lookup "src"
  pgn := source.extra.lookup "pgn"

variable [JsonText]

/-- The talker of an NMEA0183 source, the PGN of an NMEA2000 one. -/
def qualifier (source : Source) : Option String :=
  if source.type = "NMEA0183" then (source.extra.lookup "talker").bind Json.asStr
  else if source.type = "NMEA2000" then (source.extra.lookup "pgn").map JsonText.toText
  else none

/-- Label and qualifier agree, or one label goes on with a dot where the other
source has its qualifier. -/
def Alias (a b : Source) : Prop :=
  match a.qualifier, b.qualifier with
  | none, none => a.label = b.label
  | some p, none => b.label = a.label ++ "." ++ p
  | none, some q => a.label = b.label ++ "." ++ q
  | some p, some q => (a.label = b.label ∧ p = q) ∨
      (∃ mid, b.label = a.label ++ "." ++ mid ∧ p = mid ++ "." ++ q) ∨
      ∃ mid, a.label = b.label ++ "." ++ mid ∧ q = mid ++ "." ++ p

end Source

section
variable [JsonText]

theorem makeSourceRef_eq (source : Source) :
    makeSourceRef source =
      source.label ++ (source.qualifier.map fun q => "." ++ q).getD "" := by
  unfold makeSourceRef Source.qualifier
  split_ifs
  · rfl
  · rw [Option.map_map]
    rfl
  · rfl

/-- The reference is a function of the fields by which sources differ. -/
theorem makeSourceRef_congr {a b : Source} (h : a.identity = b.identity) :
    makeSourceRef a = makeSourceRef b := by
  have hlabel : a.label = b.label := congrArg Source.Identity.label h
  have htype : a.type = b.type := congrArg Source.Identity.type h
  have htalker : a.extra.lookup "talker" = b.extra.lookup "talker" :=
    congrArg Source.Identity.talker h
  have hpgn : a.extra.lookup "pgn" = b.extra.lookup "pgn" := congrArg Source.Identity.pgn h
  unfold makeSourceRef
  rw [hlabel, htype, htalker, hpgn]

/-- Two sources share a reference exactly when they are aliases. -/
theorem makeSourceRef_eq_iff (a b : Source) :
    makeSourceRef a = makeSourceRef b ↔ a.Alias b := by
  have hdot : "." = String.singleton '.' := rfl
  rw [makeSourceRef_eq, makeSourceRef_eq, Source.Alias]
  cases a.qualifier with
  | none =>
    cases b.qualifier with
    | none => simp
    | some q => simp [String.append_assoc]
  | some p =>
    cases b.qualifier with
    | none => simp [String.append_assoc, eq_comm]
    | some q =>
      simp only [Option.map_some, Option.getD_some, hdot, ← String.append_assoc]
      exact Text.separated_eq_iff

instance (a b : Source) : Decidable (a.Alias b) :=
  decidable_of_iff _ (makeSourceRef_eq_iff a b)

end

/-- One value on its way into the store, with the source that sent it. -/
structure Report where
  source : Source
  write : Write
  deriving DecidableEq

section
variable [JsonText]

def updateReports (vessel : String) (updates : List Update) : List Report :=
  updates.flatMap fun u => u.values.map fun pv =>
    ⟨u.source, Write.of vessel (makeSourceRef u.source) u.timestamp pv⟩

def eventReports (selfUri : String) : StoreEvent → List Report
  | .applyDelta _ delta =>
    match vesselUri selfUri delta.context with
    | none => []
    | some uri => updateReports uri delta.updates
  | _ => []

/-- Everything that was sent of the own vessel, oldest first. -/
def ownReports (selfUri : String) (events : List StoreEvent) : List Report :=
  (events.flatMap (eventReports selfUri)).filter fun r => r.write.vessel = selfUri

/-- The last value of a path that one source has sent. -/
def latestOf (reports : List Report) (source : Source) (path : String) : Option SignalKValue :=
  (reports.filter fun r => r.source.identity = source.identity ∧ r.write.path = path).getLast?.map
    fun r => r.write.entry

/-- No two sources that report the same path are aliases. -/
def Apart (reports : List Report) : Prop :=
  ∀ r ∈ reports, ∀ s ∈ reports, r.write.path = s.write.path →
    r.source.identity ≠ s.source.identity → ¬ r.source.Alias s.source

instance (reports : List Report) : Decidable (Apart reports) :=
  inferInstanceAs (Decidable (∀ r ∈ reports, ∀ s ∈ reports, _))

theorem updateReports_write (vessel : String) (updates : List Update) :
    (updateReports vessel updates).map (·.write) = updateWrites vessel updates := by
  rw [updateReports, updateWrites, List.map_flatMap]
  simp [Function.comp_def]

theorem eventReports_applyDelta (selfUri : String) (clock : Nat → DateTime) (delta : Delta) :
    (eventReports selfUri (.applyDelta clock delta)).map (·.write) = deltaWrites selfUri delta := by
  simp only [eventReports, deltaWrites]
  cases vesselUri selfUri delta.context with
  | none => rfl
  | some uri => exact updateReports_write uri delta.updates

theorem eventReports_source {selfUri : String} {e : StoreEvent} {r : Report}
    (h : r ∈ eventReports selfUri e) : r.write.source = makeSourceRef r.source := by
  cases e with
  | applyDelta clock delta =>
    unfold eventReports at h
    cases hu : vesselUri selfUri delta.context with
    | none => simp [hu] at h
    | some uri =>
      simp only [hu, updateReports, List.mem_flatMap, List.mem_map] at h
      obtain ⟨u, -, pv, -, rfl⟩ := h
      rfl
  | setSourcePriorities | setSourceTtls | setVesselIdentity => cases h

end

namespace SourceRefs

/-- The write evicts no source that has an entry on its path. -/
def KeepsEntries (l : Ledger) (tw : DateTime × Write) : Prop :=
  ∀ c ∈ l.active tw.2.vessel tw.2.path, l.stale tw.1 c = true →
    l.retained tw.2.path c.source = none ∧ (tw.2.vessel = l.self → tw.2.source ≠ c.source)

instance (l : Ledger) : DecidablePred (KeepsEntries l) := fun tw =>
  inferInstanceAs (Decidable (∀ c ∈ l.active tw.2.vessel tw.2.path, _ → _))

def KeepsEntriesStep [JsonText] (st : SignalKStore) : StoreEvent → Prop
  | .applyDelta clock delta =>
    Machine.Meets Ledger.write KeepsEntries st.ledger
      (Machine.timed clock (deltaWrites st.selfUri delta))
  | _ => True

instance [JsonText] (st : SignalKStore) : DecidablePred (KeepsEntriesStep st)
  | .applyDelta _ _ => inferInstanceAs (Decidable (Machine.Meets _ _ _ _))
  | .setSourcePriorities _ | .setSourceTtls _ | .setVesselIdentity _ _ _ => isTrue trivial

/-- Without evictions a write only adds to the retained values. -/
theorem write_retained {l : Ledger} {tw : DateTime × Write} (h : KeepsEntries l tw) :
    (l.write tw).1.retained = l.record tw.2 := by
  have hevict : l.evict tw.1 tw.2 = l.record tw.2 := by
    cases hc : l.active tw.2.vessel tw.2.path with
    | none => simp [Ledger.evict, hc]
    | some c =>
      cases hs : l.stale tw.1 c with
      | false => simp [Ledger.evict, hc, hs]
      | true =>
        obtain ⟨hnone, hne⟩ := h c hc hs
        rw [Ledger.evict_stale hc hs]
        funext p s
        rw [Keyed.set₂_apply]
        split_ifs with hk
        · obtain ⟨rfl, rfl⟩ := hk
          by_cases hself : tw.2.vessel = l.self
          · rw [Ledger.record_self hself, Keyed.set₂_apply,
              if_neg fun hk => hne hself hk.2, hnone]
          · rw [Ledger.record_other hself, hnone]
        · rfl
  unfold Ledger.write
  split
  · exact hevict
  · rfl

/-- The entries after a run of writes: those of the own vessel, one after another. -/
theorem exec_retained {l : Ledger} {tws : List (DateTime × Write)}
    (h : Machine.Meets Ledger.write KeepsEntries l tws) :
    (Machine.exec Ledger.write l tws).1.retained =
      ((tws.map Prod.snd).filter fun w => w.vessel = l.self).foldl
        (fun f w => Keyed.set₂ f w.path w.source (some w.entry)) l.retained := by
  induction tws generalizing l with
  | nil => rfl
  | cons tw tws ih =>
    rw [Machine.exec, ih h.2, write_retained h.1, Ledger.write_self, List.map_cons,
      List.filter_cons]
    by_cases hself : tw.2.vessel = l.self
    · simp [hself, Ledger.record_self hself]
    · simp [hself, Ledger.record_other hself]

section
variable [JsonText]

theorem step_selfUri (st : SignalKStore) (e : StoreEvent) : (st.step e).1.selfUri = st.selfUri := by
  cases e with
  | applyDelta clock delta => exact st.applyDelta_selfUri clock delta
  | setSourcePriorities | setSourceTtls => rfl
  | setVesselIdentity uri name mmsi =>
    exact congrArg Ledger.self (st.setVesselIdentity_ledger uri name mmsi)

theorem step_entries {st : SignalKStore} {e : StoreEvent} (h : KeepsEntriesStep st e) :
    (st.step e).1.getSelfPathBySource =
      (ownReports st.selfUri [e]).foldl
        (fun f r => Keyed.set₂ f r.write.path r.write.source (some r.write.entry))
        st.getSelfPathBySource := by
  cases e with
  | applyDelta clock delta =>
    have hret := exec_retained h
    rw [← SignalKStore.applyDelta_ledger, Machine.timed_snd, ← eventReports_applyDelta _ clock,
      List.filter_map, List.foldl_map] at hret
    rw [ownReports, List.flatMap_singleton]
    exact hret
  | setSourcePriorities | setSourceTtls => rfl
  | setVesselIdentity uri name mmsi =>
    exact congrArg Ledger.retained (st.setVesselIdentity_ledger uri name mmsi)

/-- Without evictions the entries are what the own vessel's sources have sent. -/
theorem run_entries {st : SignalKStore} {events : List StoreEvent}
    (h : Machine.Meets SignalKStore.step KeepsEntriesStep st events) :
    (Machine.run SignalKStore.step st events).getSelfPathBySource =
      (ownReports st.selfUri events).foldl
        (fun f r => Keyed.set₂ f r.write.path r.write.source (some r.write.entry))
        st.getSelfPathBySource := by
  induction events generalizing st with
  | nil => rfl
  | cons e events ih =>
    have hrun : Machine.run SignalKStore.step st (e :: events) =
        Machine.run SignalKStore.step (st.step e).1 events := rfl
    have hown : ownReports st.selfUri (e :: events) =
        ownReports st.selfUri [e] ++ ownReports st.selfUri events := by
      simp [ownReports]
    rw [hrun, ih h.2, step_entries h.1, step_selfUri, hown, List.foldl_append]

/-- The reports that share a path and a reference with one of them are its source's. -/
theorem filter_apart {reports : List Report} (happart : Apart reports)
    (hsource : ∀ r ∈ reports, r.write.source = makeSourceRef r.source) {source : Source}
    {path : String}
    (hsome : ∃ r ∈ reports, r.source.identity = source.identity ∧ r.write.path = path) :
    (reports.filter fun r => r.write.path = path ∧ r.write.source = makeSourceRef source) =
      reports.filter fun r => r.source.identity = source.identity ∧ r.write.path = path := by
  obtain ⟨s, hs, hid, hpath⟩ := hsome
  refine List.filter_congr fun r hr => decide_eq_decide.mpr ?_
  constructor
  · intro h
    have href : makeSourceRef r.source = makeSourceRef s.source := by
      rw [← hsource r hr, h.2, makeSourceRef_congr hid]
    have hsame : r.source.identity = s.source.identity := by
      by_contra hne
      exact happart r hr s hs (h.1.trans hpath.symm) hne ((makeSourceRef_eq_iff _ _).mp href)
    exact ⟨hsame.trans hid, h.1⟩
  · intro h
    exact ⟨h.2, (hsource r hr).trans (makeSourceRef_congr h.1)⟩

theorem apart_earlier {selfUri : String} {fs events : List StoreEvent} (hp : fs <+: events)
    (h : Apart (ownReports selfUri events)) : Apart (ownReports selfUri fs) := by
  obtain ⟨gs, rfl⟩ := hp
  have hsub : ownReports selfUri fs ⊆ ownReports selfUri (fs ++ gs) := by
    simp [ownReports]
  exact fun r hr s hs => h r (hsub hr) s (hsub hs)

/-- Two sources have the same reference exactly when they are aliases, and in every
run that keeps its entries and whose sources of one path are none, each source's
latest value is found under its reference. -/
theorem latest_of_each_source :
    (∀ a b : Source, a.identity ≠ b.identity →
      (makeSourceRef a ≠ makeSourceRef b ↔ ¬ a.Alias b)) ∧
    ∀ (selfUri : String) (events : List StoreEvent), Apart (ownReports selfUri events) →
      Machine.Meets SignalKStore.step KeepsEntriesStep (SignalKStore.new selfUri) events →
      ∀ fs, fs <+: events → ∀ (source : Source) (path : String) (v : SignalKValue),
        latestOf (ownReports selfUri fs) source path = some v →
        (Machine.run SignalKStore.step (SignalKStore.new selfUri) fs).getSelfPathBySource path
          (makeSourceRef source) = some v := by
  refine ⟨fun a b _ => not_congr (makeSourceRef_eq_iff a b), ?_⟩
  intro selfUri events happart hkeeps fs hprefix source path v hlatest
  have hself : (SignalKStore.new selfUri).selfUri = selfUri := rfl
  have hfs : Machine.Meets SignalKStore.step KeepsEntriesStep (SignalKStore.new selfUri) fs := by
    obtain ⟨gs, rfl⟩ := hprefix
    exact (Machine.meets_append.mp hkeeps).1
  have hsource : ∀ r ∈ ownReports selfUri fs, r.write.source = makeSourceRef r.source := by
    intro r hr
    obtain ⟨e, -, hr⟩ := List.mem_flatMap.mp (List.mem_filter.mp hr).1
    exact eventReports_source hr
  unfold latestOf at hlatest
  obtain ⟨r, hlast, hv⟩ := Option.map_eq_some_iff.mp hlatest
  have hsome : ∃ r ∈ ownReports selfUri fs,
      r.source.identity = source.identity ∧ r.write.path = path := by
    obtain ⟨hmem, hr⟩ := List.mem_filter.mp (List.mem_of_getLast? hlast)
    exact ⟨r, hmem, of_decide_eq_true hr⟩
  rw [run_entries hfs, hself, Keyed.foldl_set₂_last,
    filter_apart (apart_earlier hprefix happart) hsource hsome, hlast]
  exact congrArg some hv

end

/-! Two engines on one bus, told apart by their source addresses only. -/

section
local instance : JsonText where
  toText
    | .number (.posInt n) => toString n.toNat
    | _ => ""

def engineReport (source : Source) (timestamp : DateTime) (revolutions : ℚ) : StoreEvent :=
  .applyDelta (fun _ => timestamp)
    (.selfVessel [⟨source, timestamp, [⟨"propulsion.main.revolutions", .ofF64 revolutions⟩]⟩])

/-- The second engine's value takes the place of the first one's. References are
also shared across types, and by a dotted label. -/
theorem engines_share_entry :
    let port := Source.nmea2000 "can0" 1 127488
    let starboard := Source.nmea2000 "can0" 2 127488
    let events := [engineReport port 0 20, engineReport starboard 1 30]
    port.identity ≠ starboard.identity ∧ makeSourceRef port = makeSourceRef starboard ∧
    latestOf (ownReports "u" events) port "propulsion.main.revolutions" =
      some (SignalKValue.new (.ofF64 20) "can0.127488" 0) ∧
    (Machine.run SignalKStore.step (SignalKStore.new "u") events).getSelfPathBySource
        "propulsion.main.revolutions" (makeSourceRef port) =
      some (SignalKValue.new (.ofF64 30) "can0.127488" 1) ∧
    makeSourceRef (.nmea0183 "a" "GP") = makeSourceRef (.plugin "a.GP") ∧
    makeSourceRef (.plugin "signalk-rs") = makeSourceRef .internal := by
  decide +kernel

theorem latest_of_each_source_bus :
    makeSourceRef (.nmea2000 "can0" 1 127488) ≠ makeSourceRef (.nmea2000 "can0" 2 127489) ∧
    (Machine.run SignalKStore.step (SignalKStore.new "u")
        [engineReport (.nmea2000 "can0" 1 127488) 0 20,
          engineReport (.nmea2000 "can0" 2 127489) 1 30]).getSelfPathBySource
        "propulsion.main.revolutions" "can0.127488" =
      some (SignalKValue.new (.ofF64 20) "can0.127488" 0) := by
  refine ⟨(latest_of_each_source.1 _ _ (by decide +kernel)).mpr (by decide +kernel), ?_⟩
  have hlatest := latest_of_each_source.2 "u"
    [engineReport (.nmea2000 "can0" 1 127488) 0 20, engineReport (.nmea2000 "can0" 2 127489) 1 30]
    (by decide +kernel) (by decide +kernel) _ (List.prefix_refl _)
    (.nmea2000 "can0" 1 127488) "propulsion.main.revolutions"
    (SignalKValue.new (.ofF64 20) "can0.127488" 0) (by decide +kernel)
  exact hlatest

end

end SourceRefs
end SignalK

import SignalK.History.Ingestion
import SignalK.Plugins.Host

/-! Whether a vessel has one history: what was recorded under a context against what was
applied to a vessel. -/
namespace SignalK.History

/-- The context of a request that names one or none. -/
def requestContext (context : Option String) : String :=
  context.getD "vessels.self"

/-- Timestamps and values of the rows that a query selects, in no order. -/
def selected (db : HistoryDb) (context path fromTs toTs : String) : Multiset (String × ℚ) :=
  (Provider.rangeRows db context path fromTs toTs).map fun r => (r.timestamp, r.value)

/-- A number that a write brings to a path in a range of time. -/
def numberOf (path fromTs toTs : String) (w : Write) : Option (String × ℚ) :=
  if w.path = path ∧ Text.Le fromTs (stamp w.timestamp) ∧ Text.Le (stamp w.timestamp) toTs then
    w.value.asF64.map fun n => (stamp w.timestamp, n)
  else none

/-- The numbers that were applied to a path of a vessel. -/
def appliedTo (writes : List Write) (uri path fromTs toTs : String) : Multiset (String × ℚ) :=
  (writes.filter fun w => w.vessel = uri).filterMap (numberOf path fromTs toTs)

structure OneHistory (cfg : HistoryConfig) (selfUri : String) (writes : List Write)
    (db : HistoryDb) : Prop where
  default : ∀ path fromTs toTs, shouldRecord path cfg.included cfg.excluded = true →
    selected db (requestContext none) path fromTs toTs =
      appliedTo writes selfUri path fromTs toTs
  spelled : ∀ path fromTs toTs, shouldRecord path cfg.included cfg.excluded = true →
    selected db (requestContext (some ("vessels." ++ selfUri))) path fromTs toTs =
      appliedTo writes selfUri path fromTs toTs
  others : ∀ uri path fromTs toTs, uri ≠ selfUri → uri ≠ "self" →
    shouldRecord path cfg.included cfg.excluded = true →
    selected db (requestContext (some ("vessels." ++ uri))) path fromTs toTs =
      appliedTo writes uri path fromTs toTs
  rejected : ∀ row ∈ db.raw, shouldRecord row.path cfg.included cfg.excluded = true

/-! Both sides delta by delta. -/

/-- The numbers of a delta for a path in a range of time. -/
def numbers (path fromTs toTs : String) (delta : Delta) : List (String × ℚ) :=
  delta.updates.flatMap fun update => update.values.filterMap fun pv =>
    if pv.path = path ∧ Text.Le fromTs (stamp update.timestamp) ∧
        Text.Le (stamp update.timestamp) toTs then
      pv.value.asF64.map fun n => (stamp update.timestamp, n)
    else none

def contextOf (delta : Delta) : String := delta.context.getD "vessels.self"

theorem filterMap_updateWrites [JsonText] (uri path fromTs toTs : String) (delta : Delta) :
    (updateWrites uri delta.updates).filterMap (numberOf path fromTs toTs) =
      numbers path fromTs toTs delta := by
  rw [updateWrites, List.filterMap_flatMap]
  refine List.flatMap_congr fun update _ => ?_
  rw [List.filterMap_map]
  rfl

theorem flatMap_filter {α β : Type*} (p : α → Prop) [DecidablePred p] (f : α → List β)
    (l : List α) : (l.filter p).flatMap f = l.flatMap fun a => if p a then f a else [] := by
  induction l with
  | nil => rfl
  | cons a l ih => by_cases h : p a <;> simp [h, ih]

/-- The broadcasts to a vessel bring it the numbers that are applied to it. -/
theorem appliedTo_stream [JsonText] (selfUri uri path fromTs toTs : String)
    (stream : List Delta) :
    appliedTo (stream.flatMap (deltaWrites selfUri)) uri path fromTs toTs =
      ((stream.filter fun d => vesselUri selfUri d.context = some uri).flatMap
        (numbers path fromTs toTs) : List (String × ℚ)) := by
  have hdelta : ∀ d, ((deltaWrites selfUri d).filter fun w => w.vessel = uri).filterMap
      (numberOf path fromTs toTs) =
      if vesselUri selfUri d.context = some uri then numbers path fromTs toTs d else [] := by
    intro d
    cases hu : vesselUri selfUri d.context with
    | none => simp [deltaWrites, hu]
    | some uri' =>
      have hown := (deltaWrites_pathValues hu).2
      by_cases h : uri' = uri
      · subst h
        have hall : (deltaWrites selfUri d).filter (fun w => w.vessel = uri') =
            deltaWrites selfUri d :=
          List.filter_eq_self.mpr fun w hw => decide_eq_true (hown w hw)
        rw [hall, if_pos rfl, ← filterMap_updateWrites uri', deltaWrites, hu]
      · have hnone : (deltaWrites selfUri d).filter (fun w => w.vessel = uri) = [] :=
          List.filter_eq_nil_iff.mpr fun w hw => by simp [hown w hw, h]
        have hne : ¬(some uri' : Option String) = some uri := fun he => h (Option.some.inj he)
        rw [hnone, if_neg hne]
        rfl
  rw [appliedTo, List.filter_flatMap, List.filterMap_flatMap, flatMap_filter]
  exact congrArg _ (List.flatMap_congr fun d _ => hdelta d)

theorem map_filter {α β : Type*} (p : α → Prop) [DecidablePred p] (f : α → β) (l : List α) :
    (l.filter p).map f = l.filterMap fun a => if p a then some (f a) else none := by
  induction l with
  | nil => rfl
  | cons a l ih => by_cases h : p a <;> simp [h, ih]

/-- The rows of a delta bring its context the same numbers. -/
theorem rows_numbers {cfg : HistoryConfig} {path : String} (context fromTs toTs : String)
    (delta : Delta) (hrec : shouldRecord path cfg.included cfg.excluded = true) :
    ((rows cfg delta).filter fun r => r.context = context ∧ r.path = path ∧
        Text.Le fromTs r.timestamp ∧ Text.Le r.timestamp toTs).map
        (fun r => (r.timestamp, r.value)) =
      if contextOf delta = context then numbers path fromTs toTs delta else [] := by
  rw [map_filter, rows, List.filterMap_map, entries, List.filterMap_flatMap]
  by_cases hctx : contextOf delta = context
  · rw [if_pos hctx, numbers]
    refine List.flatMap_congr fun update _ => ?_
    rw [List.filterMap_filterMap]
    refine List.filterMap_congr fun pv _ => ?_
    have hsame : delta.context.getD "vessels.self" = context := hctx
    by_cases hp : pv.path = path
    · subst hp
      cases hv : pv.value.asF64 <;> simp [hrec, hsame, Entry.row]
    · cases hv : pv.value.asF64 <;> simp [hp, Entry.row]
  · rw [if_neg hctx]
    refine List.flatMap_eq_nil_iff.mpr fun update _ => ?_
    rw [List.filterMap_filterMap]
    refine List.filterMap_eq_nil_iff.mpr fun pv _ => ?_
    have hother : ¬delta.context.getD "vessels.self" = context := hctx
    cases hv : pv.value.asF64 <;> simp [hother, Entry.row]

theorem selected_stream {cfg : HistoryConfig} {db : HistoryDb} {stream : List Delta}
    (hrows : db.raw.Perm (stream.flatMap (rows cfg))) {path : String}
    (hrec : shouldRecord path cfg.included cfg.excluded = true) (context fromTs toTs : String) :
    selected db context path fromTs toTs =
      ((stream.filter fun d => contextOf d = context).flatMap (numbers path fromTs toTs) :
        List (String × ℚ)) := by
  have hperm := (hrows.filter fun r => r.context = context ∧ r.path = path ∧
    Text.Le fromTs r.timestamp ∧ Text.Le r.timestamp toTs).map fun r => (r.timestamp, r.value)
  rw [List.filter_flatMap, List.map_flatMap] at hperm
  simp only [rows_numbers context fromTs toTs _ hrec] at hperm
  rw [flatMap_filter]
  exact Multiset.coe_eq_coe.mpr hperm

theorem rejected_stream {cfg : HistoryConfig} {db : HistoryDb} {stream : List Delta}
    (hrows : db.raw.Perm (stream.flatMap (rows cfg))) :
    ∀ row ∈ db.raw, shouldRecord row.path cfg.included cfg.excluded = true := by
  intro row hrow
  obtain ⟨delta, -, hrow⟩ := List.mem_flatMap.mp (hrows.mem_iff.mp hrow)
  obtain ⟨e, he, rfl⟩ := List.mem_map.mp hrow
  obtain ⟨update, -, he⟩ := List.mem_flatMap.mp he
  obtain ⟨pv, -, hpv⟩ := List.mem_filterMap.mp he
  split_ifs at hpv with hrec
  obtain ⟨n, -, rfl⟩ := Option.map_eq_some_iff.mp hpv
  exact hrec

/-! Spellings. -/

theorem self_ne {uri : String} (h : uri ≠ "self") : "vessels.self" ≠ "vessels." ++ uri := by
  intro he
  have hlit : "vessels." ++ "self" = "vessels." ++ uri := he
  exact h ((String.append_right_inj _).mp hlit).symm

theorem vesselUri_eq_some {selfUri uri : String} {context : Option String} :
    vesselUri selfUri context = some uri ↔ resolveContext selfUri context = "vessels." ++ uri := by
  constructor
  · intro h
    have hstart : Text.startsWith (resolveContext selfUri context) "vessels." = true := by
      rw [vesselUri, Text.stripPrefix] at h
      split_ifs at h with hs
      exact hs
    obtain ⟨r, hr⟩ := (Text.startsWith_iff _ _).mp hstart
    rw [vesselUri, hr, Text.stripPrefix_append] at h
    rw [hr, Option.some.inj h]
  · intro h
    rw [vesselUri, h, Text.stripPrefix_append]

theorem own_iff {selfUri : String} {context : Option String} :
    vesselUri selfUri context = some selfUri ↔
      context.getD "vessels.self" = "vessels.self" ∨ context = some ("vessels." ++ selfUri) := by
  rw [vesselUri_eq_some]
  refine ⟨Host.self_spelling, ?_⟩
  rintro (h | rfl)
  · exact Host.resolve_self_spelling h
  · simp [resolveContext]

theorem other_iff {selfUri uri : String} (huri : uri ≠ selfUri) (hself : uri ≠ "self")
    {context : Option String} :
    vesselUri selfUri context = some uri ↔ context.getD "vessels.self" = "vessels." ++ uri := by
  rw [vesselUri_eq_some]
  have hother := self_ne hself
  have hown : "vessels." ++ selfUri ≠ "vessels." ++ uri := fun h =>
    huri ((String.append_right_inj _).mp h).symm
  cases context with
  | none =>
    refine iff_of_false ?_ hother
    rw [Host.resolve_self_spelling rfl]
    exact hown
  | some c =>
    by_cases hc : c = "vessels.self"
    · subst hc
      refine iff_of_false ?_ hother
      rw [Host.resolve_self_spelling rfl]
      exact hown
    · simp [resolveContext, hc]

/-! The own vessel's numbers come in two spellings. -/

/-- Deltas of the own vessel, the ones spelled "vessels.self" or not at all apart from the
ones that spell out its URI. -/
theorem length_own {selfUri : String} (hself : selfUri ≠ "self") (f : Delta → List (String × ℚ))
    (stream : List Delta) :
    ((stream.filter fun d => vesselUri selfUri d.context = some selfUri).flatMap f).length =
      ((stream.filter fun d => contextOf d = "vessels.self").flatMap f).length +
        ((stream.filter fun d => contextOf d = "vessels." ++ selfUri).flatMap f).length := by
  have hne := self_ne hself
  have hspelled : ∀ d : Delta, d.context = some ("vessels." ++ selfUri) ↔
      contextOf d = "vessels." ++ selfUri := by
    intro d
    rw [contextOf]
    cases d.context with
    | none => exact iff_of_false (by simp) hne
    | some c => simp
  induction stream with
  | nil => rfl
  | cons d stream ih =>
    have hown : vesselUri selfUri d.context = some selfUri ↔
        d.context.getD "vessels.self" = "vessels.self" ∨
          d.context = some ("vessels." ++ selfUri) := own_iff
    rw [hspelled d, ← contextOf] at hown
    rw [List.filter_cons, List.filter_cons, List.filter_cons]
    by_cases hd : contextOf d = "vessels.self"
    · have hother : ¬contextOf d = "vessels." ++ selfUri := fun h => hne (hd.symm.trans h)
      rw [if_pos (decide_eq_true (hown.mpr (.inl hd))), if_pos (decide_eq_true hd),
        if_neg (by simpa using hother), List.flatMap_cons, List.flatMap_cons, List.length_append,
        List.length_append]
      omega
    · rw [if_neg (by simpa using hd) (c := decide (contextOf d = "vessels.self") = true)]
      by_cases hs : contextOf d = "vessels." ++ selfUri
      · rw [if_pos (decide_eq_true (hown.mpr (.inr hs))), if_pos (decide_eq_true hs),
          List.flatMap_cons, List.flatMap_cons, List.length_append, List.length_append]
        omega
      · have hnot : ¬vesselUri selfUri d.context = some selfUri := fun h =>
          (hown.mp h).elim hd hs
        rw [if_neg (by simpa using hnot), if_neg (by simpa using hs)]
        exact ih

/-- A context has the numbers of a vessel when the deltas that bring any have it as their
context just when they are the vessel's. -/
theorem selected_eq_appliedTo [JsonText] {cfg : HistoryConfig} {db : HistoryDb}
    {selfUri uri path context fromTs toTs : String} {stream : List Delta}
    (hrows : db.raw.Perm (stream.flatMap (rows cfg)))
    (hrec : shouldRecord path cfg.included cfg.excluded = true)
    (h : ∀ d ∈ stream, numbers path fromTs toTs d ≠ [] →
      (contextOf d = context ↔ vesselUri selfUri d.context = some uri)) :
    selected db context path fromTs toTs =
      appliedTo (stream.flatMap (deltaWrites selfUri)) uri path fromTs toTs := by
  rw [selected_stream hrows hrec, appliedTo_stream, flatMap_filter, flatMap_filter]
  refine congrArg _ (List.flatMap_congr fun d hd => ?_)
  by_cases hn : numbers path fromTs toTs d = []
  · rw [hn, ite_self, ite_self]
  · simp only [h d hd hn]

/-- What the broadcasts of a run lead to when all of them have been received and written. -/
theorem oneHistory_stream [JsonText] {cfg : HistoryConfig} {db : HistoryDb} (selfUri : String)
    {stream : List Delta} (hrows : db.raw.Perm (stream.flatMap (rows cfg))) :
    OneHistory cfg selfUri (stream.flatMap (deltaWrites selfUri)) db ↔
      selfUri = "self" ∨ ∀ w ∈ stream.flatMap (deltaWrites selfUri), w.vessel = selfUri →
        shouldRecord w.path cfg.included cfg.excluded = true → w.value.asF64 = none := by
  constructor
  · intro h
    by_cases hself : selfUri = "self"
    · exact .inl hself
    · refine .inr fun w hw hvessel hrec => ?_
      let ts := stamp w.timestamp
      have hdefault : selected db "vessels.self" w.path ts ts =
          appliedTo (stream.flatMap (deltaWrites selfUri)) selfUri w.path ts ts :=
        h.default w.path ts ts hrec
      have hspelled : selected db ("vessels." ++ selfUri) w.path ts ts =
          appliedTo (stream.flatMap (deltaWrites selfUri)) selfUri w.path ts ts :=
        h.spelled w.path ts ts hrec
      have hlength := length_own hself
        (numbers w.path ts ts) stream
      rw [selected_stream hrows hrec] at hdefault hspelled
      have hnil : appliedTo (stream.flatMap (deltaWrites selfUri)) selfUri w.path ts ts = 0 := by
        rw [← Multiset.card_eq_zero]
        have h₁ := congrArg Multiset.card hdefault
        have h₂ := congrArg Multiset.card hspelled
        rw [appliedTo_stream] at h₁ h₂ ⊢
        rw [Multiset.coe_card, Multiset.coe_card] at h₁ h₂
        rw [Multiset.coe_card]
        omega
      cases hn : w.value.asF64 with
      | none => rfl
      | some n =>
        have hmem : (ts, n) ∈ appliedTo (stream.flatMap (deltaWrites selfUri)) selfUri w.path
            ts ts := by
          rw [appliedTo, Multiset.mem_coe]
          refine List.mem_filterMap.mpr ⟨w, List.mem_filter.mpr ⟨hw, decide_eq_true hvessel⟩, ?_⟩
          have hle : Text.Le ts ts := le_refl _
          rw [numberOf, if_pos ⟨rfl, hle, hle⟩, hn]
          rfl
        rw [hnil] at hmem
        cases hmem
  · intro h
    -- either the two spellings are one or there is nothing to find under them
    have hown : ∀ path fromTs toTs, shouldRecord path cfg.included cfg.excluded = true →
        ∀ d ∈ stream, vesselUri selfUri d.context = some selfUri →
        selfUri = "self" ∨ numbers path fromTs toTs d = [] := by
      intro path fromTs toTs hrec d hd hv
      refine h.imp id fun hnone => ?_
      rw [← filterMap_updateWrites selfUri]
      refine List.filterMap_eq_nil_iff.mpr fun w hw => ?_
      have hmem : w ∈ deltaWrites selfUri d := by
        rw [deltaWrites, hv]
        exact hw
      rw [numberOf]
      split_ifs with hp
      · have hno := hnone w (List.mem_flatMap.mpr ⟨d, hd, hmem⟩)
          ((deltaWrites_pathValues hv).2 w hmem) (hp.1 ▸ hrec)
        rw [hno]
        rfl
      · rfl
    refine ⟨?_, ?_, ?_, rejected_stream hrows⟩
    · intro path fromTs toTs hrec
      refine selected_eq_appliedTo hrows hrec fun d hd hn => ⟨fun hc => own_iff.mpr (.inl hc), ?_⟩
      intro hv
      rcases own_iff.mp hv with hc | hc
      · exact hc
      · obtain rfl := (hown path fromTs toTs hrec d hd hv).resolve_right hn
        rw [contextOf, hc]
        rfl
    · intro path fromTs toTs hrec
      refine selected_eq_appliedTo hrows hrec fun d hd hn => ⟨fun hc => own_iff.mpr ?_, ?_⟩
      · cases hctx : d.context with
        | none => exact .inl rfl
        | some c =>
          rw [contextOf, hctx] at hc
          exact .inr (congrArg some hc)
      · intro hv
        obtain rfl := (hown path fromTs toTs hrec d hd hv).resolve_right hn
        rcases own_iff.mp hv with hc | hc
        · exact hc
        · rw [contextOf, hc]
          rfl
    · intro uri path fromTs toTs huri hself hrec
      exact selected_eq_appliedTo hrows hrec fun d _ _ => (other_iff huri hself).symm

/-- The writes that a run of the store accepts. -/
def applied [JsonText] (selfUri : String) (es : List IngestionEvent) : List Write :=
  Replay.acceptedWrites (SignalKStore.new selfUri) (storeEvents es)

theorem applied_stream [JsonText] (cfg : HistoryConfig) (selfUri : String)
    (es : List IngestionEvent) :
    (Machine.exec (Ingestion.step cfg) (Ingestion.start selfUri) es).2.flatMap
      (deltaWrites selfUri) = applied selfUri es := by
  rw [Ingestion.exec_store]
  exact Replay.stream_eq_accepted selfUri _ rfl _

/-- The own vessel has one history as long as nothing is recorded of it. -/
theorem oneHistory_iff [JsonText] (cfg : HistoryConfig) (selfUri : String)
    (es : List IngestionEvent)
    (hdone : (Machine.exec (Ingestion.step cfg) (Ingestion.start selfUri) es).1.Done) :
    OneHistory cfg selfUri (applied selfUri es)
        (Machine.exec (Ingestion.step cfg) (Ingestion.start selfUri) es).1.db ↔
      selfUri = "self" ∨ ∀ w ∈ applied selfUri es, w.vessel = selfUri →
        shouldRecord w.path cfg.included cfg.excluded = true → w.value.asF64 = none := by
  rw [← applied_stream cfg]
  exact oneHistory_stream selfUri (Ingestion.done_rows cfg selfUri es hdone)

/-- The default query has all numbers of the own vessel when no producer spells its URI
out. -/
theorem default_of_self [JsonText] (cfg : HistoryConfig) (selfUri : String)
    (es : List IngestionEvent)
    (hdone : (Machine.exec (Ingestion.step cfg) (Ingestion.start selfUri) es).1.Done)
    (hspell : ∀ d ∈ (Machine.exec (Ingestion.step cfg) (Ingestion.start selfUri) es).2,
      d.context ≠ some ("vessels." ++ selfUri))
    {path : String} (hrec : shouldRecord path cfg.included cfg.excluded = true)
    (fromTs toTs : String) :
    selected (Machine.exec (Ingestion.step cfg) (Ingestion.start selfUri) es).1.db
        (requestContext none) path fromTs toTs =
      appliedTo (applied selfUri es) selfUri path fromTs toTs := by
  rw [← applied_stream cfg]
  refine selected_eq_appliedTo (Ingestion.done_rows cfg selfUri es hdone) hrec fun d hd _ => ?_
  rw [own_iff, or_iff_left (hspell d hd)]
  rfl

section
local instance : JsonText := JsonText.unused

def everything : HistoryConfig := ⟨["**"], []⟩

/-- A report of a text and one of another vessel, all received and written. -/
def quietRun : List IngestionEvent := [
  .store (.applyDelta (fun _ => 0)
    (Delta.selfVessel [⟨Source.internal, 0, [⟨"name", .string "Aurora"⟩]⟩])),
  .store (.applyDelta (fun _ => 0)
    (Delta.withContext "vessels.v" [⟨Source.internal, 0, [⟨"sog", .ofF64 3⟩]⟩])),
  .receive, .receive, .tick, .write 0 fun _ => 0]

theorem quietRun_done :
    (Machine.exec (Ingestion.step everything) (Ingestion.start "u") quietRun).1.Done :=
  ⟨by decide +kernel, by decide +kernel, by decide +kernel⟩

theorem oneHistory_quiet :
    OneHistory everything "u" (applied "u" quietRun)
      (Machine.exec (Ingestion.step everything) (Ingestion.start "u") quietRun).1.db :=
  (oneHistory_iff everything "u" quietRun quietRun_done).mpr (.inr (by decide +kernel))

/-- Two speeds of the own vessel, in two spellings. -/
def spelledRun : List IngestionEvent := [
  .store (.applyDelta (fun _ => 0)
    (Delta.selfVessel [⟨Source.internal, 0, [⟨"sog", .ofF64 3⟩]⟩])),
  .store (.applyDelta (fun _ => 0)
    (Delta.withContext "vessels.u" [⟨Source.internal, 0, [⟨"sog", .ofF64 4⟩]⟩])),
  .receive, .receive, .tick, .write 0 fun _ => 0]

/-- Either query finds one of the two. -/
theorem spelled_apart :
    ¬∀ cfg selfUri es, (Machine.exec (Ingestion.step cfg) (Ingestion.start selfUri) es).1.Done →
      OneHistory cfg selfUri (applied selfUri es)
        (Machine.exec (Ingestion.step cfg) (Ingestion.start selfUri) es).1.db := by
  intro h
  have hdone : (Machine.exec (Ingestion.step everything) (Ingestion.start "u") spelledRun).1.Done :=
    ⟨by decide +kernel, by decide +kernel, by decide +kernel⟩
  have hdefault := (h everything "u" spelledRun hdone).default "sog" "" "~"
    (shouldRecord_default "sog")
  have hone : (selected (Machine.exec (Ingestion.step everything) (Ingestion.start "u")
      spelledRun).1.db (requestContext none) "sog" "" "~").card = 1 := by decide +kernel
  have htwo : (appliedTo (applied "u" spelledRun) "u" "sog" "" "~").card = 2 := by decide +kernel
  rw [hdefault, htwo] at hone
  cases hone

end
end SignalK.History

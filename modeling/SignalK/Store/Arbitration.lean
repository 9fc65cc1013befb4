import SignalK.Store.Ledger

/-! The store's pairwise comparison of sources, kept online over any sequence of
deltas, agrees with the documented rule read off the whole sequence: the last
write of the best-ranked sources wins, and every source keeps its last write. -/
namespace SignalK.Arbitration

/-- The documented rank of a source: its configured number, 100 when unlisted. -/
def sourceRank (priorities : HashMap SourceRef UInt16) (source : SourceRef) : ℕ :=
  ((priorities.lookup source).getD defaultSourcePriority).toNat

/-- The ledger of a store that never expires a value and ranks by a fixed map. -/
def Unexpiring (selfUri : String) (rank : SourceRef → ℕ) (l : Ledger) : Prop :=
  l.self = selfUri ∧ (∀ s, (l.priority s).toNat = rank s) ∧ ∀ s, l.ttl s = none

theorem unexpiring_write {selfUri : String} {rank : SourceRef → ℕ} {l : Ledger}
    (h : Unexpiring selfUri rank l) (tw : DateTime × Write) :
    Unexpiring selfUri rank (l.write tw).1 := by
  simpa [Unexpiring] using h

theorem Unexpiring.not_stale {selfUri : String} {rank : SourceRef → ℕ} {l : Ledger}
    (h : Unexpiring selfUri rank l) (now : DateTime) (v : SignalKValue) :
    l.stale now v = false := by
  simp [Ledger.stale, h.2.2]

theorem Unexpiring.accepts_eq {selfUri : String} {rank : SourceRef → ℕ} {l : Ledger}
    (h : Unexpiring selfUri rank l) (now : DateTime) (w : Write) :
    l.accepts now w = match l.active w.vessel w.path with
      | none => true
      | some c => decide (rank w.source ≤ rank c.source) := by
  cases hc : l.active w.vessel w.path with
  | none => simp [Ledger.accepts, hc]
  | some c => simp [Ledger.accepts, hc, h.not_stale, UInt16.le_iff_toNat_le, h.2.1]

/-- One write offers its entry to the path it addresses. -/
theorem active_write {selfUri : String} {rank : SourceRef → ℕ} {l : Ledger}
    (h : Unexpiring selfUri rank l) (tw : DateTime × Write) (uri path : String) :
    (l.write tw).1.active uri path =
      if decide (tw.2.vessel = uri ∧ tw.2.path = path) then
        Register.offer (fun v => rank v.source) (l.active uri path) tw.2.entry
      else l.active uri path := by
  have ha := h.accepts_eq tw.1 tw.2
  have hsrc : tw.2.entry.source = tw.2.source := rfl
  by_cases hk : tw.2.vessel = uri ∧ tw.2.path = path
  · obtain ⟨rfl, rfl⟩ := hk
    cases hc : l.active tw.2.vessel tw.2.path with
    | none =>
      rw [hc] at ha
      simp [Ledger.write, ha, Register.offer]
    | some c =>
      rw [hc] at ha
      by_cases hle : rank tw.2.source ≤ rank c.source
      · simp [Ledger.write, ha, hle, hsrc, Register.offer]
      · simp [Ledger.write, ha, hle, hsrc, hc, Register.offer]
  · cases hacc : l.accepts tw.1 tw.2 with
    | false => simp [Ledger.write, hacc, hk]
    | true => simp [Ledger.write, hacc, hk, Keyed.set₂_apply]

/-- One write overwrites what its source has for the path. -/
theorem retained_write {selfUri : String} {rank : SourceRef → ℕ} {l : Ledger}
    (h : Unexpiring selfUri rank l) (tw : DateTime × Write) (path : String) (s : SourceRef) :
    (l.write tw).1.retained path s =
      if decide (tw.2.vessel = selfUri ∧ tw.2.path = path ∧ tw.2.source = s) then some tw.2.entry
      else l.retained path s := by
  have hrec : (l.write tw).1.retained = l.record tw.2 := by
    have he : l.evict tw.1 tw.2 = l.record tw.2 :=
      Ledger.evict_fresh fun c _ => h.not_stale tw.1 c
    unfold Ledger.write
    split
    · exact he
    · rfl
  rw [hrec]
  by_cases hs : tw.2.vessel = selfUri
  · have hs' : tw.2.vessel = l.self := hs.trans h.1.symm
    simp [Ledger.record_self hs', hs, Keyed.set₂_apply]
  · have hs' : tw.2.vessel ≠ l.self := fun he => hs (he.trans h.1)
    simp [Ledger.record_other hs', hs]

theorem map_snd_filter (tws : List (DateTime × Write)) (p : Write → Bool) :
    (tws.filter fun tw => p tw.2).map Prod.snd = (tws.map Prod.snd).filter p := by
  rw [List.filter_map]
  rfl

/-- The active value of a path after any run of the ledger. -/
theorem active_run {selfUri : String} {rank : SourceRef → ℕ} {l : Ledger}
    (h : Unexpiring selfUri rank l) (tws : List (DateTime × Write)) (uri path : String)
    (hn : l.active uri path = none) :
    (Machine.run Ledger.write l tws).active uri path =
      (Register.winner (fun w => rank w.source)
        ((tws.map Prod.snd).filter fun w => w.vessel = uri ∧ w.path = path)).map
          Write.entry := by
  have hf := Keyed.foldl_filter (fun l : Ledger => l.active uri path)
    (fun tw => decide (tw.2.vessel = uri ∧ tw.2.path = path))
    (fun cur tw => Register.offer (fun v => rank v.source) cur tw.2.entry)
    (fun l tw (hl : Unexpiring selfUri rank l) => unexpiring_write hl tw)
    (fun l tw hl => active_write hl tw uri path) h tws
  have hm : ((tws.filter fun tw => decide (tw.2.vessel = uri ∧ tw.2.path = path)).map
      fun tw => tw.2.entry).foldl (Register.offer fun v => rank v.source) none =
      (tws.filter fun tw => decide (tw.2.vessel = uri ∧ tw.2.path = path)).foldl
        (fun cur tw => Register.offer (fun v => rank v.source) cur tw.2.entry) none := by
    rw [List.foldl_map]
  have hw := Register.winner_map (fun v : SignalKValue => rank v.source) Write.entry
    ((tws.filter fun tw => decide (tw.2.vessel = uri ∧ tw.2.path = path)).map Prod.snd)
  rw [List.map_map] at hw
  rw [Machine.run_eq_foldl, hf, hn, ← hm, Register.foldl_offer,
    ← map_snd_filter tws fun w => decide (w.vessel = uri ∧ w.path = path)]
  exact hw

/-- What a source retains for a path after any run of the ledger. -/
theorem retained_run {selfUri : String} {rank : SourceRef → ℕ} {l : Ledger}
    (h : Unexpiring selfUri rank l) (tws : List (DateTime × Write)) (path : String)
    (s : SourceRef) (hn : l.retained path s = none) :
    (Machine.run Ledger.write l tws).retained path s =
      (((tws.map Prod.snd).filter fun w =>
        w.vessel = selfUri ∧ w.path = path ∧ w.source = s).getLast?).map Write.entry := by
  have hf := Keyed.foldl_filter (fun l : Ledger => l.retained path s)
    (fun tw => decide (tw.2.vessel = selfUri ∧ tw.2.path = path ∧ tw.2.source = s))
    (fun _ tw => some tw.2.entry)
    (fun l tw (hl : Unexpiring selfUri rank l) => unexpiring_write hl tw)
    (fun l tw hl => retained_write hl tw path s) h tws
  have ho := Keyed.foldl_overwrite (fun tw : DateTime × Write => some tw.2.entry) none
    (tws.filter fun tw => decide (tw.2.vessel = selfUri ∧ tw.2.path = path ∧ tw.2.source = s))
  rw [Machine.run_eq_foldl, hf, hn, ho,
    ← map_snd_filter tws fun w => decide (w.vessel = selfUri ∧ w.path = path ∧ w.source = s),
    List.getLast?_map]
  cases (tws.filter fun tw => decide
    (tw.2.vessel = selfUri ∧ tw.2.path = path ∧ tw.2.source = s)).getLast? <;> rfl

/-- The timed writes of a sequence of deltas. -/
def timedWrites [JsonText] (selfUri : String) (ds : List ((Nat → DateTime) × Delta)) :
    List (DateTime × Write) :=
  ds.flatMap fun d => Machine.timed d.1 (deltaWrites selfUri d.2)

theorem timedWrites_snd [JsonText] (selfUri : String) (ds : List ((Nat → DateTime) × Delta)) :
    (timedWrites selfUri ds).map Prod.snd = ds.flatMap fun d => deltaWrites selfUri d.2 := by
  simp [timedWrites, List.map_flatMap, Machine.timed_snd]

/-- A sequence of deltas is one run of the ledger over all their writes. -/
theorem run_deltas_ledger [JsonText] (st : SignalKStore)
    (ds : List ((Nat → DateTime) × Delta)) :
    (Machine.run SignalKStore.step st (ds.map fun d => .applyDelta d.1 d.2)).ledger =
      Machine.run Ledger.write st.ledger (timedWrites st.selfUri ds) := by
  induction ds generalizing st with
  | nil => rfl
  | cons d ds ih =>
    have hl := st.applyDelta_ledger d.1 d.2
    have hs : (st.applyDelta d.1 d.2).1.selfUri = st.selfUri := by
      have hself := congrArg Ledger.self hl
      rw [Ledger.exec_self] at hself
      exact hself
    have hn := ih (st.applyDelta d.1 d.2).1
    rw [hs, hl] at hn
    rw [timedWrites, List.flatMap_cons, Machine.run_append]
    exact hn

/-- For any priority map, no TTL and any sequence of deltas from the initial
store: the active value of every path of every vessel is the last write among
those of the best-ranked sources that ever wrote it, and the self vessel retains
exactly the last write of every source. -/
theorem run_arbitration [JsonText] (selfUri : String) (priorities : HashMap SourceRef UInt16)
    (ds : List ((Nat → DateTime) × Delta)) :
    let st := Machine.run SignalKStore.step
      ((SignalKStore.new selfUri).setSourcePriorities priorities)
      (ds.map fun d => .applyDelta d.1 d.2)
    let writes := ds.flatMap fun d => deltaWrites selfUri d.2
    (∀ uri path, st.getVesselPath uri path =
      (Register.winner (fun w => sourceRank priorities w.source)
        (writes.filter fun w => w.vessel = uri ∧ w.path = path)).map Write.entry) ∧
    ∀ path s, st.getSelfPathBySource path s =
      ((writes.filter fun w => w.vessel = selfUri ∧ w.path = path ∧ w.source = s).getLast?).map
        Write.entry := by
  intro st writes
  have hl : st.ledger = Machine.run Ledger.write
      ((SignalKStore.new selfUri).setSourcePriorities priorities).ledger
      (timedWrites selfUri ds) := run_deltas_ledger _ ds
  have hu : Unexpiring selfUri (sourceRank priorities)
      ((SignalKStore.new selfUri).setSourcePriorities priorities).ledger := by
    refine ⟨rfl, fun _ => rfl, fun s => ?_⟩
    simp [SignalKStore.ledger, SignalKStore.setSourcePriorities, SignalKStore.new]
  have hw : (timedWrites selfUri ds).map Prod.snd = writes := timedWrites_snd selfUri ds
  constructor
  · intro uri path
    have ha := active_run hu (timedWrites selfUri ds) uri path
      (SignalKStore.new_getVesselPath selfUri uri path)
    rw [← hl, hw] at ha
    exact ha
  · intro path s
    have hr := retained_run hu (timedWrites selfUri ds) path s
      (SignalKStore.new_getSelfPathBySource selfUri path s)
    rw [← hl, hw] at hr
    exact hr

end SignalK.Arbitration

import SignalK.Store.Ledger

/-! Retention of the active value under its own source. The store records a
write for its source, decides whether the old active value has expired, and only
then removes that value's source: when the same source reports again, what it
removes is the value just recorded. The removal also ignores which vessel the
expired value belonged to. -/
namespace SignalK.Retention

/-- Every active value of the self vessel is retained, unchanged, under its source. -/
def Retained (l : Ledger) : Prop :=
  ∀ p v, l.active l.self p = some v → l.retained p v.source = some v

/-- The eviction caused by a write, if any, hits neither the source that writes
nor, for another vessel's write, the source active on the self vessel. -/
def SparesActive (l : Ledger) (tw : DateTime × Write) : Prop :=
  ∀ c ∈ l.active tw.2.vessel tw.2.path, l.stale tw.1 c = true →
    if tw.2.vessel = l.self then tw.2.source ≠ c.source
    else ∀ v ∈ l.active l.self tw.2.path, v.source ≠ c.source

instance (l : Ledger) : DecidablePred (SparesActive l) := fun tw =>
  inferInstanceAs (Decidable (∀ c ∈ l.active tw.2.vessel tw.2.path, _ → _))

/-- A rejected write records a value for a source that is not active. -/
theorem retained_rejected {l : Ledger} {tw : DateTime × Write} (h : Retained l)
    (hr : l.accepts tw.1 tw.2 = false) : Retained (l.write tw).1 := by
  intro p v hv
  simp only [Ledger.write, hr, Bool.false_eq_true, if_false] at hv ⊢
  have hold := h p v hv
  by_cases hs : tw.2.vessel = l.self
  · rw [Ledger.record_self hs]
    by_cases hk : p = tw.2.path ∧ v.source = tw.2.source
    · have hc : l.active tw.2.vessel tw.2.path = some v := by rw [hs, ← hk.1, hv]
      exact absurd hk.2.symm (Ledger.source_ne_of_rejected hc hr)
    · simpa only [Keyed.set₂, if_neg hk] using hold
  · rw [Ledger.record_other hs]
    exact hold

/-- What a write leaves of the retained values of the path it is for, when an
eviction, if any, is of another source. -/
theorem evict_spared {l : Ledger} {now : DateTime} {w : Write} {s : SourceRef}
    (h : ∀ c, l.active w.vessel w.path = some c → l.stale now c = true → s ≠ c.source) :
    l.evict now w w.path s = l.record w w.path s := by
  by_cases hfresh : ∀ c, l.active w.vessel w.path = some c → l.stale now c = false
  · rw [Ledger.evict_fresh hfresh]
  · push Not at hfresh
    obtain ⟨c, hc, hst⟩ := hfresh
    have hs : l.stale now c = true := by simpa using hst
    have hne := h c hc hs
    rw [Ledger.evict_stale hc hs]
    simp [Keyed.set₂, hne]

/-- Other paths keep their retained values. -/
theorem evict_frame {l : Ledger} {now : DateTime} {w : Write} {p : String}
    (hp : p ≠ w.path) (s : SourceRef) : l.evict now w p s = l.retained p s := by
  have hrec : l.record w p s = l.retained p s := by
    by_cases hs : w.vessel = l.self
    · simp [Ledger.record_self hs, Keyed.set₂, hp]
    · rw [Ledger.record_other hs]
  by_cases hfresh : ∀ c, l.active w.vessel w.path = some c → l.stale now c = false
  · rw [Ledger.evict_fresh hfresh, hrec]
  · push Not at hfresh
    obtain ⟨c, hc, hst⟩ := hfresh
    rw [Ledger.evict_stale hc (by simpa using hst)]
    simpa [Keyed.set₂, hp] using hrec

theorem retained_accepted {l : Ledger} {tw : DateTime × Write} (h : Retained l)
    (ha : l.accepts tw.1 tw.2 = true) (hsafe : SparesActive l tw) :
    Retained (l.write tw).1 := by
  intro p v hv
  simp only [Ledger.write, ha, if_true] at hv ⊢
  by_cases hp : p = tw.2.path
  · subst hp
    by_cases hs : tw.2.vessel = l.self
    · have hve : tw.2.entry = v := by simpa [hs] using hv
      have hsp := evict_spared (s := tw.2.source) fun c hc hst => by
        simpa [hs] using hsafe c hc hst
      have hsrc : v.source = tw.2.source := by rw [← hve]; rfl
      rw [hsrc, hsp, Ledger.record_self hs, ← hve]
      simp
    · have hold : l.active l.self tw.2.path = some v := by
        simpa [Keyed.set₂, Ne.symm hs] using hv
      have hsp := evict_spared (s := v.source) fun c hc hst => by
        have hc' := hsafe c hc hst
        rw [if_neg hs] at hc'
        exact hc' v hold
      rw [hsp, Ledger.record_other hs]
      exact h tw.2.path v hold
  · have hold : l.active l.self p = some v := by simpa [Keyed.set₂, hp] using hv
    rw [evict_frame hp]
    exact h p v hold

/-- An eviction that hits an active source leaves it active and not retained. -/
theorem sparesActive_of_retained {l : Ledger} {tw : DateTime × Write}
    (h : Retained (l.write tw).1) : SparesActive l tw := by
  intro c hc hst
  have ha := Ledger.accepts_of_stale hc hst
  simp only [Ledger.write, ha, if_true, Retained, Ledger.evict_stale hc hst] at h
  by_cases hs : tw.2.vessel = l.self
  · rw [if_pos hs]
    intro he
    have hret := h tw.2.path tw.2.entry (by simp [hs])
    have hsrc : tw.2.entry.source = c.source := he
    simp [hsrc] at hret
  · rw [if_neg hs]
    intro v hv he
    have hret := h tw.2.path v (by simpa [Keyed.set₂, Ne.symm hs] using hv)
    simp [he] at hret

/-- One write keeps retention exactly when its eviction spares the active sources. -/
theorem retained_write_iff {l : Ledger} {tw : DateTime × Write} (h : Retained l) :
    Retained (l.write tw).1 ↔ SparesActive l tw := by
  constructor
  · exact sparesActive_of_retained
  · intro hsafe
    cases ha : l.accepts tw.1 tw.2 with
    | false => exact retained_rejected h ha
    | true => exact retained_accepted h ha hsafe

/-- The condition on one call: every eviction that the delta's writes cause, one
after another, spares the active sources. -/
def SparesActiveStep [JsonText] (st : SignalKStore) : StoreEvent → Prop
  | .applyDelta clock delta =>
    Machine.Meets Ledger.write SparesActive st.ledger
      (Machine.timed clock (deltaWrites st.selfUri delta))
  | _ => True

instance [JsonText] (st : SignalKStore) : DecidablePred (SparesActiveStep st)
  | .applyDelta _ _ => inferInstanceAs (Decidable (Machine.Meets _ _ _ _))
  | .setSourcePriorities _ | .setSourceTtls _ | .setVesselIdentity _ _ _ => isTrue trivial

/-- The entry of the active value's source is there and carries the same value
and timestamp. -/
def RetainsActive (st : SignalKStore) : Prop :=
  ∀ path v, st.getSelfPath path = some v → ∃ e, st.getSelfPathBySource path v.source = some e ∧
    e.value = v.value ∧ e.timestamp = v.timestamp

theorem step_retained [JsonText] (st : SignalKStore) (e : StoreEvent)
    (h : Retained st.ledger) (hsafe : SparesActiveStep st e) : Retained (st.step e).1.ledger := by
  cases e with
  | applyDelta clock delta =>
    have hw : ∀ l tw, Retained l → SparesActive l tw → Retained (l.write tw).1 :=
      fun l tw hl => (retained_write_iff hl).mpr
    have hrun := Machine.run_inv hw h hsafe
    rw [SignalKStore.step, SignalKStore.applyDelta_ledger]
    exact hrun
  | setSourcePriorities priorities => exact h
  | setSourceTtls ttls => exact h
  | setVesselIdentity uri name mmsi =>
    rw [SignalKStore.step, SignalKStore.setVesselIdentity_ledger]
    exact h

theorem new_retained (selfUri : String) : Retained (SignalKStore.new selfUri).ledger := by
  intro p v hv
  simp [SignalKStore.ledger, SignalKStore.new_getVesselPath] at hv

/-- In every run whose evictions spare the active sources, the active value of
every self path is retained under its source. -/
theorem run_retainsActive [JsonText] (selfUri : String) (events : List StoreEvent)
    (h : Machine.Meets SignalKStore.step SparesActiveStep (SignalKStore.new selfUri) events) :
    RetainsActive (Machine.run SignalKStore.step (SignalKStore.new selfUri) events) := by
  have hstep : ∀ (st : SignalKStore) e, (fun st => Retained st.ledger) st →
    SparesActiveStep st e → (fun st => Retained st.ledger) (st.step e).1 := step_retained
  have hret := Machine.run_inv hstep (new_retained selfUri) h
  intro path v hv
  exact ⟨v, hret path v hv, rfl, rfl⟩

/-! A GPS and an AIS receiver report the same path; the GPS has a TTL of five
seconds. -/

def sogDelta (source : Source) (timestamp : DateTime) (sog : ℚ) : Delta :=
  .selfVessel [⟨source, timestamp, [⟨"navigation.speedOverGround", .ofF64 sog⟩]⟩]

def gpsTtl : StoreEvent :=
  .setSourceTtls (HashMap.collect [("ttyUSB0.GP", 5)])

def gpsReport (timestamp : DateTime) (sog : ℚ) : StoreEvent :=
  .applyDelta (fun _ => timestamp) (sogDelta (.nmea0183 "ttyUSB0" "GP") timestamp sog)

def aisReport (timestamp : DateTime) (sog : ℚ) : StoreEvent :=
  .applyDelta (fun _ => timestamp) (sogDelta (.plugin "ais") timestamp sog)

section
local instance : JsonText := JsonText.unused

/-- The AIS receiver takes over from a silent GPS, and the GPS comes back. -/
theorem run_retainsActive_takeover :
    RetainsActive (Machine.run SignalKStore.step (SignalKStore.new "urn:mrn:signalk:uuid:test")
      [gpsTtl, gpsReport 0 3, aisReport 30000000000 4, gpsReport 31000000000 5]) :=
  run_retainsActive _ _ (by decide +kernel)

/-- The GPS reports again after its own value has expired: its new value is
active and retained nowhere. -/
theorem expired_source_reports_again :
    ¬ RetainsActive (Machine.run SignalKStore.step (SignalKStore.new "urn:mrn:signalk:uuid:test")
      [gpsTtl, gpsReport 0 3, gpsReport 30000000000 4]) := by
  intro h
  have hactive : (Machine.run SignalKStore.step (SignalKStore.new "urn:mrn:signalk:uuid:test")
      [gpsTtl, gpsReport 0 3, gpsReport 30000000000 4]).getSelfPath
        "navigation.speedOverGround" =
      some (.new (.ofF64 4) "ttyUSB0.GP" 30000000000) := by decide +kernel
  have hgone : (Machine.run SignalKStore.step (SignalKStore.new "urn:mrn:signalk:uuid:test")
      [gpsTtl, gpsReport 0 3, gpsReport 30000000000 4]).getSelfPathBySource
        "navigation.speedOverGround" "ttyUSB0.GP" = none := by decide +kernel
  obtain ⟨e, he, -⟩ := h _ _ hactive
  cases hgone.symm.trans he

end
end SignalK.Retention

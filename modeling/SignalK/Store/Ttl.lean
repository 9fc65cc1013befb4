import Mathlib.Data.UInt
import SignalK.Store.Ledger

/-! When a write may displace a value before its source's TTL is over. The store
compares the age with the TTL cast to a signed integer, so a TTL from 2^63 on is
negative there; and what it removes of an expired source is whatever the source
has on the path by then. -/
namespace SignalK

/-- `ttl as i64` -/
theorem toInt_toInt64 (ttl : UInt64) :
    ttl.toInt64.toInt = if ttl.toNat < 2 ^ 63 then (ttl.toNat : Int) else ttl.toNat - 2 ^ 64 := by
  have hcast : ttl.toInt64.toInt = ttl.toBitVec.toInt := rfl
  have hnat : ttl.toBitVec.toNat = ttl.toNat := rfl
  rw [hcast, BitVec.toInt_eq_toNat_cond, hnat]
  split_ifs with h₁ h₂
  · rfl
  · omega
  · omega
  · rfl

namespace SignalKStore

/-- The source has a TTL and the instant is further back than that. -/
def expiredFor (st : SignalKStore) (now : DateTime) (source : SourceRef) (timestamp : DateTime) :
    Bool :=
  match st.sourceTtls.lookup source with
  | none => false
  | some ttl => decide ((ttl.toNat : Int) < secondsSince now timestamp)

/-- What a source configured with a TTL may rely on when one value is applied: a
source that ranks behind the active one replaces its value exactly when that has
expired, and no retained value is removed that has not. -/
def RespectsTtl (st : SignalKStore) (vesselUri : String) (sourceRef : SourceRef)
    (timestamp now : DateTime) (pv : PathValue) : Prop :=
  let value := SignalKValue.new pv.value sourceRef timestamp
  let after := (st.applyValue vesselUri sourceRef timestamp now pv).1
  (∀ current, st.getVesselPath vesselUri pv.path = some current →
    st.priority current.source < st.priority sourceRef →
    after.getVesselPath vesselUri pv.path =
      some (if st.expiredFor now current.source current.timestamp then value else current)) ∧
  ∀ s e, (st.recordSource vesselUri pv.path value).lookup₂ pv.path s = some e →
    st.expiredFor now s e.timestamp = false → after.getSelfPathBySource pv.path s = some e

/-- The active value is not taken for expired while its TTL, from 2^63 on, is not
over, and if it is taken for expired, what its source has on the path has expired. -/
def TtlInRange (st : SignalKStore) (vesselUri : String) (sourceRef : SourceRef)
    (timestamp now : DateTime) (path : String) : Prop :=
  ∀ current ttl, st.getVesselPath vesselUri path = some current →
    st.sourceTtls.lookup current.source = some ttl →
    let age := secondsSince now current.timestamp
    (st.priority current.source < st.priority sourceRef → 2 ^ 63 ≤ ttl.toNat →
      age ≤ ttl.toNat - 2 ^ 64 ∨ ttl.toNat < age) ∧
    ((if ttl.toNat < 2 ^ 63 then (ttl.toNat : Int) else ttl.toNat - 2 ^ 64) < age →
      if vesselUri = st.selfUri ∧ sourceRef = current.source then
        st.expiredFor now current.source timestamp = true
      else ∀ e, st.getSelfPathBySource path current.source = some e →
        st.expiredFor now current.source e.timestamp = true)

theorem stale_iff (st : SignalKStore) (now : DateTime) (v : SignalKValue) :
    st.ledger.stale now v = true ↔ ∃ ttl, st.sourceTtls.lookup v.source = some ttl ∧
      (if ttl.toNat < 2 ^ 63 then (ttl.toNat : Int) else ttl.toNat - 2 ^ 64) <
        secondsSince now v.timestamp := by
  have httl : st.ledger.ttl v.source = st.sourceTtls.lookup v.source := rfl
  cases hl : st.sourceTtls.lookup v.source with
  | none => simp [Ledger.stale, httl, hl]
  | some ttl => simp [Ledger.stale, httl, hl, toInt_toInt64]

theorem expiredFor_iff (st : SignalKStore) (now : DateTime) (source : SourceRef)
    (timestamp : DateTime) :
    st.expiredFor now source timestamp = true ↔ ∃ ttl, st.sourceTtls.lookup source = some ttl ∧
      (ttl.toNat : Int) < secondsSince now timestamp := by
  cases hl : st.sourceTtls.lookup source with
  | none => simp [expiredFor, hl]
  | some ttl => simp [expiredFor, hl]

/-- What has expired is taken for expired. -/
theorem stale_of_expired {st : SignalKStore} {now : DateTime} {v : SignalKValue}
    (h : st.expiredFor now v.source v.timestamp = true) : st.ledger.stale now v = true := by
  obtain ⟨ttl, httl, hage⟩ := (st.expiredFor_iff now v.source v.timestamp).mp h
  refine (st.stale_iff now v).mpr ⟨ttl, httl, ?_⟩
  have hlt := ttl.toNat_lt
  split_ifs
  · exact hage
  · omega

section
variable {st : SignalKStore} {vesselUri : String} {sourceRef : SourceRef}
  {timestamp now : DateTime} {pv : PathValue}

theorem applyValue_active :
    (st.applyValue vesselUri sourceRef timestamp now pv).1.getVesselPath vesselUri pv.path =
      if st.ledger.accepts now (Write.of vesselUri sourceRef timestamp pv) then
        some (SignalKValue.new pv.value sourceRef timestamp)
      else st.getVesselPath vesselUri pv.path := by
  have hl := st.applyValue_ledger vesselUri sourceRef timestamp now pv
  have ha := congrFun (congrFun (congrArg Ledger.active hl) vesselUri) pv.path
  rw [Ledger.write_active] at ha
  simp only [Write.of, true_and, and_self] at ha ⊢
  exact ha

theorem applyValue_retained (s : SourceRef) :
    (st.applyValue vesselUri sourceRef timestamp now pv).1.getSelfPathBySource pv.path s =
      if st.ledger.accepts now (Write.of vesselUri sourceRef timestamp pv) then
        st.ledger.evict now (Write.of vesselUri sourceRef timestamp pv) pv.path s
      else st.ledger.record (Write.of vesselUri sourceRef timestamp pv) pv.path s := by
  have hl := st.applyValue_ledger vesselUri sourceRef timestamp now pv
  have hr := congrFun (congrFun (congrArg Ledger.retained hl) pv.path) s
  unfold Ledger.write at hr
  split_ifs at hr ⊢
  · exact hr
  · exact hr

/-- The active value's source outranks the writer: only expiry lets it through. -/
theorem accepts_outranked {current : SignalKValue}
    (hc : st.getVesselPath vesselUri pv.path = some current)
    (hp : st.priority current.source < st.priority sourceRef) :
    st.ledger.accepts now (Write.of vesselUri sourceRef timestamp pv) =
      st.ledger.stale now current := by
  have hactive : st.ledger.active vesselUri pv.path = some current := hc
  have hpriority : st.ledger.priority = st.priority := rfl
  have hle : ¬ st.priority sourceRef ≤ st.priority current.source := by simpa using hp
  simp [Ledger.accepts, Write.of, hactive, hpriority, hle]

/-- What stays of the source that is taken for expired: nothing. -/
theorem retained_of_stale {current : SignalKValue}
    (hc : st.getVesselPath vesselUri pv.path = some current)
    (hs : st.ledger.stale now current = true) (s : SourceRef) :
    (st.applyValue vesselUri sourceRef timestamp now pv).1.getSelfPathBySource pv.path s =
      if s = current.source then none
      else st.ledger.record (Write.of vesselUri sourceRef timestamp pv) pv.path s := by
  have hactive : st.ledger.active (Write.of vesselUri sourceRef timestamp pv).vessel
      (Write.of vesselUri sourceRef timestamp pv).path = some current := hc
  rw [applyValue_retained, Ledger.accepts_of_stale hactive hs, if_pos rfl,
    Ledger.evict_stale hactive hs, Keyed.set₂]
  simp [Write.of]

/-- Otherwise everything recorded stays. -/
theorem retained_of_fresh
    (h : ∀ current, st.getVesselPath vesselUri pv.path = some current →
      st.ledger.stale now current = false) (s : SourceRef) :
    (st.applyValue vesselUri sourceRef timestamp now pv).1.getSelfPathBySource pv.path s =
      st.ledger.record (Write.of vesselUri sourceRef timestamp pv) pv.path s := by
  rw [applyValue_retained, Ledger.evict_fresh h, ite_self]

/-- The entry of a source once a value is recorded, as the condition states it. -/
theorem recorded_expired_iff (source : SourceRef) :
    (∀ e, st.ledger.record (Write.of vesselUri sourceRef timestamp pv) pv.path source = some e →
      st.expiredFor now source e.timestamp = true) ↔
    if vesselUri = st.selfUri ∧ sourceRef = source then
      st.expiredFor now source timestamp = true
    else ∀ e, st.getSelfPathBySource pv.path source = some e →
      st.expiredFor now source e.timestamp = true := by
  by_cases hself : vesselUri = st.selfUri
  · have hrec : st.ledger.record (Write.of vesselUri sourceRef timestamp pv) pv.path source =
        if sourceRef = source then some (SignalKValue.new pv.value sourceRef timestamp)
        else st.getSelfPathBySource pv.path source := by
      rw [Ledger.record_self (l := st.ledger) (w := Write.of vesselUri sourceRef timestamp pv) hself,
        Keyed.set₂_apply]
      simp [Write.of, Write.entry, ledger]
    rw [hrec]
    by_cases hsrc : sourceRef = source
    · simp [hself, hsrc, SignalKValue.new]
    · simp [hsrc]
  · rw [Ledger.record_other (l := st.ledger) (w := Write.of vesselUri sourceRef timestamp pv) hself, if_neg
      fun h => hself h.1]
    rfl

/-- The active value that outranks the writer is replaced as it should, unless its TTL is
negative for the store and its age between the two readings. -/
theorem active_respected_iff {current : SignalKValue}
    (hc : st.getVesselPath vesselUri pv.path = some current)
    (hp : st.priority current.source < st.priority sourceRef) :
    (st.applyValue vesselUri sourceRef timestamp now pv).1.getVesselPath vesselUri pv.path =
        some (if st.expiredFor now current.source current.timestamp then
          SignalKValue.new pv.value sourceRef timestamp else current) ↔
      ∀ ttl, st.sourceTtls.lookup current.source = some ttl → 2 ^ 63 ≤ ttl.toNat →
        secondsSince now current.timestamp ≤ ttl.toNat - 2 ^ 64 ∨
          ttl.toNat < secondsSince now current.timestamp := by
  rw [applyValue_active, accepts_outranked hc hp]
  constructor
  · intro hactive ttl httl hbig
    by_contra hage
    push Not at hage
    have hs : st.ledger.stale now current = true :=
      (st.stale_iff now current).mpr ⟨ttl, httl, by rw [if_neg (by omega)]; exact hage.1⟩
    have hfresh : st.expiredFor now current.source current.timestamp = false := by
      simp [expiredFor, httl, hage.2]
    rw [hs, if_pos rfl, hfresh] at hactive
    have hsame : sourceRef = current.source :=
      congrArg SignalKValue.source (Option.some.inj hactive)
    exact absurd hp (by simp [hsame])
  · intro h
    have hsame : st.ledger.stale now current =
        st.expiredFor now current.source current.timestamp := by
      cases hexp : st.expiredFor now current.source current.timestamp with
      | true => exact stale_of_expired hexp
      | false =>
        by_contra hs
        obtain ⟨ttl, httl, hage⟩ := (st.stale_iff now current).mp (by simpa using hs)
        have hage' : secondsSince now current.timestamp ≤ ttl.toNat := by
          simpa [expiredFor, httl] using hexp
        have hrange := h ttl httl
        split_ifs at hage with hsmall
        · omega
        · have hout := hrange (by omega)
          omega
    rw [hsame, hc]
    split_ifs <;> rfl

/-- What has not expired stays retained, unless the source taken for expired has it. -/
theorem retained_respected_iff :
    (∀ s e, st.ledger.record (Write.of vesselUri sourceRef timestamp pv) pv.path s = some e →
      st.expiredFor now s e.timestamp = false →
      (st.applyValue vesselUri sourceRef timestamp now pv).1.getSelfPathBySource pv.path s =
        some e) ↔
    ∀ current, st.getVesselPath vesselUri pv.path = some current →
      st.ledger.stale now current = true →
      if vesselUri = st.selfUri ∧ sourceRef = current.source then
        st.expiredFor now current.source timestamp = true
      else ∀ e, st.getSelfPathBySource pv.path current.source = some e →
        st.expiredFor now current.source e.timestamp = true := by
  constructor
  · intro hretained current hc hs
    refine (recorded_expired_iff current.source).mp fun e he => ?_
    by_contra hfresh
    have hkept := hretained current.source e he (by simpa using hfresh)
    rw [retained_of_stale hc hs, if_pos rfl] at hkept
    cases hkept
  · intro h s e he hfresh
    by_cases hs : ∀ current, st.getVesselPath vesselUri pv.path = some current →
        st.ledger.stale now current = false
    · rw [retained_of_fresh hs, he]
    · push Not at hs
      obtain ⟨current, hc, hs⟩ := hs
      have hs : st.ledger.stale now current = true := by simpa using hs
      have hout := (recorded_expired_iff current.source).mpr (h current hc hs)
      have hne : s ≠ current.source := by
        rintro rfl
        have hexp := hout e he
        rw [hfresh] at hexp
        cases hexp
      rw [retained_of_stale hc hs, if_neg hne, he]

/-- Applying one value respects the TTLs exactly when the one that counts is in range. -/
theorem respectsTtl_iff (st : SignalKStore) (vesselUri : String) (sourceRef : SourceRef)
    (timestamp now : DateTime) (pv : PathValue) :
    st.RespectsTtl vesselUri sourceRef timestamp now pv ↔
      st.TtlInRange vesselUri sourceRef timestamp now pv.path := by
  have hrecord : (st.recordSource vesselUri pv.path
      (SignalKValue.new pv.value sourceRef timestamp)).lookup₂ =
      st.ledger.record (Write.of vesselUri sourceRef timestamp pv) :=
    st.recordSource_eq (Write.of vesselUri sourceRef timestamp pv)
  simp only [RespectsTtl, hrecord, retained_respected_iff]
  constructor
  · intro h current ttl hc httl
    refine ⟨fun hp => (active_respected_iff hc hp).mp (h.1 current hc hp) ttl httl, fun hage => ?_⟩
    exact h.2 current hc ((st.stale_iff now current).mpr ⟨ttl, httl, hage⟩)
  · intro h
    refine ⟨fun current hc hp => (active_respected_iff hc hp).mpr fun ttl httl =>
      (h current ttl hc httl).1 hp, fun current hc hs => ?_⟩
    obtain ⟨ttl, httl, hage⟩ := (st.stale_iff now current).mp hs
    exact (h current ttl hc httl).2 hage

end

/-! A GPS with the largest TTL there is, and an AIS receiver that ranks behind it. -/

section
attribute [local instance] JsonText.unused

def sogValue (sog : ℚ) : PathValue :=
  ⟨"navigation.speedOverGround", .ofF64 sog⟩

def gpsActive (ttl : UInt64) : SignalKStore :=
  Machine.run step (new "u")
    [.setSourcePriorities (HashMap.collect [("ttyUSB0.GP", 10), ("ais", 50)]),
      .setSourceTtls (HashMap.collect [("ttyUSB0.GP", ttl)]),
      .applyDelta (fun _ => 0) (.selfVessel [⟨.nmea0183 "ttyUSB0" "GP", 0, [sogValue 3]⟩])]

/-- At the very instant of the GPS value the receiver replaces and evicts it. With
a TTL of five seconds the GPS itself, reporting after six, loses what it reports. -/
theorem largest_ttl_evicts :
    ¬ (gpsActive (2 ^ 64 - 1)).RespectsTtl "u" "ais" 0 0 (sogValue 4) ∧
    ((gpsActive (2 ^ 64 - 1)).applyDelta (fun _ => 0)
      (.selfVessel [⟨.plugin "ais", 0, [sogValue 4]⟩])).1.getSelfPath
        "navigation.speedOverGround" = some (SignalKValue.new (.ofF64 4) "ais" 0) ∧
    ¬ (gpsActive 5).RespectsTtl "u" "ttyUSB0.GP" 6000000000 6000000000 (sogValue 4) := by
  refine ⟨fun h => ?_, by decide +kernel, fun h => ?_⟩
  · have hactive := h.1 (SignalKValue.new (.ofF64 3) "ttyUSB0.GP" 0) (by decide +kernel)
      (by decide +kernel)
    revert hactive
    decide +kernel
  · have hentry := h.2 "ttyUSB0.GP" (SignalKValue.new (.ofF64 4) "ttyUSB0.GP" 6000000000)
      (by decide +kernel) (by decide +kernel)
    revert hentry
    decide +kernel

end

end SignalKStore
end SignalK

import SignalK.Store.Ledger

/-! The values of the own vessel after a delta: of each path the last one accepted. -/
namespace SignalK

/-- The values that a list has for a path. -/
def valuesAt (values : List PathValue) (path : String) : List Json :=
  values.filterMap fun pv => if pv.path = path then some pv.value else none

theorem valuesAt_append (l r : List PathValue) (path : String) :
    valuesAt (l ++ r) path = valuesAt l path ++ valuesAt r path := List.filterMap_append

theorem valuesAt_eq_nil {values : List PathValue} {path : String}
    (h : ∀ pv ∈ values, pv.path ≠ path) : valuesAt values path = [] :=
  List.filterMap_eq_nil_iff.mpr fun pv hpv => if_neg (h pv hpv)

theorem foldl_active (self path : String) (ws : List Write) (hws : ∀ w ∈ ws, w.vessel = self)
    (active : String → String → Option SignalKValue) :
    ((ws.foldl (fun active w => Keyed.set₂ active w.vessel w.path (some w.entry)) active)
        self path).map (·.value) =
      (valuesAt (ws.map Write.pathValue) path).getLast?.or ((active self path).map (·.value)) := by
  induction ws using List.reverseRecOn with
  | nil => rfl
  | append_singleton ws w ih =>
    have hself : w.vessel = self := hws w (by simp)
    have hrest := ih fun v hv => hws v (List.mem_append_left _ hv)
    rw [List.foldl_append, List.foldl_cons, List.foldl_nil, Keyed.set₂_apply, List.map_append,
      valuesAt_append]
    by_cases hp : w.path = path
    · simp [hself, hp, Write.pathValue, Write.entry, SignalKValue.new, valuesAt]
    · simp only [hp, and_false, if_false]
      rw [hrest]
      simp [Write.pathValue, hp, valuesAt]

namespace SignalKStore
variable [JsonText] (clock : Nat → DateTime) (st : SignalKStore)

theorem getSelfPath_applyDelta (delta : Delta) (path : String) :
    (st.applyDelta clock delta).1.getSelfPath path =
      (Machine.exec Ledger.write st.ledger
        (Machine.timed clock (deltaWrites st.selfUri delta))).1.active st.selfUri path := by
  rw [← applyDelta_ledger, getSelfPath, applyDelta_selfUri]
  rfl

/-- What the store broadcasts of a delta of the own vessel is what it changes. -/
theorem getSelfPath_accepted (delta : Delta)
    (hself : vesselUri st.selfUri delta.context = some st.selfUri) (path : String) :
    ((st.applyDelta clock delta).1.getSelfPath path).map (·.value) =
      (valuesAt ((st.applyDelta clock delta).2.flatMap Delta.pathValues) path).getLast?.or
        ((st.getSelfPath path).map (·.value)) := by
  have hstream := (st.applyDelta_broadcast clock delta hself).2
  have hvalues : ((st.applyDelta clock delta).2.flatMap fun d =>
      updateWrites st.selfUri d.updates).map Write.pathValue =
      (st.applyDelta clock delta).2.flatMap Delta.pathValues := by
    rw [List.map_flatMap]
    refine List.flatMap_congr fun d _ => ?_
    rw [updateWrites, List.map_flatMap]
    simp [Delta.pathValues, Write.pathValue, Write.of, Function.comp_def]
  have hown : ∀ w ∈ (Machine.exec Ledger.write st.ledger
      (Machine.timed clock (deltaWrites st.selfUri delta))).2, w.vessel = st.selfUri := by
    intro w hw
    have hmem := Ledger.exec_emitted hw
    rw [Machine.timed_snd] at hmem
    exact (deltaWrites_pathValues hself).2 w hmem
  rw [getSelfPath_applyDelta, Ledger.exec_active, foldl_active _ _ _ hown, ← hstream, hvalues]
  rfl

/-- On a vessel that nobody has reported of, the last value of each path stays. -/
theorem getSelfPath_fresh (source : Source) (now : DateTime) (values : List PathValue)
    (hst : ∀ p, st.getSelfPath p = none) (path : String) :
    ((st.applyDelta clock (Delta.selfVessel [⟨source, now, values⟩])).1.getSelfPath path).map
        (·.value) = (valuesAt values path).getLast? := by
  let ws := values.map (Write.of st.selfUri (makeSourceRef source) now)
  have htimed : ∀ tw ∈ Machine.timed clock ws, tw.2 ∈ ws := by
    intro tw htw
    have hm := List.mem_map_of_mem (f := Prod.snd) htw
    rwa [Machine.timed_snd] at hm
  have hof : ∀ w ∈ ws, w.vessel = st.selfUri ∧ w.source = makeSourceRef source := by
    intro w hw
    obtain ⟨pv, -, rfl⟩ := List.mem_map.mp hw
    exact ⟨rfl, rfl⟩
  have hempty : ∀ p, st.ledger.active st.selfUri p = none := hst
  have hfree : ∀ tw ∈ Machine.timed clock ws, ∀ c,
      st.ledger.active tw.2.vessel tw.2.path = some c → c.source = makeSourceRef source := by
    intro tw htw c hc
    rw [(hof _ (htimed tw htw)).1, hempty] at hc
    cases hc
  have hall : (Machine.exec Ledger.write st.ledger (Machine.timed clock ws)).2 = ws := by
    rw [Ledger.exec_unrivalled (fun tw htw => (hof _ (htimed tw htw)).2) hfree, Machine.timed_snd]
  have hvalues : ws.map Write.pathValue = values := by
    simp [ws, Write.pathValue, Write.of, Function.comp_def]
  rw [getSelfPath_applyDelta, deltaWrites_selfVessel, Ledger.exec_active, hall,
    foldl_active _ _ _ fun w hw => (hof w hw).1, hvalues, hempty]
  simp

end SignalKStore
end SignalK

import SignalK.DerivedData.Consistent

/-! Derived values are those of the current measurements: when no calculator falls silent
that has been heard, and what stays behind when one does. -/
namespace SignalK.DerivedData
open Dataflow

/-- What the plugin said last for a path, null as if it had said nothing. -/
def Observed.current (o : Observed) (p : String) : Option Json :=
  (o.emitted.lookup p).filter (· ≠ .null)

/-- Everything said is what an enabled calculator computes out of what is held now. -/
def NothingStale (calcs : List Calculator) (o : Observed) : Prop :=
  ∀ p v, o.emitted.lookup p = some v →
    ∃ c ∈ calcs, ∃ iter, Gives c.calculate iter o.snapshot ⟨p, v⟩

/-- The reported values alone determine a snapshot on which the calculators compute all
that the plugin has said and all that they can compute out of the values at hand. -/
def Supported (calcs : List Calculator) (o : Observed) (e : Delivery) : Prop :=
  ∃ t, dataflow.Within calcs (told o e) t ∧
    System.Determined dataflow calcs ((told o e).lookup ·) t ∧
    ∀ p, (o.emitted.lookup p ≠ none ∨ ∃ c ∈ calcs, ∃ s v,
        dataflow.Within calcs (received o e) s ∧ dataflow.computes c s p v) →
      ∃ c ∈ calcs, ∃ v, dataflow.computes c t p v

/-- No measurement is derived otherwise and no calculator falls silent. -/
def Sustained (calcs : List Calculator) (o : Observed) (e : Delivery) : Prop :=
  Undisputed calcs o e ∧ Supported calcs o e

/-- The reported values determine what is held and what has been said. -/
structure Current (calcs : List Calculator) (o : Observed) : Prop where
  within : dataflow.Within calcs o.reported o.snapshot
  determined : System.Determined dataflow calcs (o.reported.lookup ·) o.snapshot
  said : ∀ p v, o.emitted.lookup p = some v ↔ ∃ c ∈ calcs, dataflow.computes c o.snapshot p v

section
variable [ExactMath] [Ephemeris] {calcs : List Calculator} {o o' : Observed} {e : Delivery}

theorem Current.consistent (hsub : calcs ⊆ statelessCalculators) (h : Current calcs o) :
    Consistent calcs o where
  settled c hc
    | .inl p, v, hcomp => h.determined.settled c hc p v hcomp
    | .inr p, v, hcomp => (h.said p v).mpr ⟨c, hc, hcomp⟩
  reported := h.determined.kept
  measured hT hM := cogMeasured_within hsub hT hM h.within

theorem current_start (hsub : calcs ⊆ statelessCalculators) : Current calcs .start := by
  have hsilent : ∀ c ∈ calcs, ∀ p v, ¬dataflow.computes c ∅ p v := by
    rintro c hc p v ⟨iter, hg⟩
    exact silent_empty c (hsub hc) iter _ hg
  refine ⟨System.Within.refl calcs _, ⟨fun _ _ h => h, ?_, fun _ _ h => nomatch h⟩, ?_⟩
  · intro c hc p v hcomp
    exact absurd hcomp (hsilent c hc p v)
  · intro p v
    constructor
    · exact fun h => nomatch h
    · rintro ⟨c, hc, hcomp⟩
      exact absurd hcomp (hsilent c hc p v)

/-- What is held after a delivery that calculators sustain is what the reports determine. -/
theorem snapshot_of_sustained (hsub : calcs.Sublist statelessCalculators) (h : Current calcs o)
    (hu : Undisputed calcs o e) (hne : reports e.delta ≠ []) {t : Values}
    (hwithin : dataflow.Within calcs (told o e) t)
    (ht : System.Determined dataflow calcs ((told o e).lookup ·) t)
    (hcov : ∀ p, (o.emitted.lookup p ≠ none ∨ ∃ c ∈ calcs, ∃ s v,
        dataflow.Within calcs (received o e) s ∧ dataflow.computes c s p v) →
      ∃ c ∈ calcs, ∃ v, dataflow.computes c t p v) :
    (o.deliver calcs e).1.snapshot = t := by
  have htraced : ∀ c ∈ calcs, Traced c := fun c hc => traced c (hsub.subset hc)
  have hafter := consistent_deliver hsub (h.consistent hsub.subset) hu
  have hloop : dataflow.Within calcs (received o e) (o.deliver calcs e).1.snapshot :=
    (loop_of_deliver (o := o) (e := e) htraced hne).within.of_echo
  have hheld : ∀ p, (∃ c ∈ calcs, ∃ v, dataflow.computes c t p v) → t.lookup p ≠ none := by
    rintro p ⟨c, hc, v, hcomp⟩ hnone
    exact nomatch hnone.symm.trans (ht.settled c hc p v hcomp)
  obtain ⟨m, -, hrank⟩ := exists_rank hsub.subset (told o e)
    (fun p => (told o e).lookup p = none) fun hT hM => ⟨hT, hM⟩
  refine Finmap.ext_lookup fun p => ?_
  refine ht.eq_of_covered (lawful htraced) (hrank t hwithin) hafter.reported
    (fun c hc p v hcomp => hafter.settled c hc (.inl p) v hcomp) (fun p hp => ?_) p
  -- what is held was reported, or said before, or has just been computed
  obtain ⟨v, hv⟩ := Option.ne_none_iff_exists'.mp hp
  cases hloop.obtained p v hv with
  | computed hc hobt hkept hcomp =>
    exact hheld p (hcov p (.inr ⟨_, hc, _, v, ⟨hobt, hkept⟩, hcomp⟩))
  | held hrec =>
    cases htold : (told o e).lookup p with
    | some w =>
      intro hnone
      exact nomatch hnone.symm.trans (ht.kept p w htold)
    | none =>
      obtain ⟨hsame, hrep⟩ := received_of_untold htold
      obtain ⟨c, hc, hcomp⟩ := h.determined.computed p v (hsame.symm.trans hrec) hrep
      have hsaid := (h.said p v).mpr ⟨c, hc, hcomp⟩
      exact hheld p (hcov p (.inl fun hnone => nomatch hnone.symm.trans hsaid))

/-- A delivery that calculators sustain keeps what is said current. -/
theorem current_deliver (hsub : calcs.Sublist statelessCalculators) (h : Current calcs o)
    (hs : Sustained calcs o e) : Current calcs (o.deliver calcs e).1 := by
  obtain ⟨hu, t, hwithin, ht, hcov⟩ := hs
  by_cases hne : reports e.delta = []
  · rw [deliver_of_silent hne]
    exact h
  · have htraced : ∀ c ∈ calcs, Traced c := fun c hc => traced c (hsub.subset hc)
    have hafter := consistent_deliver hsub (h.consistent hsub.subset) hu
    have hsnap := snapshot_of_sustained hsub h hu hne hwithin ht hcov
    refine ⟨?_, ?_, fun p v => ⟨fun hv => ?_, ?_⟩⟩
    · rw [hsnap]
      exact hwithin
    · rw [hsnap]
      exact ht
    · have hloop := (loop_of_deliver (o := o) (e := e) htraced hne).within
      have hsaid : ∃ c ∈ calcs, ∃ w, dataflow.computes c t p w := by
        apply hcov p
        cases hloop.obtained (.inr p) v hv with
        | held hold =>
          have hold : o.emitted.lookup p = some v := hold
          exact .inl fun hnone => nomatch hnone.symm.trans hold
        | @computed c s _ _ hc hobt hkept hcomp =>
          have hs : voiced.Within calcs (received o e, o.emitted) s := ⟨hobt, hkept⟩
          exact .inr ⟨c, hc, s.1, v, hs.of_echo, hcomp⟩
      obtain ⟨c, hc, w, hcomp⟩ := hsaid
      rw [← hsnap] at hcomp
      have hw := hafter.settled c hc (.inr p) w hcomp
      obtain rfl : w = v := Option.some.inj (hw.symm.trans hv)
      exact ⟨c, hc, hcomp⟩
    · rintro ⟨c, hc, hcomp⟩
      exact hafter.settled c hc (.inr p) v hcomp

/-- Of two plugins that were told the same and are current, both have said the same. -/
theorem Current.emitted_eq (hsub : calcs.Sublist statelessCalculators) (h : Current calcs o)
    (h' : Current calcs o') (hr : ∀ p, o.reported.lookup p = o'.reported.lookup p) (p : String) :
    o.emitted.lookup p = o'.emitted.lookup p := by
  have htraced : ∀ c ∈ calcs, Traced c := fun c hc => traced c (hsub.subset hc)
  have hrep : o.reported = o'.reported := Finmap.ext_lookup hr
  have ht' := h'.determined
  have hwithin' := h'.within
  rw [← hrep] at ht' hwithin'
  obtain ⟨m, -, hrank⟩ := exists_rank hsub.subset o.reported
    (fun p => o.reported.lookup p = none) fun hT hM => ⟨hT, hM⟩
  have hsnap : o'.snapshot = o.snapshot := by
    refine Finmap.ext_lookup fun q => ?_
    exact h.determined.unique ht' (lawful htraced) (hrank _ h.within) (hrank _ hwithin') q
  refine Option.ext fun v => ?_
  rw [h.said p v, h'.said p v, hsnap]

/-- What is derived depends on what was last reported and not on how it came about, as
long as the calculators sustain what they say. -/
theorem current_of_reported (disabled : List String) (es fs : List Delivery)
    (hes : Machine.Meets (Observed.deliver (enabled disabled)) (Sustained (enabled disabled))
      .start es)
    (hfs : Machine.Meets (Observed.deliver (enabled disabled)) (Sustained (enabled disabled))
      .start fs)
    (h : ∀ p, (Machine.run (Observed.deliver (enabled disabled)) .start es).reported.lookup p =
      (Machine.run (Observed.deliver (enabled disabled)) .start fs).reported.lookup p) :
    (∀ p, (Machine.run (Observed.deliver (enabled disabled)) .start es).current p =
      (Machine.run (Observed.deliver (enabled disabled)) .start fs).current p) ∧
    ∀ gs, gs <+: es → NothingStale (enabled disabled)
      (Machine.run (Observed.deliver (enabled disabled)) .start gs) := by
  have hsub : (enabled disabled).Sublist statelessCalculators := List.filter_sublist
  have hrun : ∀ gs, Machine.Meets (Observed.deliver (enabled disabled))
      (Sustained (enabled disabled)) .start gs → Current (enabled disabled)
        (Machine.run (Observed.deliver (enabled disabled)) .start gs) := fun gs hgs =>
    Machine.run_inv (fun o e ho hs => current_deliver hsub ho hs) (current_start hsub.subset) hgs
  constructor
  · intro p
    rw [Observed.current, Observed.current, (hrun es hes).emitted_eq hsub (hrun fs hfs) h p]
  · rintro gs ⟨hs, rfl⟩ p v hv
    exact ((hrun gs (Machine.meets_append.mp hes).1).said p v).mp hv

end

section
attribute [local instance] ExactMath.plain Ephemeris.unused

def headingMagnetic (j : Json) : PathValue := ⟨"navigation.headingMagnetic", j⟩

def variation (x : ℚ) : PathValue := ⟨"navigation.magneticVariation", .ofF64 x⟩

theorem path_of_headingTrue {s : Values} {p : String} {v : Json}
    (h : dataflow.computes headingTrue s p v) : p = "navigation.headingTrue" := by
  obtain ⟨iter, results, hr, hpv⟩ := h
  have hpath := ((headingTrue_fixed iter).writing s results hr).subset (List.mem_map_of_mem hpv)
  exact List.mem_singleton.mp hpath

/-- What the true heading is computed from is as it was reported. -/
theorem headingTrue_within {base s : Values} (h : dataflow.Within [headingTrue] base s)
    {q : String} (hq : q ∈ headingTrue.inputs) (hheld : base.lookup q ≠ none) :
    s.lookup q = base.lookup q := by
  obtain ⟨v, hv⟩ := Option.ne_none_iff_exists'.mp (h.kept q hheld)
  have hne : q ≠ "navigation.headingTrue" := by
    rintro rfl
    simp [headingTrue] at hq
  cases h.obtained q v hv with
  | held hbase => exact Eq.trans hv hbase.symm
  | computed hc _ _ hcomp =>
    obtain rfl := List.mem_singleton.mp hc
    exact absurd (path_of_headingTrue hcomp) hne

def heading : Values :=
  insertValues ∅ [headingMagnetic (.ofF64 1), variation (1 / 10)]

theorem headingTrue_calculate {s : Values} (h : dataflow.Within [headingTrue] heading s)
    (iter : Iteration) :
    headingTrue.calculate iter s = some [⟨"navigation.headingTrue", .ofF64 (11 / 10)⟩] := by
  have hheld : ∀ q ∈ headingTrue.inputs, heading.lookup q ≠ none := by
    decide +kernel
  have hcalc : headingTrue.calculate .some heading =
      some [⟨"navigation.headingTrue", .ofF64 (11 / 10)⟩] := by
    decide +kernel
  rw [(headingTrue_fixed iter).reading s heading fun q hq => headingTrue_within h hq (hheld q hq)]
  exact hcalc

theorem computes_headingTrue {s : Values} (h : dataflow.Within [headingTrue] heading s)
    {p : String} {v : Json} : dataflow.computes headingTrue s p v ↔
      p = "navigation.headingTrue" ∧ v = .ofF64 (11 / 10) := by
  constructor
  · rintro ⟨iter, results, hr, hpv⟩
    rw [headingTrue_calculate h iter] at hr
    cases hr
    cases List.mem_singleton.mp hpv
    exact ⟨rfl, rfl⟩
  · rintro ⟨rfl, rfl⟩
    exact ⟨.some, _, headingTrue_calculate h .some, .head _⟩

/-- The magnetic heading and the variation are reported at once, in whatever order. -/
theorem sustained_heading {e : Delivery} (he : told .start e = heading) :
    Sustained [headingTrue] .start e := by
  have hrec : received .start e = heading := he
  have huntold : heading.lookup "navigation.headingTrue" = none := by
    decide +kernel
  have hself := System.Within.refl (S := dataflow) [headingTrue] heading
  obtain ⟨t, ht⟩ : ∃ t : Values, ∀ p, dataflow.get t p =
      if p = "navigation.headingTrue" then some (.ofF64 (11 / 10)) else dataflow.get heading p :=
    ⟨heading.insert "navigation.headingTrue" (.ofF64 (11 / 10)),
      fun p => HashMap.lookup_insert heading _ p _⟩
  have hafter : dataflow.Within [headingTrue] heading t := by
    refine ⟨fun p v hv => ?_, fun p hp => ?_⟩
    · rw [ht] at hv
      split_ifs at hv with hpath
      · exact hself.computed (.head _)
          ((computes_headingTrue hself).mpr ⟨hpath, (Option.some.inj hv).symm⟩)
      · exact .held hv
    · rw [ht]
      split_ifs
      · exact Option.some_ne_none _
      · exact hp
  rw [Sustained, Undisputed, Supported, he, hrec]
  refine ⟨?_, t, hafter, ⟨?_, ?_, ?_⟩, ?_⟩
  · intro c hc s hs p v w hcomp htold
    obtain rfl := List.mem_singleton.mp hc
    obtain ⟨rfl, -⟩ := (computes_headingTrue hs).mp hcomp
    exact nomatch huntold.symm.trans htold
  · intro p v hv
    rw [ht, if_neg]
    · exact hv
    · rintro rfl
      exact nomatch huntold.symm.trans hv
  · intro c hc p v hcomp
    obtain rfl := List.mem_singleton.mp hc
    obtain ⟨rfl, rfl⟩ := (computes_headingTrue hafter).mp hcomp
    rw [ht, if_pos rfl]
  · intro p v hv hnone
    rw [ht] at hv
    split_ifs at hv with hpath
    · exact ⟨headingTrue, .head _,
        (computes_headingTrue hafter).mpr ⟨hpath, (Option.some.inj hv).symm⟩⟩
    · exact nomatch hnone.symm.trans hv
  · rintro p (hp | ⟨c, hc, s, v, hs, hcomp⟩)
    · exact absurd rfl hp
    · obtain rfl := List.mem_singleton.mp hc
      obtain ⟨rfl, -⟩ := (computes_headingTrue hs).mp hcomp
      exact ⟨headingTrue, .head _, _, (computes_headingTrue hafter).mpr ⟨rfl, rfl⟩⟩

/-- The same two values in one order and in the other. -/
theorem current_of_reported_heading :
    let run := Machine.run (Observed.deliver (enabled (allBut [headingTrue]))) .start
    (∀ p, (run [sensorDelivery [headingMagnetic (.ofF64 1), variation (1 / 10)]]).current p =
      (run [sensorDelivery [variation (1 / 10), headingMagnetic (.ofF64 1)]]).current p) ∧
    ∀ gs, gs <+: [sensorDelivery [headingMagnetic (.ofF64 1), variation (1 / 10)]] →
      NothingStale (enabled (allBut [headingTrue])) (run gs) := by
  have hsub : [headingTrue].Sublist statelessCalculators := by simp [statelessCalculators]
  refine current_of_reported _ _ _ ?_ ?_ ?_
  · rw [enabled_allBut hsub]
    exact And.intro (sustained_heading (by decide +kernel)) trivial
  · rw [enabled_allBut hsub]
    exact And.intro (sustained_heading (by decide +kernel)) trivial
  · have hmaps : told .start (sensorDelivery [headingMagnetic (.ofF64 1), variation (1 / 10)]) =
        told .start (sensorDelivery [variation (1 / 10), headingMagnetic (.ofF64 1)]) := by
      decide +kernel
    exact fun p => congrArg (Finmap.lookup p) hmaps

/-- The true heading stays behind when the magnetic one is lost. -/
theorem heading_stays_behind :
    let run := Machine.run (Observed.deliver (enabled (allBut [headingTrue]))) .start
    let es := [sensorDelivery [headingMagnetic (.ofF64 1), variation (1 / 10)],
      sensorDelivery [headingMagnetic .null]]
    let fs := [sensorDelivery [headingMagnetic .null, variation (1 / 10)]]
    (∀ p, (run es).reported.lookup p = (run fs).reported.lookup p) ∧
      ¬∀ p, (run es).current p = (run fs).current p := by
  rw [enabled_allBut (by simp [statelessCalculators])]
  intro run es fs
  have hreported : (run es).reported = (run fs).reported := by
    decide +kernel
  have hleft : (run es).emitted.lookup "navigation.headingTrue" = some (.ofF64 (11 / 10)) := by
    simp only [run, es, Machine.run, Machine.exec]
    rw [emitted_deliver (by decide +kernel), emitted_deliver (by decide +kernel)]
    decide +kernel
  have hright : (run fs).emitted.lookup "navigation.headingTrue" = none := by
    simp only [run, fs, Machine.run, Machine.exec]
    rw [emitted_deliver (by decide +kernel)]
    decide +kernel
  refine ⟨fun p => congrArg (Finmap.lookup p) hreported, fun h => ?_⟩
  have hp := h "navigation.headingTrue"
  rw [Observed.current, Observed.current, hleft, hright] at hp
  revert hp
  decide +kernel

end

end SignalK.DerivedData

import SignalK.DerivedData.Rounds
import SignalK.Lib.Control
import SignalK.Lib.Machine

/-! Derived values are what their calculators compute, and no measurement is overwritten:
when that holds, and how the two courses over ground overwrite each other otherwise. -/
namespace SignalK.DerivedData
open Dataflow

/-- Equal, or two numbers that differ by whole turns. -/
def UpToTurns [ExactMath] (a b : Json) : Prop :=
  a = b ∨ ∃ x y, a.asF64 = some x ∧ b.asF64 = some y ∧ Circle.Same ExactMath.pi x y

/-- What is expected of the plugin after a callback, for a notion of equal values. -/
structure Faithful (same : Json → Json → Prop) (calcs : List Calculator) (o : Observed) :
    Prop where
  computed : ∀ c ∈ calcs, ∀ iter results, c.calculate iter o.snapshot = some results →
    ∀ pv ∈ results, o.foreign.lookup pv.path ≠ some true →
      ∃ v, o.snapshot.lookup pv.path = some v ∧ same v pv.value
  reported : ∀ p v, o.reported.lookup p = some v →
    ∃ v', o.snapshot.lookup p = some v' ∧ same v' v

/-- The snapshot that the rounds of a delta start on. -/
def received (o : Observed) (e : Delivery) : Values := insertValues o.snapshot (reports e.delta)

/-- What other sources have reported with the delta. -/
def told (o : Observed) (e : Delivery) : HashMap String Json :=
  insertValues o.reported (reports e.delta)

/-- Whatever a calculator can compute out of the values at hand for a path that another
source has reported is what was reported. -/
def Undisputed (calcs : List Calculator) (o : Observed) (e : Delivery) : Prop :=
  ∀ c ∈ calcs, ∀ s, dataflow.Within calcs (received o e) s →
    ∀ p v w, dataflow.computes c s p v → (told o e).lookup p = some w → v = w

def cogTrue : String := "navigation.courseOverGroundTrue"

/-- Neither course over ground is held unless one of them was reported. -/
def CogMeasured (reported snapshot : Values) : Prop :=
  reported.lookup cogTrue = none → reported.lookup cogMagnetic = none →
    snapshot.lookup cogTrue = none ∧ snapshot.lookup cogMagnetic = none

structure Consistent (calcs : List Calculator) (o : Observed) : Prop where
  settled : ∀ c ∈ calcs, voiced.Settled c (o.snapshot, o.emitted)
  reported : ∀ p v, o.reported.lookup p = some v → o.snapshot.lookup p = some v
  measured : CogMeasured o.reported o.snapshot

theorem rank_lt {m : Nat} (hm : m ≤ 2) (p : String) : rank m p < 4 := by
  have hplaces : ∀ e ∈ places, e.2.2 ≤ 3 := by
    have h : (places.all fun e => e.2.2 ≤ 3) = true := rfl
    exact fun e he => of_decide_eq_true (List.all_eq_true.mp h e he)
  rw [rank]
  split_ifs with hp
  · omega
  · cases hplace : place p with
    | none => exact Nat.succ_pos 3
    | some e =>
      rw [place] at hplace
      cases hl : places.lookup p with
      | some d =>
        rw [hl] at hplace
        obtain rfl : d = e := Option.some.inj hplace
        obtain ⟨l, r, hlist, -⟩ := List.lookup_eq_some_iff.mp hl
        have hle := hplaces (p, d) (hlist ▸ List.mem_append_right l (.head r))
        exact Nat.lt_succ_of_le hle
      | none =>
        simp only [hl] at hplace
        split_ifs at hplace
        obtain ⟨d, -, rfl⟩ := Option.map_eq_some_iff.mp hplace
        exact Nat.one_lt_succ_succ 2

/-! The two courses over ground are derived from each other. -/

theorem writer_cogTrue : writer cogTrue = some "courseOverGroundTrue" := by
  have h : (cogTrue, some "courseOverGroundTrue", 1) ∈ places := by
    repeat (first | exact .head _ | apply List.Mem.tail)
  rw [writer, place_of_mem h, Option.bind_some]

theorem writer_cogMagnetic : writer cogMagnetic = some "courseOverGroundMagnetic" := by
  have h : (cogMagnetic, some "courseOverGroundMagnetic", 0) ∈ places := by
    repeat (first | exact .head _ | apply List.Mem.tail)
  rw [writer, place_of_mem h, Option.bind_some]

theorem held_of_number {m : Values} {p : String} {x : F64} (h : number m p = some x) :
    ∃ j, m.lookup p = some j := by
  obtain ⟨j, hj, -⟩ := Option.bind_eq_some_iff.mp h
  exact ⟨j, hj⟩

section
variable [ExactMath] [Ephemeris] {calcs : List Calculator}

theorem eq_of_writes {c c' : Calculator} {p : String} (hc : c ∈ statelessCalculators)
    (hc' : c' ∈ statelessCalculators) (hp : p ≠ belowKeel) (hw : writer p = some c'.name)
    (h : Writes c p) : c = c' := by
  rcases h with h | h
  · exact eq_of_name hc hc' (Option.some.inj (h.symm.trans hw))
  · exact absurd h.1 hp

/-- The true one is computed from the magnetic one only. -/
theorem held_of_cogTrue {c : Calculator} (hc : c ∈ statelessCalculators) {s : Values} {v : Json}
    (h : dataflow.computes c s cogTrue v) : ∃ j, s.lookup cogMagnetic = some j := by
  have hmem : courseOverGroundTrue ∈ statelessCalculators := by simp [statelessCalculators]
  obtain rfl := eq_of_writes hc hmem (by simp [cogTrue, belowKeel]) writer_cogTrue
    (traced_writes (traced c hc) h)
  obtain ⟨iter, hg⟩ := h
  obtain ⟨x, hx, -⟩ := Sound.gives_bind.mp hg
  exact held_of_number hx

theorem held_of_cogMagnetic {c : Calculator} (hc : c ∈ statelessCalculators) {s : Values}
    {v : Json} (h : dataflow.computes c s cogMagnetic v) : ∃ j, s.lookup cogTrue = some j := by
  have hmem : courseOverGroundMagnetic ∈ statelessCalculators := by simp [statelessCalculators]
  obtain rfl := eq_of_writes hc hmem (by simp [cogMagnetic, belowKeel]) writer_cogMagnetic
    (traced_writes (traced c hc) h)
  obtain ⟨iter, hg⟩ := h
  obtain ⟨x, hx, -⟩ := Sound.gives_bind.mp hg
  exact held_of_number hx

/-- Out of values without a course over ground none is ever computed. -/
theorem cog_silent (hsub : calcs ⊆ statelessCalculators) {base : Values}
    (ht : base.lookup cogTrue = none) (hm : base.lookup cogMagnetic = none) {p : String} {v : Json}
    (h : dataflow.Obtainable calcs base p v) : p ≠ cogTrue ∧ p ≠ cogMagnetic := by
  induction h with
  | @held p v h =>
    constructor
    · rintro rfl
      exact nomatch ht.symm.trans h
    · rintro rfl
      exact nomatch hm.symm.trans h
  | @computed c s p v hc _ _ hcomp ih =>
    constructor
    · rintro rfl
      obtain ⟨j, hj⟩ := held_of_cogTrue (hsub hc) hcomp
      exact (ih _ j hj).2 rfl
    · rintro rfl
      obtain ⟨j, hj⟩ := held_of_cogMagnetic (hsub hc) hcomp
      exact (ih _ j hj).1 rfl

theorem cogMeasured_within (hsub : calcs ⊆ statelessCalculators) {base s : Values}
    (ht : base.lookup cogTrue = none) (hm : base.lookup cogMagnetic = none)
    (h : dataflow.Within calcs base s) :
    s.lookup cogTrue = none ∧ s.lookup cogMagnetic = none := by
  constructor
  · refine Option.eq_none_iff_forall_ne_some.mpr fun v hv => ?_
    exact (cog_silent hsub ht hm (h.obtained _ v hv)).1 rfl
  · refine Option.eq_none_iff_forall_ne_some.mpr fun v hv => ?_
    exact (cog_silent hsub ht hm (h.obtained _ v hv)).2 rfl

/-! Ranks -/

/-- The ranks fit wherever at most one course over ground is free to change, or none held. -/
theorem exists_rank (hsub : calcs ⊆ statelessCalculators) (base : Values) (free : String → Prop)
    (hfree : free cogTrue → free cogMagnetic →
      base.lookup cogTrue = none ∧ base.lookup cogMagnetic = none) :
    ∃ m, m ≤ 2 ∧ ∀ t, dataflow.Within calcs base t → dataflow.Ranked calcs free (rank m) t := by
  have htraced : ∀ c ∈ calcs, Traced c := fun c hc => traced c (hsub hc)
  by_cases hm : free cogMagnetic
  · refine ⟨2, le_rfl, fun t ht => ranked htraced ?_ fun _ _ _ _ _ => le_rfl⟩
    intro c hc p v hp hcomp hread
    exfalso
    have hname := (htraced c hc).magnetic hread
    have hmem : courseOverGroundTrue ∈ statelessCalculators := by simp [statelessCalculators]
    obtain rfl := eq_of_name (hsub hc) hmem hname
    obtain ⟨iter, hg⟩ := hcomp
    have hpath : p = cogTrue := by
      obtain ⟨x, -, hg⟩ := Sound.gives_bind.mp hg
      obtain ⟨y, -, results, hr, hpv⟩ := Sound.gives_bind.mp hg
      cases hr
      exact congrArg PathValue.path (List.mem_singleton.mp hpv)
    subst hpath
    obtain ⟨j, hj⟩ := held_of_cogTrue hmem ⟨iter, hg⟩
    obtain ⟨hT, hM⟩ := hfree hp hm
    rw [(cogMeasured_within hsub hT hM ht).2] at hj
    cases hj
  · refine ⟨0, Nat.zero_le 2, fun t _ => ranked htraced (fun _ _ _ _ _ _ _ => rfl) ?_⟩
    exact fun h => absurd h hm

def voicedRank (m : Nat) : String ⊕ String → Nat := Sum.elim (rank m) fun _ => 4

omit [ExactMath] [Ephemeris] in
/-- What is said ranks above all that is held. -/
theorem voiced_ranked {free : String → Prop} {m : Nat} (hm : m ≤ 2) {t : Values × Values}
    (h : dataflow.Ranked calcs free (rank m) t.1) :
    voiced.Ranked calcs (Sum.elim free fun _ => True) (voicedRank m) t := by
  intro c hc k v q hk hcomp hq
  cases q with
  | inr q => exact absurd hq id
  | inl q =>
    cases k with
    | inl p => exact h c hc p v q hk hcomp hq
    | inr p => exact rank_lt hm q

end

section
variable {calcs : List Calculator} {o : Observed} {e : Delivery}

theorem insertValues_le {m m' : Values} (h : ∀ p v, m.lookup p = some v → m'.lookup p = some v)
    (values : List PathValue) (p : String) (v : Json)
    (hv : (insertValues m values).lookup p = some v) :
    (insertValues m' values).lookup p = some v := by
  induction values generalizing m m' with
  | nil => exact h p v hv
  | cons pv values ih =>
    refine ih ?_ hv
    intro q w hw
    rw [HashMap.lookup_insert] at hw ⊢
    split_ifs at hw ⊢ with hq
    · exact hw
    · exact h q w hw

theorem received_lookup (h : Consistent calcs o) {p : String} {v : Json}
    (hp : (told o e).lookup p = some v) : (received o e).lookup p = some v :=
  insertValues_le h.reported _ p v hp

/-- A path that nobody has reported holds what it held. -/
theorem received_of_untold {p : String} (h : (told o e).lookup p = none) :
    (received o e).lookup p = o.snapshot.lookup p ∧ o.reported.lookup p = none := by
  rcases lookup_insertValues (reports e.delta) o.reported p with ⟨hno, hm⟩ | ⟨pv, -, -, hv⟩
  · refine ⟨?_, hm.symm.trans h⟩
    rcases lookup_insertValues (reports e.delta) o.snapshot p with ⟨-, hs⟩ | ⟨pv, hpv, hpath, -⟩
    · exact hs
    · exact absurd hpath (hno pv hpv)
  · rw [told, hv] at h
    cases h

/-- The value of a reported path does not change in the rounds. -/
theorem told_of_obtainable (h : Consistent calcs o) (hu : Undisputed calcs o e) {p : String}
    {v w : Json} (hv : dataflow.Obtainable calcs (received o e) p v)
    (hw : (told o e).lookup p = some w) : v = w := by
  cases hv with
  | held hv => exact Option.some.inj (hv.symm.trans (received_lookup h hw))
  | computed hc hobt hkept hcomp => exact hu _ hc _ ⟨hobt, hkept⟩ p v w hcomp hw

theorem pending_received (htraced : ∀ c ∈ calcs, Traced c) (h : Consistent calcs o)
    (hu : Undisputed calcs o e) :
    voiced.Pending calcs (Sum.elim (· ∈ (reports e.delta).map (·.path)) fun _ => False)
      (received o e, o.emitted) := by
  intro c hc hread k v hcomp
  have hold : dataflow.computes c o.snapshot (Sum.elim id id k) v := by
    refine (lawful htraced).reading c hc (received o e) o.snapshot _ v (fun q hq => ?_) hcomp
    by_contra hne
    exact hread (.inl q) hq (mem_of_changed _ o.snapshot hne)
  cases k with
  | inr p => exact h.settled c hc (.inr p) v hold
  | inl p =>
    change (received o e).lookup p = some v
    cases htold : (told o e).lookup p with
    | none =>
      rw [(received_of_untold htold).1]
      exact h.settled c hc (.inl p) v hold
    | some w =>
      rw [hu c hc _ (System.Within.refl calcs _) p v w hcomp htold]
      exact received_lookup h htold

end

/-! One delivery -/

section
variable [ExactMath] [Ephemeris] {calcs : List Calculator} {o : Observed} {e : Delivery}

omit [ExactMath] [Ephemeris] in
theorem deliver_of_silent (h : reports e.delta = []) :
    (o.deliver calcs e).1 = o := by
  simp [Observed.deliver, callback, h, insertValues, Observed.mark]

omit [ExactMath] [Ephemeris] in
theorem emitted_deliver (h : reports e.delta ≠ []) :
    (o.deliver calcs e).1.emitted = insertValues o.emitted
      (fixpoint calcs ((List.range maxIterations).map e.rounds) (received o e)
        ((reports e.delta).map (·.path))).2 := by
  rw [Observed.deliver, callback, if_neg h]
  exact insertValues_emit _ _ _

omit [ExactMath] [Ephemeris] in
theorem loop_of_deliver (htraced : ∀ c ∈ calcs, Traced c) (h : reports e.delta ≠ []) :
    System.Loop voiced calcs Triggers maxIterations (Written ((reports e.delta).map (·.path)))
      (received o e, o.emitted)
      ((o.deliver calcs e).1.snapshot, (o.deliver calcs e).1.emitted) := by
  have hloop := loop_of_fixpoint htraced ((List.range maxIterations).map e.rounds) (received o e)
    o.emitted ((reports e.delta).map (·.path))
  rw [List.length_map, List.length_range] at hloop
  rw [emitted_deliver h, Observed.deliver, callback, if_neg h]
  exact hloop

/-- After the rounds all calculators are settled. -/
theorem settled_of_deliver (hsub : calcs.Sublist statelessCalculators) (h : Consistent calcs o)
    (hu : Undisputed calcs o e) (hne : reports e.delta ≠ []) :
    ∀ c ∈ calcs, voiced.Settled c
      ((o.deliver calcs e).1.snapshot, (o.deliver calcs e).1.emitted) := by
  have htraced : ∀ c ∈ calcs, Traced c := fun c hc => traced c (hsub.subset hc)
  have hloop := loop_of_deliver (o := o) (e := e) htraced hne
  obtain ⟨m, hm, hrank⟩ := exists_rank hsub.subset (received o e)
    (fun p => (told o e).lookup p = none) fun hT hM => by
      obtain ⟨hT, hT'⟩ := received_of_untold hT
      obtain ⟨hM, hM'⟩ := received_of_untold hM
      obtain ⟨hsT, hsM⟩ := h.measured hT' hM'
      exact ⟨hT.trans hsT, hM.trans hsM⟩
  refine hloop.settled (lawful htraced).echo ((compatible hsub).imp System.Compatible.echo)
    ?_ (Sum.elim (fun p => (told o e).lookup p = none) fun _ => True) (voicedRank m) ?_ ?_ ?_ (pending_received htraced h hu) (k := 0) ?_ ?_
  · intro c _ k hk
    cases k with
    | inr p => exact absurd hk id
    | inl p => exact hk.matches
  · intro t ht c hc k v hk hcomp
    cases k with
    | inr p => exact absurd trivial hk
    | inl p =>
      have hwithin : dataflow.Within calcs (received o e) t.1 := ht.of_echo
      obtain ⟨w, hw⟩ := Option.ne_none_iff_exists'.mp hk
      obtain rfl : v = w := hu c hc t.1 hwithin p v w hcomp hw
      have hkept : t.1.lookup p ≠ none := by
        apply hwithin.kept
        intro hnone
        exact nomatch hnone.symm.trans (received_lookup h hw)
      obtain ⟨x, hx⟩ := Option.ne_none_iff_exists'.mp hkept
      rw [← told_of_obtainable h hu (hwithin.obtained p x hx) hw]
      exact hx
  · intro t ht
    exact voiced_ranked hm (hrank t.1 ht.of_echo)
  · rintro (p | p) hp
    · exact hp
    · exact absurd hp id
  · exact fun _ _ => Nat.zero_le _
  · rintro (p | p)
    · exact Nat.lt_succ_of_lt (rank_lt hm p)
    · exact Nat.lt_succ_self 4

/-- A delivery that disputes nothing keeps the plugin consistent. -/
theorem consistent_deliver (hsub : calcs.Sublist statelessCalculators) (h : Consistent calcs o)
    (hu : Undisputed calcs o e) : Consistent calcs (o.deliver calcs e).1 := by
  by_cases hne : reports e.delta = []
  · rw [deliver_of_silent hne]
    exact h
  · have htraced : ∀ c ∈ calcs, Traced c := fun c hc => traced c (hsub.subset hc)
    have hwithin : dataflow.Within calcs (received o e) (o.deliver calcs e).1.snapshot :=
      (loop_of_deliver (o := o) (e := e) htraced hne).within.of_echo
    refine ⟨settled_of_deliver hsub h hu hne, ?_, ?_⟩
    · intro p v hv
      have hkept : (o.deliver calcs e).1.snapshot.lookup p ≠ none := by
        apply hwithin.kept
        intro hnone
        exact nomatch hnone.symm.trans (received_lookup h hv)
      obtain ⟨x, hx⟩ := Option.ne_none_iff_exists'.mp hkept
      rw [hx, told_of_obtainable h hu (hwithin.obtained p x hx) hv]
    · intro hT hM
      obtain ⟨hT, hT'⟩ := received_of_untold (e := e) hT
      obtain ⟨hM, hM'⟩ := received_of_untold (e := e) hM
      obtain ⟨hsT, hsM⟩ := h.measured hT' hM'
      exact cogMeasured_within hsub.subset (hT.trans hsT) (hM.trans hsM) hwithin

theorem consistent_start (hsub : calcs ⊆ statelessCalculators) :
    Consistent calcs .start where
  settled c hc k v := by
    rintro ⟨iter, hg⟩
    exact absurd hg (silent_empty c (hsub hc) iter _)
  reported p v h := nomatch h
  measured _ _ := ⟨rfl, rfl⟩

omit [ExactMath] [Ephemeris] in
theorem Consistent.faithful (h : Consistent calcs o) : Faithful (· = ·) calcs o where
  computed c hc iter results hr pv hpv _ :=
    ⟨pv.value, h.settled c hc (.inl pv.path) pv.value ⟨iter, results, hr, hpv⟩, rfl⟩
  reported p v hv := ⟨v, h.reported p v hv, rfl⟩

/-- Derived values agree with each other and with what is measured as long as nothing that
is measured is derived otherwise. -/
theorem faithful_of_undisputed (disabled : List String) (es : List Delivery)
    (h : Machine.Meets (Observed.deliver (enabled disabled)) (Undisputed (enabled disabled))
      .start es) (fs : List Delivery) (hfs : fs <+: es) :
    Faithful (· = ·) (enabled disabled)
      (Machine.run (Observed.deliver (enabled disabled)) .start fs) := by
  have hsub : (enabled disabled).Sublist statelessCalculators := List.filter_sublist
  obtain ⟨gs, rfl⟩ := hfs
  refine Consistent.faithful ?_
  exact Machine.run_inv (fun o e ho hu => consistent_deliver hsub ho hu)
    (consistent_start hsub.subset) (Machine.meets_append.mp h).1

end

/-! Configurations that leave few calculators enabled -/

theorem filter_of_sublist {α β : Type*} [DecidableEq β] (f : α → β) {l r : List α}
    (h : l.Sublist r) (hn : (r.map f).Nodup) : r.filter (fun a => f a ∈ l.map f) = l := by
  induction h with
  | slnil => rfl
  | @cons l r a hs ih =>
    rw [List.map_cons, List.nodup_cons] at hn
    have ha : f a ∉ l.map f := fun hm => hn.1 ((hs.map f).subset hm)
    rw [List.filter_cons_of_neg (by simpa using ha), ih hn.2]
  | @cons_cons l r a hs ih =>
    rw [List.map_cons, List.nodup_cons] at hn
    rw [List.filter_cons_of_pos (by simp)]
    apply congrArg
    refine Eq.trans (List.filter_congr fun b hb => ?_) (ih hn.2)
    have hne : f b ≠ f a := fun he => hn.1 (he ▸ List.mem_map_of_mem hb)
    simp [hne]

section
variable [ExactMath] [Ephemeris]

def allBut (calcs : List Calculator) : List String :=
  (statelessCalculators.map (·.name)).filter (· ∉ calcs.map (·.name))

theorem enabled_allBut {calcs : List Calculator} (h : calcs.Sublist statelessCalculators) :
    enabled (allBut calcs) = calcs := by
  refine Eq.trans (List.filter_congr fun c hc => ?_)
    (filter_of_sublist (·.name) h names_nodup)
  have hname : c.name ∈ statelessCalculators.map (·.name) := List.mem_map.mpr ⟨c, hc, rfl⟩
  simp [allBut, hname]

end

section
attribute [local instance] ExactMath.plain Ephemeris.unused

noncomputable def sensorDelivery (values : List PathValue) : Delivery where
  delta := Delta.selfVessel
    [{ source := Source.plugin "sensor", timestamp := 1704067200, values := values }]
  now := 1704067200
  rounds _ := .some
  emission := .some

/-- The heading and the variation are measured, and nothing else is asked for. -/
theorem faithful_of_undisputed_heading :
    Faithful (· = ·) (enabled (allBut [headingTrue]))
      (Machine.run (Observed.deliver (enabled (allBut [headingTrue]))) .start
        [sensorDelivery [⟨"navigation.headingMagnetic", .ofF64 1⟩,
          ⟨"navigation.magneticVariation", .ofF64 (1 / 10)⟩]]) := by
  refine faithful_of_undisputed _ _ ?_ _ (List.prefix_refl _)
  refine And.intro ?_ trivial
  intro c hc s _ p v w hcomp htold
  rw [enabled_allBut (by simp [statelessCalculators])] at hc
  obtain rfl := List.mem_singleton.mp hc
  obtain ⟨iter, results, hr, hpv⟩ := hcomp
  have hpath := ((headingTrue_fixed iter).writing s results hr).subset (List.mem_map_of_mem hpv)
  obtain rfl : p = "navigation.headingTrue" := List.mem_singleton.mp hpath
  have huntold : (told Observed.start (sensorDelivery
      [⟨"navigation.headingMagnetic", .ofF64 1⟩,
        ⟨"navigation.magneticVariation", .ofF64 (1 / 10)⟩])).lookup "navigation.headingTrue" =
      none := by
    decide +kernel
  cases huntold.symm.trans htold

/-- The variation changes after both courses over ground are known. -/
noncomputable def turned : Observed :=
  Machine.run (Observed.deliver (enabled (allBut [courseOverGroundMagnetic, courseOverGroundTrue])))
    .start
    [sensorDelivery [⟨cogTrue, .ofF64 1⟩, ⟨"navigation.magneticVariation", .ofF64 (1 / 10)⟩],
      sensorDelivery [⟨"navigation.magneticVariation", .ofF64 (1 / 5)⟩]]

/-- The true course that was measured is replaced by one from the old magnetic course. -/
theorem not_faithful_turned :
    ¬Faithful UpToTurns (enabled (allBut [courseOverGroundMagnetic, courseOverGroundTrue]))
      turned := by
  intro h
  have hrun : turned.snapshot.lookup cogTrue = some (.ofF64 (11 / 10)) ∧
      turned.reported.lookup cogTrue = some (.ofF64 1) := by
    rw [turned, enabled_allBut (by simp [statelessCalculators])]
    decide +kernel
  obtain ⟨v, hv, hsame⟩ := h.reported cogTrue _ hrun.2
  obtain rfl := Option.some.inj (hv.symm.trans hrun.1)
  rcases hsame with heq | ⟨x, y, hx, hy, k, hk⟩
  · revert heq
    decide +kernel
  · obtain rfl : 11 / 10 = x := Option.some.inj hx
    obtain rfl : 1 = y := Option.some.inj hy
    have hturn : (k : ℚ) * (2 * (884279719003555 / 281474976710656)) = -(1 / 10) := by
      have hpi : (1 : ℚ) = 11 / 10 + k * (2 * (884279719003555 / 281474976710656)) := hk
      linarith
    rcases lt_trichotomy k 0 with hneg | rfl | hpos
    · have hle : (k : ℚ) ≤ -1 := by exact_mod_cast Int.le_sub_one_of_lt hneg
      linarith
    · norm_num at hturn
    · have hle : (1 : ℚ) ≤ k := by exact_mod_cast hpos
      linarith

end

end SignalK.DerivedData

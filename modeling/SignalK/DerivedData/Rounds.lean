import SignalK.DerivedData.Graph
import SignalK.Lib.Dataflow

/-! The calculators as rules that run in rounds, and the callback's loop as such rounds. -/
namespace SignalK.DerivedData
open Dataflow

def dataflow : System Calculator Values String Json where
  get m p := m.lookup p
  computes c m p v := ∃ iter, Gives c.calculate iter m ⟨p, v⟩
  reads := Calculator.Reads

section
variable {calcs : List Calculator}

theorem lawful (h : ∀ c ∈ calcs, Traced c) : dataflow.Lawful calcs where
  reading c hc s t p v hagree := by
    rintro ⟨iter, hg⟩
    exact ⟨iter, (h c hc).sound.reading iter s t _ hagree hg⟩
  functional c hc s p v w := by
    rintro ⟨iter, hg⟩ ⟨iter', hg'⟩
    have hw := (h c hc).sound.order iter' iter s _ hg'
    exact congrArg PathValue.value ((h c hc).sound.functional iter s _ _ hg hw rfl)

theorem ranked {m : Nat} {s : Values} {free : String → Prop} (h : ∀ c ∈ calcs, Traced c)
    (hread : ∀ c ∈ calcs, ∀ p v, free p → dataflow.computes c s p v → c.Reads cogMagnetic → m = 0)
    (hwrite : free cogMagnetic → ∀ c ∈ calcs, ∀ v, dataflow.computes c s cogMagnetic v → 2 ≤ m) :
    dataflow.Ranked calcs free (rank m) s := by
  rintro c hc p v q hfree ⟨iter, hg⟩ hq
  refine (h c hc).ranked m iter s ⟨p, v⟩ q hg hq ?_ ?_
  · rintro rfl
    exact hread c hc p v hfree ⟨iter, hg⟩ hq
  · intro hp
    obtain rfl : p = cogMagnetic := hp
    exact hwrite hfree c hc v ⟨iter, hg⟩

/-! The two writers of the depth below the keel -/

section
variable [ExactMath] [Ephemeris]

theorem names_order : (statelessCalculators.map (·.name)).Pairwise fun a b =>
    a ≠ b ∧ ¬(a = "transducerToKeel" ∧ b = "depthBelowKeel") := by
  rw [statelessCalculators_names]
  decide +kernel

theorem eq_of_name {c c' : Calculator} (hc : c ∈ statelessCalculators)
    (hc' : c' ∈ statelessCalculators) (h : c.name = c'.name) : c = c' :=
  List.inj_on_of_nodup_map names_nodup hc hc' h

end

theorem writer_belowKeel : writer belowKeel = some "depthBelowKeel" := by
  have h : (belowKeel, some "depthBelowKeel", 2) ∈ places := by
    repeat (first | exact .head _ | apply List.Mem.tail)
  rw [writer, place_of_mem h, Option.bind_some]

theorem gives_depthBelowKeel {iter : Iteration} {s : Values} {p : String} {v : Json}
    (h : Gives depthBelowKeel.calculate iter s ⟨p, v⟩) :
    ∃ below, number s "environment.depth.belowTransducer" = some below ∧
      v = (below - (number s "environment.depth.transducerToKeel").getD 0).toJson := by
  obtain ⟨below, hb, results, hr, hm⟩ := Sound.gives_bind.mp h
  cases hr
  cases List.mem_singleton.mp hm
  exact ⟨below, hb, rfl⟩

theorem gives_transducerToKeel {iter : Iteration} {s : Values} {p : String} {v : Json}
    (h : Gives transducerToKeel.calculate iter s ⟨p, v⟩) :
    ∃ below surface draft : ℚ,
      number s "environment.depth.belowTransducer" = some (.finite below) ∧
      Gives transducerToKeel.calculate iter s
        ⟨"environment.depth.transducerToKeel", Json.ofF64 (draft - surface)⟩ ∧
      (p = belowKeel → v = Json.ofF64 (below - (draft - surface))) := by
  have hfin : ∀ q x, number s q = some x → ∃ a, x = .finite a := by
    intro q x hx
    obtain ⟨j, -, hj⟩ := Option.bind_eq_some_iff.mp hx
    obtain ⟨a, -, rfl⟩ := Option.map_eq_some_iff.mp hj
    exact ⟨a, rfl⟩
  obtain ⟨below, hb, hg⟩ := Sound.gives_bind.mp h
  obtain ⟨surface, hs, hg⟩ := Sound.gives_bind.mp hg
  obtain ⟨draft, hd, results, hr, hm⟩ := Sound.gives_bind.mp hg
  obtain ⟨below, rfl⟩ := hfin _ _ hb
  obtain ⟨surface, rfl⟩ := hfin _ _ hs
  obtain ⟨draft, rfl⟩ := hfin _ _ hd
  cases hr
  have hoffset : F64.finite draft - F64.finite surface = .finite (draft - surface) :=
    F64.finite_sub draft surface
  have hkeel : F64.finite below - (F64.finite draft - F64.finite surface) =
      .finite (below - (draft - surface)) := by
    rw [hoffset, F64.finite_sub]
  refine ⟨below, surface, draft, hb, ?_, ?_⟩
  · refine Sound.gives_bind.mpr ⟨_, hb, Sound.gives_bind.mpr ⟨_, hs, ?_⟩⟩
    refine Sound.gives_bind.mpr ⟨_, hd, _, rfl, ?_⟩
    rw [hoffset]
    exact .head _
  · rintro rfl
    rcases List.mem_cons.mp hm with he | hm
    · simp [belowKeel] at he
    · cases List.mem_singleton.mp hm
      exact congrArg F64.toJson hkeel

/-- A calculator that writes the depth below the keel is one of the two. -/
theorem name_of_writes_belowKeel {c : Calculator} (h : Writes c belowKeel) :
    c.name = "depthBelowKeel" ∨ c.name = "transducerToKeel" := by
  rcases h with h | h
  · rw [writer_belowKeel] at h
    exact .inl (Option.some.inj h).symm
  · exact .inr h.2

theorem not_reads_belowKeel : ¬depthBelowKeel.Reads belowKeel := by
  rintro (h | ⟨-, h, -⟩)
  · simp [depthBelowKeel, belowKeel] at h
  · obtain ⟨e, he, -⟩ := belowKeel_after
    rw [places_not_ofInstance _ he] at h
    cases h

theorem traced_writes {c : Calculator} {s : Values} {p : String} {v : Json} (h : Traced c)
    (hc : dataflow.computes c s p v) : Writes c p := by
  obtain ⟨iter, hg⟩ := hc
  exact h.sound.writing iter s _ hg

/-- Two calculators agree on what they both compute once the later one has been heard. -/
theorem compatible [ExactMath] [Ephemeris] (hsub : calcs.Sublist statelessCalculators) :
    calcs.Pairwise (dataflow.Compatible calcs) := by
  have htraced : ∀ c ∈ calcs, Traced c := fun c hc => traced c (hsub.subset hc)
  have hnames := (List.pairwise_map.mp names_order).sublist hsub
  refine (List.Pairwise.and_mem.mp hnames).imp ?_
  rintro c c' ⟨hc, hc', hne, horder⟩ s p v v' hv hv'
  have hw : Writes c p := traced_writes (htraced c hc) hv
  have hw' : Writes c' p := traced_writes (htraced c' hc') hv'
  -- only the depth below the keel has two writers
  have hkeel : p = belowKeel := by
    rcases hw with hw | hw
    · rcases hw' with hw' | hw'
      · exact absurd (Option.some.inj (hw.symm.trans hw')) hne
      · exact hw'.1
    · exact hw.1
  subst hkeel
  have hname : c.name = "depthBelowKeel" ∧ c'.name = "transducerToKeel" := by
    rcases name_of_writes_belowKeel hw with h | h
    · rcases name_of_writes_belowKeel hw' with h' | h'
      · exact absurd (h.trans h'.symm) hne
      · exact ⟨h, h'⟩
    · rcases name_of_writes_belowKeel hw' with h' | h'
      · exact absurd ⟨h, h'⟩ horder
      · exact absurd (h.trans h'.symm) hne
  have hmem : depthBelowKeel ∈ statelessCalculators ∧ transducerToKeel ∈ statelessCalculators := by
    constructor <;> simp [statelessCalculators]
  obtain rfl := eq_of_name (hsub.subset hc) hmem.1 hname.1
  obtain rfl := eq_of_name (hsub.subset hc') hmem.2 hname.2
  constructor
  · intro q w hq hread c'' hc'' w' hq'
    have hwq : Writes transducerToKeel q := traced_writes (htraced _ hc') hq
    rcases hwq with hwq | hwq
    · rcases traced_writes (htraced c'' hc'') hq' with h | h
      · exact eq_of_name (hsub.subset hc'') hmem.2 (Option.some.inj (h.symm.trans hwq))
      · exact absurd (h.1 ▸ hread) not_reads_belowKeel
    · exact absurd (hwq.1 ▸ hread) not_reads_belowKeel
  · intro hheld
    obtain ⟨iter, hg⟩ := hv
    obtain ⟨iter', hg'⟩ := hv'
    obtain ⟨below, hb, rfl⟩ := gives_depthBelowKeel hg
    obtain ⟨below', surface, draft, hb', hoffset, hv'⟩ := gives_transducerToKeel hg'
    obtain rfl : below = .finite below' := Option.some.inj (hb.symm.trans hb')
    have hlook : s.lookup "environment.depth.transducerToKeel" =
        some (Json.ofF64 (draft - surface)) :=
      hheld _ _ ⟨iter', hoffset⟩ (.inl (.tail _ (.head _)))
    have hnum : number s "environment.depth.transducerToKeel" =
        some (.finite (draft - surface)) := by
      rw [number, hlook]
      rfl
    rw [hv' rfl, hnum, Option.getD_some, F64.finite_sub]
    rfl

/-! One round -/

theorem lookup_insertValues_append (m : Values) (l r : List PathValue) :
    insertValues m (l ++ r) = insertValues (insertValues m l) r := List.foldl_append

/-- A value is the last one of its path among those inserted, or the old one. -/
theorem lookup_insertValues (values : List PathValue) (m : Values) (p : String) :
    ((∀ pv ∈ values, pv.path ≠ p) ∧ (insertValues m values).lookup p = m.lookup p) ∨
      ∃ pv ∈ values, pv.path = p ∧ (insertValues m values).lookup p = some pv.value := by
  induction values using List.reverseRecOn with
  | nil => exact .inl ⟨List.forall_mem_nil _, rfl⟩
  | append_singleton values last ih =>
    have hlast : (insertValues m (values ++ [last])).lookup p =
        if p = last.path then some last.value else (insertValues m values).lookup p := by
      rw [lookup_insertValues_append]
      exact HashMap.lookup_insert _ _ _ _
    by_cases hp : p = last.path
    · refine .inr ⟨last, by simp, hp.symm, ?_⟩
      rw [hlast, if_pos hp]
    · rw [hlast, if_neg hp]
      rcases ih with ⟨hno, hm⟩ | ⟨pv, hpv, hpath, hv⟩
      · refine .inl ⟨fun pv hpv => ?_, hm⟩
        rcases List.mem_append.mp hpv with hpv | hpv
        · exact hno pv hpv
        · rw [List.mem_singleton.mp hpv]
          exact Ne.symm hp
      · exact .inr ⟨pv, List.mem_append_left _ hpv, hpath, hv⟩

/-- A path written to the snapshot, or said aloud, triggers the calculators it is an input
of. -/
def Triggers (c : Calculator) (k : String ⊕ String) : Prop :=
  ∃ input ∈ c.inputs, pathMatchesInput (Sum.elim id id k) input = true

def Written (changed : List String) (k : String ⊕ String) : Prop :=
  Sum.elim id id k ∈ changed

/-- A calculator runs in a round when one of its inputs was written in the one before. -/
abbrev Ran (changed : List String) (c : Calculator) : Prop :=
  ∃ k, Written changed k ∧ Triggers c k

theorem affected_iff {changed : List String} {c : Calculator} :
    affected changed c = true ↔ Ran changed c := by
  simp only [affected, List.any_eq_true]
  constructor
  · rintro ⟨input, hi, p, hp, hm⟩
    exact ⟨.inl p, hp, input, hi, hm⟩
  · rintro ⟨k, hp, input, hi, hm⟩
    exact ⟨input, hi, _, hp, hm⟩

theorem mem_newValues {iter : Iteration} {m : Values} {changed : List String}
    {pv : PathValue} : pv ∈ newValues calcs iter m changed ↔
      ∃ c ∈ calcs, affected changed c = true ∧ Gives c.calculate iter m pv := by
  simp only [newValues, List.mem_flatMap, Gives]
  apply exists_congr
  intro c
  apply and_congr_right
  intro _
  cases haff : affected changed c with
  | false => simp
  | true =>
    cases hcalc : c.calculate iter m with
    | none => simp
    | some results => simp

/-- What a round computes on one snapshot, written to any. -/
theorem insertValues_newValues (iter : Iteration) (m held : Values) (changed : List String)
    (p : String) :
    (insertValues held (newValues calcs iter m changed)).lookup p = held.lookup p ∨
      ∃ c ∈ calcs, Ran changed c ∧ ∃ v, dataflow.computes c m p v ∧
        (insertValues held (newValues calcs iter m changed)).lookup p = some v := by
  rcases lookup_insertValues (newValues calcs iter m changed) held p with
    ⟨-, hm⟩ | ⟨pv, hpv, rfl, hv⟩
  · exact .inl hm
  · obtain ⟨c, hc, haff, hg⟩ := mem_newValues.mp hpv
    exact .inr ⟨c, hc, affected_iff.mp haff, pv.value, ⟨iter, hg⟩, hv⟩

theorem last_of_newValues (h : ∀ c ∈ calcs, Traced c) (iter : Iteration) (m held : Values)
    {changed : List String} {c : Calculator} (hc : c ∈ calcs) (hran : Ran changed c) {p : String}
    {v : Json} (hcomp : dataflow.computes c m p v) :
    ∃ c' ∈ calcs, (c' = c ∨ [c, c'].Sublist calcs) ∧ Ran changed c' ∧
      ∃ w, dataflow.computes c' m p w ∧
        (insertValues held (newValues calcs iter m changed)).lookup p = some w := by
  obtain ⟨iter', hg'⟩ := hcomp
  have hg : Gives c.calculate iter m ⟨p, v⟩ := (h c hc).sound.order iter' iter m _ hg'
  obtain ⟨pre, post, hl⟩ := List.append_of_mem hc
  -- the calculators before it are inserted first
  have hsplit : newValues calcs iter m changed =
      newValues pre iter m changed ++ newValues (c :: post) iter m changed := by
    simp only [newValues, hl, List.flatMap_append]
  have hmem : (⟨p, v⟩ : PathValue) ∈ newValues (c :: post) iter m changed :=
    mem_newValues.mpr ⟨c, .head _, affected_iff.mpr hran, hg⟩
  rw [hsplit, lookup_insertValues_append]
  rcases lookup_insertValues (newValues (c :: post) iter m changed)
      (insertValues held (newValues pre iter m changed)) p with ⟨hno, -⟩ | ⟨pv, hpv, rfl, hv⟩
  · exact absurd rfl (hno _ hmem)
  · obtain ⟨c', hc', haff, hg''⟩ := mem_newValues.mp hpv
    have hsub : (c :: post).Sublist calcs := hl ▸ List.sublist_append_right pre (c :: post)
    refine ⟨c', hsub.subset hc', ?_, affected_iff.mp haff, pv.value, ⟨iter, hg''⟩, hv⟩
    rcases List.mem_cons.mp hc' with rfl | hpost
    · exact .inl rfl
    · exact .inr (((List.singleton_sublist.mpr hpost).cons_cons c).trans hsub)

/-- The calculators, with what the plugin has said next to what it holds. -/
def voiced : System Calculator (Values × Values) (String ⊕ String) Json := dataflow.echo

theorem round_of_newValues (h : ∀ c ∈ calcs, Traced c) (iter : Iteration) (m said : Values)
    (changed : List String) :
    voiced.Round calcs (Ran changed) (m, said)
      (insertValues m (newValues calcs iter m changed),
        insertValues said (newValues calcs iter m changed)) where
  written
    | .inl p => insertValues_newValues iter m m changed p
    | .inr p => insertValues_newValues iter m said changed p
  last _ hc hran
    | .inl _, _, hcomp => last_of_newValues h iter m m hc hran hcomp
    | .inr _, _, hcomp => last_of_newValues h iter m said hc hran hcomp

theorem mem_of_changed (values : List PathValue) (m : Values) {p : String}
    (h : (insertValues m values).lookup p ≠ m.lookup p) : p ∈ values.map (·.path) := by
  rcases lookup_insertValues values m p with ⟨-, hm⟩ | ⟨pv, hpv, rfl, -⟩
  · exact absurd hm h
  · exact List.mem_map.mpr ⟨pv, hpv, rfl⟩

theorem loop_of_fixpoint (h : ∀ c ∈ calcs, Traced c) (iters : List Iteration) (m said : Values)
    (changed : List String) :
    System.Loop voiced calcs Triggers iters.length (Written changed) (m, said)
      ((fixpoint calcs iters m changed).1,
        insertValues said (fixpoint calcs iters m changed).2) := by
  induction iters generalizing m said changed with
  | nil => exact .limit
  | cons iter iters ih =>
    rw [fixpoint]
    split_ifs with hnil
    · refine .quiet fun c hc hran k v hcomp => ?_
      obtain ⟨iter', hg'⟩ := hcomp
      have hg := (h c hc).sound.order iter' iter m _ hg'
      have hmem := mem_newValues.mpr ⟨c, hc, affected_iff.mpr hran, hg⟩
      rw [hnil] at hmem
      cases hmem
    · rw [lookup_insertValues_append]
      refine .round (round_of_newValues h iter m said changed) ?_ (ih _ _ _)
      rintro (p | p) hne
      · exact mem_of_changed _ m hne
      · exact mem_of_changed _ said hne

/-! The one delta -/

theorem lookup_collect (m : Values) (values : List PathValue) (p : String) :
    match (HashMap.collect (values.map fun pv => (pv.path, pv))).lookup p with
    | some pv => pv.path = p ∧ (insertValues m values).lookup p = some pv.value
    | none => (insertValues m values).lookup p = m.lookup p := by
  induction values using List.reverseRecOn with
  | nil => rfl
  | append_singleton values last ih =>
    have hlast : (insertValues m (values ++ [last])).lookup p =
        if p = last.path then some last.value else (insertValues m values).lookup p := by
      rw [lookup_insertValues_append]
      exact HashMap.lookup_insert _ _ _ _
    have hcollect : (HashMap.collect ((values ++ [last]).map fun pv => (pv.path, pv))).lookup p =
        if p = last.path then some last
        else (HashMap.collect (values.map fun pv => (pv.path, pv))).lookup p := by
      rw [HashMap.collect, List.map_append, List.foldl_append]
      exact HashMap.lookup_insert _ _ _ _
    rw [hlast, hcollect]
    by_cases hp : p = last.path
    · simp only [if_pos hp]
      exact ⟨hp.symm, trivial⟩
    · simp only [if_neg hp]
      exact ih

/-- Of a path the last value is said, in whatever order. -/
theorem insertValues_deduped (m : Values) (values : List PathValue)
    (order : HashMap.Iteration String PathValue) :
    insertValues m ((order.entries (HashMap.collect (values.map fun pv => (pv.path, pv)))).map
      Prod.snd) = insertValues m values := by
  refine Finmap.ext_lookup fun p => ?_
  have hcollect := lookup_collect m values
  have horder := order.order (HashMap.collect (values.map fun pv => (pv.path, pv)))
  generalize HashMap.collect (values.map fun pv => (pv.path, pv)) = deduped at hcollect horder ⊢
  rcases lookup_insertValues ((order.entries deduped).map Prod.snd) m p with
    ⟨hno, hm⟩ | ⟨pv, hpv, rfl, hv⟩
  · have hnone : deduped.lookup p = none := by
      refine Option.eq_none_iff_forall_ne_some.mpr fun pv hpv => ?_
      have hp := hcollect p
      simp only [hpv] at hp
      exact hno pv (List.mem_map.mpr ⟨(p, pv), (horder.mem_iff p pv).mpr hpv, rfl⟩) hp.1
    have hp := hcollect p
    simp only [hnone] at hp
    exact hm.trans hp.symm
  · obtain ⟨⟨k, pv'⟩, he, rfl⟩ := List.mem_map.mp hpv
    have hk := hcollect k
    simp only [(horder.mem_iff k pv').mp he] at hk
    obtain ⟨rfl, hk⟩ := hk
    exact hv.trans hk.symm

theorem insertValues_emit (m : Values) (e : Delivery) (derived : List PathValue) :
    insertValues m ((emit e derived).elim [] Delta.pathValues) = insertValues m derived := by
  rw [emit]
  split_ifs with hnil
  · rw [hnil]
    rfl
  · rw [← insertValues_deduped m derived e.emission]
    simp [Delta.pathValues, Delta.selfVessel]

end

end SignalK.DerivedData

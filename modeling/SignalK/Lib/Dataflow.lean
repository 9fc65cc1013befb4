import Mathlib.Data.List.Pairwise
import Mathlib.Order.Basic

/-! Rules that compute some keys of a snapshot from others and are run in rounds, each
round on the changes of the one before. Which rules hold after a round, when the rounds
have nothing left to do, and which snapshots the given values leave no choice about. -/
namespace Dataflow
variable {R M P V : Type*}

/-- What each rule computes on a snapshot, and the keys that this depends on. -/
structure System (R M P V : Type*) where
  get : M → P → Option V
  computes : R → M → P → V → Prop
  reads : R → P → Prop

namespace System
variable (S : System R M P V)

structure Lawful (rules : List R) : Prop where
  /-- Nothing but the keys that are read matters. -/
  reading : ∀ r ∈ rules, ∀ s t p v, (∀ q, S.reads r q → S.get s q = S.get t q) →
    S.computes r s p v → S.computes r t p v
  functional : ∀ r ∈ rules, ∀ s p v w, S.computes r s p v → S.computes r s p w → v = w

/-- All that the rule computes is what the snapshot holds. -/
def Settled (r : R) (s : M) : Prop :=
  ∀ p v, S.computes r s p v → S.get s p = some v

/-- Only rules that read a changed key may not be settled. -/
def Pending (rules : List R) (changed : P → Prop) (s : M) : Prop :=
  ∀ r ∈ rules, (∀ p, S.reads r p → ¬changed p) → S.Settled r s

/-- Two rules that compute the same key agree once the earlier one has the values of the
later one to read, which no third rule computes. -/
def Compatible (rules : List R) (r r' : R) : Prop :=
  ∀ s p v v', S.computes r s p v → S.computes r' s p v' →
    (∀ q w, S.computes r' s q w → S.reads r q →
      ∀ r'' ∈ rules, ∀ w', S.computes r'' s q w' → r'' = r') ∧
    ((∀ q w, S.computes r' s q w → S.reads r q → S.get s q = some w) → v = v')

/-- Some rules run on one snapshot; of two values for a key the later one is kept. -/
structure Round (rules : List R) (ran : R → Prop) (s t : M) : Prop where
  written : ∀ p, S.get t p = S.get s p ∨
    ∃ r ∈ rules, ran r ∧ ∃ v, S.computes r s p v ∧ S.get t p = some v
  last : ∀ r ∈ rules, ran r → ∀ p v, S.computes r s p v →
    ∃ r' ∈ rules, (r' = r ∨ [r, r'].Sublist rules) ∧ ran r' ∧
      ∃ w, S.computes r' s p w ∧ S.get t p = some w

/-- A rule computes only keys that rank higher than those it reads, if they are free to
change. -/
def Ranked (rules : List R) (free : P → Prop) (rank : P → Nat) (s : M) : Prop :=
  ∀ r ∈ rules, ∀ p v q, free p → S.computes r s p v → S.reads r q → rank q < rank p

/-- The values that rules can compute, one from the other, out of a snapshot's, of whose
keys none is ever lost. -/
inductive Obtainable (rules : List R) (base : M) : P → V → Prop
  | held {p v} : S.get base p = some v → Obtainable rules base p v
  | computed {r s p v} : r ∈ rules → (∀ q w, S.get s q = some w → Obtainable rules base q w) →
      (∀ q, S.get base q ≠ none → S.get s q ≠ none) →
      S.computes r s p v → Obtainable rules base p v

/-- A snapshot that can be computed out of another one's values. -/
structure Within (rules : List R) (base s : M) : Prop where
  obtained : ∀ p v, S.get s p = some v → S.Obtainable rules base p v
  kept : ∀ p, S.get base p ≠ none → S.get s p ≠ none

variable {S}

theorem Within.refl (rules : List R) (s : M) : S.Within rules s s :=
  ⟨fun _ _ h => .held h, fun _ h => h⟩

theorem Obtainable.trans {rules : List R} {a b : M} (hab : S.Within rules a b) {p : P} {v : V}
    (h : S.Obtainable rules b p v) : S.Obtainable rules a p v := by
  induction h with
  | held h => exact hab.obtained _ _ h
  | computed hr _ hkept hc ih => exact .computed hr ih (fun q hq => hkept q (hab.kept q hq)) hc

theorem Within.trans {rules : List R} {a b c : M} (hab : S.Within rules a b)
    (hbc : S.Within rules b c) : S.Within rules a c where
  obtained p v hv := (hbc.obtained p v hv).trans hab
  kept p hp := hbc.kept p (hab.kept p hp)

theorem Within.computed {rules : List R} {base s : M} (h : S.Within rules base s) {r : R}
    (hr : r ∈ rules) {p : P} {v : V} (hc : S.computes r s p v) : S.Obtainable rules base p v :=
  .computed hr h.obtained h.kept hc

theorem sublist_or_sublist {rules : List R} {r r' : R} (hr : r ∈ rules) (hr' : r' ∈ rules)
    (hne : r ≠ r') : [r, r'].Sublist rules ∨ [r', r].Sublist rules := by
  induction rules with
  | nil => cases hr
  | cons a rules ih =>
    rcases List.mem_cons.mp hr with rfl | hm
    · have hm' : r' ∈ rules := (List.mem_cons.mp hr').resolve_left (Ne.symm hne)
      exact .inl ((List.singleton_sublist.mpr hm').cons_cons r)
    · rcases List.mem_cons.mp hr' with rfl | hm'
      · exact .inr ((List.singleton_sublist.mpr hm).cons_cons r')
      · exact (ih hm hm').imp (List.Sublist.cons a) (List.Sublist.cons a)

namespace Round
variable {rules : List R} {ran : R → Prop} {s t : M}

theorem within (h : S.Round rules ran s t) : S.Within rules s t where
  obtained p v hv := by
    rcases h.written p with hp | ⟨r, hr, -, w, hc, hw⟩
    · exact .held (hp ▸ hv)
    · obtain rfl : w = v := Option.some.inj (hw.symm.trans hv)
      exact (Within.refl rules s).computed hr hc
  kept p hp := by
    rcases h.written p with hkeep | ⟨r, -, -, w, -, hw⟩
    · rwa [hkeep]
    · simp [hw]

/-- What a rule reads of a later one that ran is in the snapshot when nothing it reads
has changed. -/
theorem held_of_unchanged (h : S.Round rules ran s t) (hl : S.Lawful rules) {r r' : R}
    (hr' : r' ∈ rules) (hran : ran r')
    (hsole : ∀ q w, S.computes r' s q w → S.reads r q →
      ∀ r'' ∈ rules, ∀ w', S.computes r'' s q w' → r'' = r')
    (hsame : ∀ p, S.reads r p → S.get t p = S.get s p) {q : P} {w : V} (hc : S.computes r' s q w)
    (hq : S.reads r q) : S.get s q = some w := by
  obtain ⟨r'', hr'', -, -, w', hc', ht⟩ := h.last r' hr' hran q w hc
  have he : r'' = r' := hsole q w hc hq r'' hr'' w' hc'
  rw [he] at hc'
  have hw : w' = w := hl.functional r' hr' s q w' w hc' hc
  rw [← hsame q hq, ht, hw]

/-- After a round the rules that read nothing which it changed are settled. -/
theorem pending (h : S.Round rules ran s t) (hl : S.Lawful rules)
    (hc : rules.Pairwise (S.Compatible rules)) {changed : P → Prop}
    (hp : S.Pending rules changed s) (hran : ∀ r ∈ rules, ∀ p, S.reads r p → changed p → ran r) :
    S.Pending rules (fun p => S.get t p ≠ S.get s p) t := by
  intro r hr hsame p v hv
  have hsame' : ∀ q, S.reads r q → S.get t q = S.get s q := fun q hq => not_not.mp (hsame q hq)
  have hs : S.computes r s p v := hl.reading r hr t s p v hsame' hv
  have hpair : ∀ {a b : R}, [a, b].Sublist rules → S.Compatible rules a b :=
    List.pairwise_iff_forall_sublist.mp hc
  -- a later rule that ran and computed the key agrees
  have hlater : ∀ r' ∈ rules, [r, r'].Sublist rules → ran r' → ∀ w, S.computes r' s p w →
      v = w := by
    intro r' hr' hsub hran' w hw
    obtain ⟨hsole, heq⟩ := hpair hsub s p v w hs hw
    apply heq
    intro q x hx hq
    exact h.held_of_unchanged hl hr' hran' hsole hsame' hx hq
  by_cases hrun : ran r
  · obtain ⟨r', hr', hord, hran', w, hw, ht⟩ := h.last r hr hrun p v hs
    rw [ht]
    apply congrArg some
    rcases hord with rfl | hsub
    · exact hl.functional r' hr s p w v hw hs
    · exact (hlater r' hr' hsub hran' w hw).symm
  · have hset : S.Settled r s := by
      apply hp r hr
      intro q hq hch
      exact hrun (hran r hr q hq hch)
    rcases h.written p with hkeep | ⟨r', hr', hran', w, hw, ht⟩
    · rw [hkeep]
      exact hset p v hs
    · have hne : r ≠ r' := fun he => hrun (he ▸ hran')
      rw [ht]
      apply congrArg some
      rcases sublist_or_sublist hr hr' hne with hsub | hsub
      · exact (hlater r' hr' hsub hran' w hw).symm
      · exact (hpair hsub s p w v hw hs).2 fun q x hx _ => hset q x hx

/-- The changes move up by one rank. -/
theorem rank_le (h : S.Round rules ran s t) {changed : P → Prop}
    (hp : S.Pending rules changed s) {free : P → Prop} {rank : P → Nat}
    (hfree : ∀ r ∈ rules, ∀ p v, ¬free p → S.computes r s p v → S.get s p = some v)
    (hrank : S.Ranked rules free rank s) {k : Nat} (hk : ∀ p, changed p → k ≤ rank p) {p : P}
    (hne : S.get t p ≠ S.get s p) : k + 1 ≤ rank p := by
  rcases h.written p with hkeep | ⟨r, hr, -, v, hv, ht⟩
  · exact absurd hkeep hne
  · have hfp : free p := by
      by_contra hfp
      exact hne (ht.trans (hfree r hr p v hfp hv).symm)
    by_contra hlt
    have hset : S.Settled r s := by
      apply hp r hr
      intro q hq hch
      have hlow : rank q < rank p := hrank r hr p v q hfp hv hq
      have hhigh : k ≤ rank q := hk q hch
      omega
    exact hne (ht.trans (hset p v hv).symm)

end Round

/-- Rounds until one computes nothing or their number runs out; a rule runs when a key
that it is triggered by was written in the round before. -/
inductive Loop (S : System R M P V) (rules : List R) (triggered : R → P → Prop) :
    Nat → (P → Prop) → M → M → Prop
  | limit {changed s} : Loop S rules triggered 0 changed s s
  | quiet {n changed s} :
      (∀ r ∈ rules, (∃ p, changed p ∧ triggered r p) → ∀ p v, ¬S.computes r s p v) →
      Loop S rules triggered (n + 1) changed s s
  | round {n changed changed' s t u} :
      S.Round rules (fun r => ∃ p, changed p ∧ triggered r p) s t →
      (∀ p, S.get t p ≠ S.get s p → changed' p) →
      Loop S rules triggered n changed' t u → Loop S rules triggered (n + 1) changed s u

namespace Loop
variable {rules : List R} {triggered : R → P → Prop} {n : Nat} {changed : P → Prop}
  {s u : M}

theorem within (h : Loop S rules triggered n changed s u) : S.Within rules s u := by
  induction h with
  | limit => exact Within.refl rules _
  | quiet _ => exact Within.refl rules _
  | round hr _ _ ih => exact hr.within.trans ih

/-- With as many rounds as there are ranks, every rule is settled at the end. -/
theorem settled (h : Loop S rules triggered n changed s u) (hl : S.Lawful rules)
    (hc : rules.Pairwise (S.Compatible rules)) (ht : ∀ r ∈ rules, ∀ p, S.reads r p → triggered r p)
    (free : P → Prop) (rank : P → Nat)
    (hfree : ∀ t, S.Within rules s t → ∀ r ∈ rules, ∀ p v, ¬free p → S.computes r t p v →
      S.get t p = some v)
    (hrank : ∀ t, S.Within rules s t → S.Ranked rules free rank t)
    {dirty : P → Prop} (hd : ∀ p, dirty p → changed p) (hp : S.Pending rules dirty s) {k : Nat}
    (hk : ∀ p, dirty p → k ≤ rank p) (hn : ∀ p, rank p < k + n) :
    ∀ r ∈ rules, S.Settled r u := by
  induction h generalizing dirty k with
  | limit =>
    intro r hr
    apply hp r hr
    intro p _ hdirty
    have hlow := hk p hdirty
    have hhigh := hn p
    omega
  | quiet hq =>
    intro r hr p v hv
    by_cases hrun : ∃ q, S.reads r q ∧ dirty q
    · obtain ⟨q, hread, hdirty⟩ := hrun
      exact absurd hv (hq r hr ⟨q, hd q hdirty, ht r hr q hread⟩ p v)
    · exact hp r hr (fun q hread hdirty => hrun ⟨q, hread, hdirty⟩) p v hv
  | round hr hch _ ih =>
    have hran : ∀ r ∈ rules, ∀ p, S.reads r p → dirty p → ∃ p, _ ∧ triggered r p :=
      fun r hrm p hread hdirty => ⟨p, hd p hdirty, ht r hrm p hread⟩
    have hpend := hr.pending hl hc hp hran
    refine ih (fun t hwt => hfree t (hr.within.trans hwt))
      (fun t hwt => hrank t (hr.within.trans hwt)) hch hpend (k := k + 1) ?_ ?_
    · intro p hne
      have hself := Within.refl (S := S) rules
      exact hr.rank_le hp (hfree _ (hself _)) (hrank _ (hself _)) hk hne
    · intro p
      have := hn p
      omega

end Loop

/-- A snapshot that is made of given values and of what rules compute, all of it held. -/
structure Determined (S : System R M P V) (rules : List R) (given : P → Option V) (t : M) :
    Prop where
  kept : ∀ p v, given p = some v → S.get t p = some v
  settled : ∀ r ∈ rules, S.Settled r t
  computed : ∀ p v, S.get t p = some v → given p = none → ∃ r ∈ rules, S.computes r t p v

namespace Determined
variable {rules : List R} {given : P → Option V} {t u : M} {rank : P → Nat}

/-- A key of such a snapshot is held the same way wherever the rules are settled. -/
theorem eq_at (ht : Determined S rules given t) (hl : S.Lawful rules)
    (hrank : S.Ranked rules (given · = none) rank t)
    (hkept : ∀ p v, given p = some v → S.get u p = some v)
    (hset : ∀ r ∈ rules, S.Settled r u) {p : P} (hlow : ∀ q, rank q < rank p → S.get u q = S.get t q)
    (hp : S.get t p ≠ none) : S.get u p = S.get t p := by
  obtain ⟨v, hv⟩ := Option.ne_none_iff_exists'.mp hp
  cases hg : given p with
  | some w => rw [hkept p w hg, ht.kept p w hg]
  | none =>
    obtain ⟨r, hr, hc⟩ := ht.computed p v hv hg
    have hu : S.computes r u p v := by
      apply hl.reading r hr t u p v _ hc
      intro q hq
      exact (hlow q (hrank r hr p v q hg hc hq)).symm
    rw [hset r hr p v hu, hv]

/-- What the rules are settled on and covers no further key is that snapshot. -/
theorem eq_of_covered (ht : Determined S rules given t) (hl : S.Lawful rules)
    (hrank : S.Ranked rules (given · = none) rank t)
    (hkept : ∀ p v, given p = some v → S.get u p = some v)
    (hset : ∀ r ∈ rules, S.Settled r u) (hcov : ∀ p, S.get u p ≠ none → S.get t p ≠ none)
    (p : P) : S.get u p = S.get t p := by
  induction p using (measure rank).wf.induction with
  | h p ih =>
    by_cases hn : S.get t p = none
    · rw [hn]
      by_contra hne
      exact hcov p hne hn
    · exact ht.eq_at hl hrank hkept hset ih hn

theorem unique (ht : Determined S rules given t) (hu : Determined S rules given u)
    (hl : S.Lawful rules) (hrank : S.Ranked rules (given · = none) rank t)
    (hrank' : S.Ranked rules (given · = none) rank u) (p : P) : S.get u p = S.get t p := by
  induction p using (measure rank).wf.induction with
  | h p ih =>
    by_cases hn : S.get t p = none
    · by_contra hne
      have hm : S.get u p ≠ none := fun h => hne (h.trans hn.symm)
      have hlow : ∀ q, rank q < rank p → S.get t q = S.get u q := fun q hq => (ih q hq).symm
      exact hne (hu.eq_at hl hrank' ht.kept ht.settled hlow hm).symm
    · exact ht.eq_at hl hrank hu.kept hu.settled ih hn

end Determined

/-! What the rules compute is also said aloud, where nothing reads it. -/

/-- The system with a second snapshot of what has been said for every key. -/
def echo (S : System R M P V) : System R (M × M) (P ⊕ P) V where
  get s := Sum.elim (S.get s.1) (S.get s.2)
  computes r s k v := S.computes r s.1 (Sum.elim id id k) v
  reads r := Sum.elim (S.reads r) fun _ => False

section
variable {rules : List R}

theorem Lawful.echo (h : S.Lawful rules) : S.echo.Lawful rules where
  reading r hr s t _ v hagree hc :=
    h.reading r hr s.1 t.1 _ v (fun q hq => hagree (.inl q) hq) hc
  functional r hr s _ v w hv hw := h.functional r hr s.1 _ v w hv hw

theorem Compatible.echo {r r' : R} (h : S.Compatible rules r r') :
    S.echo.Compatible rules r r' := by
  intro s k v v' hv hv'
  obtain ⟨hsole, heq⟩ := h s.1 _ v v' hv hv'
  constructor
  · intro q w hq hread r'' hr'' w' hq'
    cases q with
    | inl q => exact hsole q w hq hread r'' hr'' w' hq'
    | inr q => exact absurd hread id
  · intro hheld
    exact heq fun q w hq hread => hheld (.inl q) w hq hread

theorem Obtainable.of_echo {base : M × M} {k : P ⊕ P} {v : V}
    (h : S.echo.Obtainable rules base k v) :
    ∀ p, k = .inl p → S.Obtainable rules base.1 p v := by
  induction h with
  | held h =>
    rintro p rfl
    exact .held h
  | computed hr _ hkept hc ih =>
    rintro p rfl
    exact .computed hr (fun q w hq => ih (.inl q) w hq q rfl) (fun q hq => hkept (.inl q) hq) hc

theorem Within.of_echo {base s : M × M} (h : S.echo.Within rules base s) :
    S.Within rules base.1 s.1 where
  obtained p v hv := (h.obtained (.inl p) v hv).of_echo p rfl
  kept p hp := h.kept (.inl p) hp

end

end System

end Dataflow

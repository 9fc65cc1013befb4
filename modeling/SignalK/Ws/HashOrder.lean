import Mathlib.Logic.Equiv.Basic
import SignalK.Store.Subscription

/-! Whether it matters in which order the subscriptions of a client are visited. The first that
wants a value takes it, and only its throttle moves on; so it matters which one that is, unless
those that want it are interchangeable. -/
namespace SignalK.HashOrder

/-- The clock as one value sees it: at the checks, and when it is sent. -/
structure Tick where
  now : Instant
  sent : Instant

def Tick.reading (t : Tick) : Reading := ⟨fun _ => t.now, t.sent⟩

/-! What a subscription lets through at an instant and later. -/

/-- The window of a value that is not the last one sent. -/
def changedWindow (sub : ActiveSubscription) : UInt64 :=
  match sub.policy with
  | .instant => sub.minPeriodMs
  | .ideal => sub.minPeriodMs
  | .fixed => sub.periodMs

/-- The window of the value that was sent last. -/
def sameWindow (sub : ActiveSubscription) : UInt64 :=
  match sub.policy with
  | .instant => sub.minPeriodMs
  | .ideal => sub.periodMs
  | .fixed => sub.periodMs

theorem window_eq (sub : ActiveSubscription) (value : Json) :
    sub.window value =
      if value ≠ sub.lastValue.getD .null then changedWindow sub else sameWindow sub := by
  unfold ActiveSubscription.window changedWindow sameWindow
  cases sub.policy <;> simp

/-- Past all its windows. -/
def Rested (now : Instant) (sub : ActiveSubscription) : Prop :=
  sub.due now (changedWindow sub) ∧ sub.due now (sameWindow sub)

/-- Never held back. -/
def Unthrottled (sub : ActiveSubscription) : Prop := changedWindow sub = 0 ∧ sameWindow sub = 0

/-- The same paths and windows. -/
structure SameKind (a b : ActiveSubscription) : Prop where
  path : ∀ p, matchesPattern a.path p = matchesPattern b.path p
  changed : changedWindow a = changedWindow b
  same : sameWindow a = sameWindow b

/-- The same deliveries from an instant on: both are past all their windows, or both have sent at
the same time, and the same value where that makes a difference. -/
def SameState (now : Instant) (a b : ActiveSubscription) : Prop :=
  Rested now a ∧ Rested now b ∨
    a.lastSent = b.lastSent ∧
      (changedWindow a = sameWindow a ∨ a.lastValue.getD .null = b.lastValue.getD .null)

structure Interchangeable (now : Instant) (a b : ActiveSubscription) : Prop where
  kind : SameKind a b
  state : SameState now a b

theorem SameKind.refl (a : ActiveSubscription) : SameKind a a := ⟨fun _ => rfl, rfl, rfl⟩

theorem SameKind.symm {a b : ActiveSubscription} (h : SameKind a b) : SameKind b a :=
  ⟨fun p => (h.path p).symm, h.changed.symm, h.same.symm⟩

theorem SameKind.trans {a b c : ActiveSubscription} (h : SameKind a b) (h' : SameKind b c) :
    SameKind a c :=
  ⟨fun p => (h.path p).trans (h'.path p), h.changed.trans h'.changed, h.same.trans h'.same⟩

theorem sameKind_markSent (a : ActiveSubscription) (t : Instant) (v : Json) :
    SameKind (a.markSent t v) a := ⟨fun _ => rfl, rfl, rfl⟩

theorem Rested.congr {now : Instant} {a b : ActiveSubscription} (hk : SameKind a b)
    (hs : a.lastSent = b.lastSent) (h : Rested now a) : Rested now b := by
  unfold Rested ActiveSubscription.due at h ⊢
  rwa [← hk.changed, ← hk.same, ← hs]

theorem due_mono {now t : Instant} (h : now ≤ t) {sub : ActiveSubscription} {ms : UInt64}
    (hd : sub.due now ms) : sub.due t ms := by
  unfold ActiveSubscription.due at hd ⊢
  cases hl : sub.lastSent with
  | none => rfl
  | some last =>
    rw [hl] at hd
    have hle : ms.toNat * 1000000 ≤ now - last := of_decide_eq_true hd
    exact decide_eq_true (hle.trans (Nat.sub_le_sub_right h last))

theorem Interchangeable.symm {now : Instant} {a b : ActiveSubscription}
    (h : Interchangeable now a b) : Interchangeable now b a := by
  refine ⟨h.kind.symm, ?_⟩
  rcases h.state with hr | ⟨hs, hv⟩
  · exact .inl hr.symm
  · refine .inr ⟨hs.symm, ?_⟩
    rw [← h.kind.changed, ← h.kind.same]
    exact hv.imp_right Eq.symm

theorem Interchangeable.trans {now : Instant} {a b c : ActiveSubscription}
    (h : Interchangeable now a b) (h' : Interchangeable now b c) : Interchangeable now a c := by
  refine ⟨h.kind.trans h'.kind, ?_⟩
  rcases h.state with ⟨ha, hb⟩ | ⟨hs, hv⟩
  · rcases h'.state with ⟨-, hc⟩ | ⟨hs', -⟩
    · exact .inl ⟨ha, hc⟩
    · exact .inl ⟨ha, hb.congr h'.kind hs'⟩
  · rcases h'.state with ⟨hb, hc⟩ | ⟨hs', hv'⟩
    · exact .inl ⟨hb.congr h.kind.symm hs.symm, hc⟩
    · refine .inr ⟨hs.trans hs', ?_⟩
      rcases hv with hv | hv
      · exact .inl hv
      · rcases hv' with hv' | hv'
        · exact .inl (by rw [h.kind.changed, h.kind.same, hv'])
        · exact .inr (hv.trans hv')

theorem Interchangeable.later {now t : Instant} {a b : ActiveSubscription}
    (h : Interchangeable now a b) (ht : now ≤ t) : Interchangeable t a b := by
  refine ⟨h.kind, ?_⟩
  rcases h.state with ⟨ha, hb⟩ | hs
  · exact .inl ⟨⟨due_mono ht ha.1, due_mono ht ha.2⟩, due_mono ht hb.1, due_mono ht hb.2⟩
  · exact .inr hs

theorem interchangeable_markSent {a b : ActiveSubscription} (h : SameKind a b)
    (now t : Instant) (v : Json) : Interchangeable now (a.markSent t v) (b.markSent t v) :=
  ⟨⟨h.path, h.changed, h.same⟩, .inr ⟨rfl, .inr rfl⟩⟩

theorem Rested.due {now : Instant} {a : ActiveSubscription} (h : Rested now a) (v : Json) :
    a.due now (a.window v) := by
  rw [window_eq]
  split_ifs
  · exact h.1
  · exact h.2

theorem Interchangeable.shouldDeliver {now : Instant} {a b : ActiveSubscription}
    (h : Interchangeable now a b) (path : String) (v : Json) :
    a.shouldDeliver now path v = b.shouldDeliver now path v := by
  rw [ActiveSubscription.shouldDeliver_eq, ActiveSubscription.shouldDeliver_eq, h.kind.path]
  rcases h.state with ⟨ha, hb⟩ | ⟨hs, hv⟩
  · rw [ha.due, hb.due]
  · have hwindow : a.window v = b.window v := by
      rw [window_eq, window_eq, ← h.kind.changed, ← h.kind.same]
      rcases hv with hv | hv
      · rw [hv, ite_self, ite_self]
      · rw [hv]
    rw [hwindow]
    unfold ActiveSubscription.due
    rw [hs]

theorem Unthrottled.shouldDeliver {a : ActiveSubscription} (h : Unthrottled a) {path : String}
    (hm : matchesPattern a.path path = true) (now : Instant) (v : Json) :
    a.shouldDeliver now path v = true := by
  have hwindow : a.window v = 0 := by
    rw [window_eq, h.1, h.2, ite_self]
  rw [ActiveSubscription.shouldDeliver_eq, hm, hwindow, ActiveSubscription.due_zero]
  rfl

/-! Maps that let the same through. -/

/-- Some subscription that is never held back matches the path. -/
def Free (s : Subscriptions) (path : String) : Prop :=
  ∃ key f, s.lookup key = some f ∧ Unthrottled f ∧ matchesPattern f.path path = true

/-- Whatever a subscription matches is let through without it. -/
def Covered (free : String → Prop) (a : ActiveSubscription) : Prop :=
  ∀ path, matchesPattern a.path path = true → free path

theorem Covered.congr {free : String → Prop} {a b : ActiveSubscription} (h : SameKind a b)
    (ha : Covered free a) : Covered free b := fun path hm => ha path ((h.path path).trans hm)

theorem covered_unthrottled {s : Subscriptions} {key : String} {f : ActiveSubscription}
    (hf : s.lookup key = some f) (hu : Unthrottled f) : Covered (Free s) f :=
  fun _ hm => ⟨key, f, hf, hu, hm⟩

/-- Two subscriptions of a kind, covered or interchangeable. -/
def Alike (free : String → Prop) (now : Instant) (a b : ActiveSubscription) : Prop :=
  SameKind a b ∧ (Covered free a ∨ Interchangeable now a b)

theorem Alike.later {free : String → Prop} {now t : Instant} {a b : ActiveSubscription}
    (h : Alike free now a b) (ht : now ≤ t) : Alike free t a b :=
  ⟨h.1, h.2.imp_right fun hi => hi.later ht⟩

theorem rel_later {free : String → Prop} {now t : Instant} {x y : Option ActiveSubscription}
    (h : Option.Rel (Alike free now) x y) (ht : now ≤ t) : Option.Rel (Alike free t) x y := by
  cases h with
  | none => exact .none
  | some hab => exact .some (hab.later ht)

/-- The subscriptions of two maps are alike in pairs, under keys that may have changed places. -/
def Paired (free : String → Prop) (now : Instant) (s₁ s₂ : Subscriptions) : Prop :=
  ∃ π : Equiv.Perm String, ∀ k, Option.Rel (Alike free now) (s₁.lookup k) (s₂.lookup (π k))

/-- A value finds subscriptions that want it only if they are all covered or interchangeable. -/
def Unambiguous (s : Subscriptions) (now : Instant) (pv : PathValue) : Prop :=
  ∀ k a k' a', s.lookup k = some a → s.lookup k' = some a' →
    a.shouldDeliver now pv.path pv.value = true → a'.shouldDeliver now pv.path pv.value = true →
    Covered (Free s) a ∧ Covered (Free s) a' ∨ Interchangeable now a a'

/-- Two maps of the same subscriptions on their way through a run, each with its own order. -/
structure Linked (now : Instant) (o₁ o₂ : List String) (s₁ s₂ : Subscriptions) : Prop where
  order₁ : KeyOrder o₁ s₁
  order₂ : KeyOrder o₂ s₂
  paired : Paired (Free s₁) now s₁ s₂

theorem lookup_rel {free : String → Prop} {now : Instant} {s₁ s₂ : Subscriptions}
    {π : Equiv.Perm String}
    (hπ : ∀ k, Option.Rel (Alike free now) (s₁.lookup k) (s₂.lookup (π k))) {k : String}
    {a : ActiveSubscription} (h : s₁.lookup k = some a) :
    ∃ b, s₂.lookup (π k) = some b ∧ Alike free now a b := by
  have hrel := hπ k
  rw [h] at hrel
  cases hb : s₂.lookup (π k) with
  | none =>
    rw [hb] at hrel
    cases hrel
  | some b =>
    rw [hb] at hrel
    cases hrel with
    | some hab => exact ⟨b, rfl, hab⟩

theorem lookup_rel_symm {free : String → Prop} {now : Instant} {s₁ s₂ : Subscriptions}
    {π : Equiv.Perm String}
    (hπ : ∀ k, Option.Rel (Alike free now) (s₁.lookup k) (s₂.lookup (π k))) {k : String}
    {b : ActiveSubscription} (h : s₂.lookup k = some b) :
    ∃ a, s₁.lookup (π.symm k) = some a ∧ Alike free now a b := by
  have hrel := hπ (π.symm k)
  rw [Equiv.apply_symm_apply, h] at hrel
  cases ha : s₁.lookup (π.symm k) with
  | none =>
    rw [ha] at hrel
    cases hrel
  | some a =>
    rw [ha] at hrel
    cases hrel with
    | some hab => exact ⟨a, rfl, hab⟩

theorem keyOrder_mark {o : List String} {s : Subscriptions} (h : KeyOrder o s) {k : String}
    {a : ActiveSubscription} (ha : s.lookup k = some a) (b : ActiveSubscription) :
    KeyOrder o (s.insert k b) := by
  refine ⟨h.1, fun key => ?_⟩
  rw [h.2 key, Finmap.mem_insert]
  have hk : k ∈ s := Finmap.mem_of_lookup_eq_some ha
  constructor
  · exact .inr
  · rintro (rfl | hmem)
    · exact hk
    · exact hmem

theorem free_mark {s : Subscriptions} {k : String} {a : ActiveSubscription}
    (ha : s.lookup k = some a) (t : Instant) (v : Json) :
    Free (s.insert k (a.markSent t v)) = Free s := by
  funext path
  refine propext ⟨?_, ?_⟩
  · rintro ⟨key, f, hf, hu, hm⟩
    rw [HashMap.lookup_insert] at hf
    split_ifs at hf with hk
    · obtain rfl := Option.some.inj hf
      exact ⟨k, a, ha, hu, hm⟩
    · exact ⟨key, f, hf, hu, hm⟩
  · rintro ⟨key, f, hf, hu, hm⟩
    by_cases hk : key = k
    · subst hk
      obtain rfl := Option.some.inj (ha.symm.trans hf)
      exact ⟨key, a.markSent t v, by simp, hu, hm⟩
    · exact ⟨key, f, by rw [HashMap.lookup_insert, if_neg hk, hf], hu, hm⟩

/-- What is wanted of one map is wanted of the other. -/
theorem wanted_iff {now t : Instant} {o₁ o₂ : List String} {s₁ s₂ : Subscriptions}
    (h : Linked now o₁ o₂ s₁ s₂) (ht : now ≤ t) (pv : PathValue) :
    (∃ k a, s₁.lookup k = some a ∧ a.shouldDeliver t pv.path pv.value = true) ↔
      ∃ k b, s₂.lookup k = some b ∧ b.shouldDeliver t pv.path pv.value = true := by
  obtain ⟨π, hπ⟩ := h.paired
  have hmatch : ∀ {a : ActiveSubscription}, a.shouldDeliver t pv.path pv.value = true →
      matchesPattern a.path pv.path = true := by
    intro a ha
    rw [ActiveSubscription.shouldDeliver_eq, Bool.and_eq_true] at ha
    exact ha.1
  constructor
  · rintro ⟨k, a, hk, ha⟩
    obtain ⟨b, hb, hkind, hcov | hint⟩ := lookup_rel hπ hk
    · obtain ⟨key, f, hf, hu, hm⟩ := hcov _ (hmatch ha)
      obtain ⟨g, hg, hfg, -⟩ := lookup_rel hπ hf
      have hug : Unthrottled g := by
        rw [Unthrottled, ← hfg.changed, ← hfg.same]
        exact hu
      exact ⟨π key, g, hg, hug.shouldDeliver ((hfg.path pv.path).symm.trans hm) t pv.value⟩
    · exact ⟨π k, b, hb, ((hint.later ht).shouldDeliver _ _).symm.trans ha⟩
  · rintro ⟨k, b, hk, hb⟩
    obtain ⟨a, ha, hkind, hcov | hint⟩ := lookup_rel_symm hπ hk
    · obtain ⟨key, f, hf, hu, hm⟩ := hcov _ ((hkind.path pv.path).trans (hmatch hb))
      exact ⟨key, f, hf, hu.shouldDeliver hm t pv.value⟩
    · exact ⟨π.symm k, a, ha, ((hint.later ht).shouldDeliver _ _).trans hb⟩

theorem paired_later {free : String → Prop} {now t : Instant} {s₁ s₂ : Subscriptions}
    (h : Paired free now s₁ s₂) (ht : now ≤ t) : Paired free t s₁ s₂ := by
  obtain ⟨π, hπ⟩ := h
  exact ⟨π, fun k => rel_later (hπ k) ht⟩

section
variable {now t : Instant} {s₁ s₂ : Subscriptions} {π : Equiv.Perm String} {k₁ k₂ : String}
  {a₁ b₁ a₂ b₂ : ActiveSubscription}

/-- What is covered in both maps may take a value in each: it does not matter what
either has sent. -/
theorem paired_covered (hπ : ∀ k, Option.Rel (Alike (Free s₁) now) (s₁.lookup k) (s₂.lookup (π k)))
    (ht : now ≤ t) (hk₂ : s₂.lookup k₂ = some b₂) (hb₁ : s₂.lookup (π k₁) = some b₁)
    (hkind₁ : SameKind a₁ b₁) (ha₂ : s₁.lookup (π.symm k₂) = some a₂) (hkind₂ : SameKind a₂ b₂)
    (hcov₁ : Covered (Free s₁) a₁) (hcov₂ : Covered (Free s₁) a₂) (sent : Instant) (v : Json) :
    Paired (Free s₁) t (s₁.insert k₁ (a₁.markSent sent v)) (s₂.insert k₂ (b₂.markSent sent v)) := by
  refine ⟨π, fun k => ?_⟩
  rw [HashMap.lookup_insert, HashMap.lookup_insert]
  by_cases hk : k = k₁
  · subst hk
    rw [if_pos rfl]
    split_ifs with hπk
    · obtain rfl := Option.some.inj (hb₁.symm.trans (hπk ▸ hk₂))
      exact .some ⟨⟨hkind₁.path, hkind₁.changed, hkind₁.same⟩, .inl hcov₁⟩
    · rw [hb₁]
      exact .some ⟨(sameKind_markSent a₁ sent v).trans hkind₁, .inl hcov₁⟩
  · rw [if_neg hk]
    split_ifs with hπk
    · obtain rfl : π.symm k₂ = k := by rw [← hπk, Equiv.symm_apply_apply]
      rw [ha₂]
      exact .some ⟨hkind₂.trans (sameKind_markSent b₂ sent v).symm, .inl hcov₂⟩
    · exact rel_later (hπ k) ht

/-- Interchangeable subscriptions that take a value in either map change places. -/
theorem paired_exchanged
    (hπ : ∀ k, Option.Rel (Alike (Free s₁) now) (s₁.lookup k) (s₂.lookup (π k))) (ht : now ≤ t)
    (hb₁ : s₂.lookup (π k₁) = some b₁) (hkind₁ : SameKind a₁ b₁)
    (ha₂ : s₁.lookup (π.symm k₂) = some a₂) (hkind₂ : SameKind a₂ b₂)
    (hint₁ : Interchangeable t a₁ b₁) (hint : Interchangeable t a₁ a₂) (sent : Instant)
    (v : Json) :
    Paired (Free s₁) t (s₁.insert k₁ (a₁.markSent sent v)) (s₂.insert k₂ (b₂.markSent sent v)) := by
  refine ⟨π.trans (Equiv.swap (π k₁) k₂), fun k => ?_⟩
  rw [HashMap.lookup_insert, HashMap.lookup_insert, Equiv.trans_apply]
  by_cases hk : k = k₁
  · subst hk
    rw [if_pos rfl, Equiv.swap_apply_left, if_pos rfl]
    have hkind := hint.kind.trans hkind₂
    exact .some ⟨⟨hkind.path, hkind.changed, hkind.same⟩,
      .inr (interchangeable_markSent hkind t sent v)⟩
  · rw [if_neg hk]
    by_cases hπk : π k = k₂
    · have hne : π k₁ ≠ k₂ := fun he => hk (π.injective (hπk.trans he.symm))
      obtain rfl : π.symm k₂ = k := by rw [← hπk, Equiv.symm_apply_apply]
      rw [hπk, Equiv.swap_apply_right, if_neg hne, ha₂, hb₁]
      exact .some ⟨hint.kind.symm.trans hkind₁, .inr (hint.symm.trans hint₁)⟩
    · have hne : π k ≠ π k₁ := fun he => hk (π.injective he)
      rw [Equiv.swap_apply_of_ne_of_ne hne hπk, if_neg hπk]
      exact rel_later (hπ k) ht

end

/-- Where each map has one of its subscriptions take the value, they stay paired. -/
theorem paired_mark {now t : Instant} {o₁ o₂ : List String} {s₁ s₂ : Subscriptions}
    (h : Linked now o₁ o₂ s₁ s₂) (ht : now ≤ t) {pv : PathValue} (hu : Unambiguous s₁ t pv)
    {k₁ k₂ : String} {a₁ b₂ : ActiveSubscription} (hk₁ : s₁.lookup k₁ = some a₁)
    (ha₁ : a₁.shouldDeliver t pv.path pv.value = true) (hk₂ : s₂.lookup k₂ = some b₂)
    (hb₂ : b₂.shouldDeliver t pv.path pv.value = true) (sent : Instant) :
    Paired (Free s₁) t (s₁.insert k₁ (a₁.markSent sent pv.value))
      (s₂.insert k₂ (b₂.markSent sent pv.value)) := by
  obtain ⟨π, hπ⟩ := h.paired
  obtain ⟨b₁, hb₁, hkind₁, halike₁⟩ := lookup_rel hπ hk₁
  obtain ⟨a₂, ha₂, hkind₂, halike₂⟩ := lookup_rel_symm hπ hk₂
  by_cases hcov : Covered (Free s₁) a₁
  · have hcov₂ : Covered (Free s₁) a₂ := by
      rcases halike₂ with hc | hint
      · exact hc
      · have hwant := ((hint.later ht).shouldDeliver pv.path pv.value).trans hb₂
        rcases hu k₁ a₁ _ a₂ hk₁ ha₂ ha₁ hwant with ⟨-, hc⟩ | hi
        · exact hc
        · exact hcov.congr hi.kind
    exact paired_covered hπ ht hk₂ hb₁ hkind₁ ha₂ hkind₂ hcov hcov₂ sent pv.value
  · have hfree : ∀ {a : ActiveSubscription} {k : String}, s₁.lookup k = some a →
        a.shouldDeliver t pv.path pv.value = true → Interchangeable t a₁ a := by
      intro a k hk ha
      rcases hu k₁ a₁ k a hk₁ hk ha₁ ha with ⟨hc, -⟩ | hi
      · exact absurd hc hcov
      · exact hi
    have hint₁ : Interchangeable t a₁ b₁ := (halike₁.resolve_left hcov).later ht
    have hint₂ : Interchangeable t a₂ b₂ := by
      rcases halike₂ with hc | hint
      · rw [ActiveSubscription.shouldDeliver_eq, Bool.and_eq_true] at hb₂
        obtain ⟨key, f, hf, hun, hm⟩ := hc _ ((hkind₂.path pv.path).trans hb₂.1)
        have hi := hfree hf (hun.shouldDeliver hm t pv.value)
        exact absurd ((covered_unthrottled hf hun).congr hi.kind.symm) hcov
      · exact hint.later ht
    have hint : Interchangeable t a₁ a₂ :=
      hfree ha₂ ((hint₂.shouldDeliver pv.path pv.value).trans hb₂)
    exact paired_exchanged hπ ht hb₁ hkind₁ ha₂ hkind₂ hint₁ hint sent pv.value

/-- One value: both maps let it through or neither does, and they stay linked. -/
theorem linked_value {now : Instant} {o₁ o₂ : List String} {s₁ s₂ : Subscriptions}
    (h : Linked now o₁ o₂ s₁ s₂) {tick : Tick} (ht : now ≤ tick.now) {pv : PathValue}
    (hu : Unambiguous s₁ tick.now pv) :
    (filterValue tick.reading pv s₁ o₁).2 = (filterValue tick.reading pv s₂ o₂).2 ∧
      Linked tick.now o₁ o₂ (filterValue tick.reading pv s₁ o₁).1
        (filterValue tick.reading pv s₂ o₂).1 := by
  have hmem : ∀ {o : List String} {s : Subscriptions}, KeyOrder o s → ∀ {k : String}
      {a : ActiveSubscription}, s.lookup k = some a → k ∈ o := fun ho _ _ hk =>
    (ho.2 _).mpr (Finmap.mem_of_lookup_eq_some hk)
  rcases filterValue_cases tick.reading pv s₁ o₁ with
    ⟨k₁, -, a₁, hk₁, ha₁, hf₁⟩ | ⟨hf₁, hno₁⟩
  · rcases filterValue_cases tick.reading pv s₂ o₂ with
      ⟨k₂, -, b₂, hk₂, hb₂, hf₂⟩ | ⟨hf₂, hno₂⟩
    · rw [hf₁, hf₂]
      refine ⟨rfl, keyOrder_mark h.order₁ hk₁ _, keyOrder_mark h.order₂ hk₂ _, ?_⟩
      rw [free_mark hk₁]
      exact paired_mark h ht hu hk₁ ha₁ hk₂ hb₂ tick.sent
    · obtain ⟨k, b, hk, hb⟩ := (wanted_iff h ht pv).mp ⟨k₁, a₁, hk₁, ha₁⟩
      have hnot := hno₂ k (hmem h.order₂ hk) b hk
      exact absurd hb (by simpa [Tick.reading] using hnot)
  · rcases filterValue_cases tick.reading pv s₂ o₂ with
      ⟨k₂, -, b₂, hk₂, hb₂, hf₂⟩ | ⟨hf₂, hno₂⟩
    · obtain ⟨k, a, hk, ha⟩ := (wanted_iff h ht pv).mpr ⟨k₂, b₂, hk₂, hb₂⟩
      have hnot := hno₁ k (hmem h.order₁ hk) a hk
      exact absurd ha (by simpa [Tick.reading] using hnot)
    · rw [hf₁, hf₂]
      exact ⟨rfl, h.order₁, h.order₂, paired_later h.paired ht⟩

/-! Whole deltas. -/

/-- The filter as a machine over single values; the time of the last check is part of its state. -/
def valueStep (order : List String) (s : Instant × Subscriptions) (e : Tick × PathValue) :
    (Instant × Subscriptions) × List PathValue :=
  ((e.1.now, (filterValue e.1.reading e.2 s.2 order).1),
    (filterValue e.1.reading e.2 s.2 order).2)

/-- Time goes on, and the value finds no choice that matters. -/
def Clear (s : Instant × Subscriptions) (e : Tick × PathValue) : Prop :=
  s.1 ≤ e.1.now ∧ Unambiguous s.2 e.1.now e.2

/-- A delta with its clock, value by value. -/
structure Broadcast where
  delta : Delta
  clock : Nat → Tick

def Broadcast.values (b : Broadcast) : List (Tick × PathValue) :=
  Machine.timed b.clock b.delta.pathValues

def broadcastStep (order : List String) (s : Subscriptions) (b : Broadcast) :
    Subscriptions × List Delta :=
  filterDelta order (fun n => (b.clock n).reading) s b.delta

section
variable {o₁ o₂ : List String} {now : Instant} {s₁ s₂ : Subscriptions}

theorem linked_values (h : Linked now o₁ o₂ s₁ s₂) (clock : Nat → Tick) (pvs : List PathValue)
    (hm : Machine.Meets (valueStep o₁) Clear (now, s₁) (Machine.timed clock pvs)) :
    ∃ t, Machine.run (valueStep o₁) (now, s₁) (Machine.timed clock pvs) =
        (t, (filterValues o₁ (fun n => (clock n).reading) s₁ pvs).1) ∧
      (filterValues o₁ (fun n => (clock n).reading) s₁ pvs).2 =
        (filterValues o₂ (fun n => (clock n).reading) s₂ pvs).2 ∧
      Linked t o₁ o₂ (filterValues o₁ (fun n => (clock n).reading) s₁ pvs).1
        (filterValues o₂ (fun n => (clock n).reading) s₂ pvs).1 := by
  induction pvs generalizing now clock s₁ s₂ with
  | nil => exact ⟨now, rfl, rfl, h⟩
  | cons pv pvs ih =>
    obtain ⟨hout, hlink⟩ := linked_value h hm.1.1 hm.1.2
    obtain ⟨t, hrun, hrest, hlink'⟩ := ih hlink (fun n => clock (n + 1)) hm.2
    refine ⟨t, hrun, ?_, hlink'⟩
    rw [filterValues, filterValues]
    exact congrArg₂ (· ++ ·) hout hrest

theorem linked_updates (h : Linked now o₁ o₂ s₁ s₂) (clock : Nat → Tick) (updates : List Update)
    (hm : Machine.Meets (valueStep o₁) Clear (now, s₁)
      (Machine.timed clock (updates.flatMap (·.values)))) :
    ∃ t, Machine.run (valueStep o₁) (now, s₁)
          (Machine.timed clock (updates.flatMap (·.values))) =
        (t, (filterUpdates o₁ (fun n => (clock n).reading) s₁ updates).1) ∧
      (filterUpdates o₁ (fun n => (clock n).reading) s₁ updates).2 =
        (filterUpdates o₂ (fun n => (clock n).reading) s₂ updates).2 ∧
      Linked t o₁ o₂ (filterUpdates o₁ (fun n => (clock n).reading) s₁ updates).1
        (filterUpdates o₂ (fun n => (clock n).reading) s₂ updates).1 := by
  induction updates generalizing now clock s₁ s₂ with
  | nil => exact ⟨now, rfl, rfl, h⟩
  | cons update updates ih =>
    rw [List.flatMap_cons, Machine.timed_append, Machine.meets_append] at hm
    obtain ⟨t, hrun, hout, hlink⟩ := linked_values h clock update.values hm.1
    rw [hrun] at hm
    obtain ⟨t', hrun', hrest, hlink'⟩ := ih hlink (fun n => clock (n + update.values.length)) hm.2
    refine ⟨t', ?_, ?_, hlink'⟩
    · rw [List.flatMap_cons, Machine.timed_append, Machine.run_append, hrun]
      exact hrun'
    · rw [filterUpdates, filterUpdates]
      dsimp only
      rw [hout, hrest]

/-- One delta: the same is delivered, and the maps stay linked. -/
theorem linked_broadcast (h : Linked now o₁ o₂ s₁ s₂) (b : Broadcast)
    (hm : Machine.Meets (valueStep o₁) Clear (now, s₁) b.values) :
    ∃ t, Machine.run (valueStep o₁) (now, s₁) b.values = (t, (broadcastStep o₁ s₁ b).1) ∧
      (broadcastStep o₁ s₁ b).2 = (broadcastStep o₂ s₂ b).2 ∧
      Linked t o₁ o₂ (broadcastStep o₁ s₁ b).1 (broadcastStep o₂ s₂ b).1 := by
  obtain ⟨t, hrun, hout, hlink⟩ := linked_updates h b.clock b.delta.updates hm
  refine ⟨t, hrun, ?_, hlink⟩
  rw [broadcastStep, broadcastStep, filterDelta, filterDelta]
  dsimp only
  rw [hout]

/-- In a run in which no value finds a choice that matters, every delta is filtered alike in any
two orders. -/
theorem same_deliveries (s : Subscriptions) (o₁ o₂ : List String) (bs : List Broadcast)
    (h₁ : KeyOrder o₁ s) (h₂ : KeyOrder o₂ s)
    (hm : Machine.Meets (valueStep o₁) Clear (0, s) (bs.flatMap Broadcast.values)) :
    ∀ pre b, pre ++ [b] <+: bs →
      (broadcastStep o₁ (Machine.run (broadcastStep o₁) s pre) b).2 =
        (broadcastStep o₂ (Machine.run (broadcastStep o₂) s pre) b).2 := by
  have hstart : Linked 0 o₁ o₂ s s := by
    refine ⟨h₁, h₂, Equiv.refl String, fun k => ?_⟩
    cases hk : s.lookup k with
    | none =>
      rw [Equiv.refl_apply, hk]
      exact .none
    | some a =>
      have hself : Interchangeable 0 a a := ⟨.refl a, .inr ⟨rfl, .inr rfl⟩⟩
      rw [Equiv.refl_apply, hk]
      exact .some ⟨.refl a, .inr hself⟩
  have hrun : ∀ (bs : List Broadcast) (now : Instant) (s₁ s₂ : Subscriptions),
      Linked now o₁ o₂ s₁ s₂ →
      Machine.Meets (valueStep o₁) Clear (now, s₁) (bs.flatMap Broadcast.values) →
      ∀ pre b, pre ++ [b] <+: bs →
        (broadcastStep o₁ (Machine.run (broadcastStep o₁) s₁ pre) b).2 =
          (broadcastStep o₂ (Machine.run (broadcastStep o₂) s₂ pre) b).2 := by
    intro bs
    induction bs with
    | nil =>
      intro now s₁ s₂ _ _ pre b hp
      exact absurd (List.prefix_nil.mp hp) (by simp)
    | cons b₀ bs ih =>
      intro now s₁ s₂ hlink hm pre b hp
      rw [List.flatMap_cons, Machine.meets_append] at hm
      obtain ⟨t, hstep, hout, hlink'⟩ := linked_broadcast hlink b₀ hm.1
      rw [hstep] at hm
      cases pre with
      | nil =>
        obtain ⟨rfl, -⟩ := List.cons_prefix_cons.mp hp
        exact hout
      | cons b₁ pre =>
        obtain ⟨rfl, hp'⟩ := List.cons_prefix_cons.mp hp
        exact ih t _ _ hlink' hm.2 pre b hp'
  exact hrun bs 0 s s hstart hm

end

/-- The same path for two vessels. -/
def twoVessels : Subscriptions :=
  HashMap.collect [("a:x", ActiveSubscription.new "a" "x" 1000 .fixed 0),
    ("b:x", ActiveSubscription.new "b" "x" 1000 .fixed 0)]

def once (values : List PathValue) : Delta :=
  Delta.withContext "a" [{ source := Source.internal, timestamp := 0, values := values }]

theorem same_deliveries_two :
    let b : Broadcast := ⟨once [⟨"x", .null⟩], fun _ => ⟨0, 0⟩⟩
    ∀ pre b', pre ++ [b'] <+: [b] →
      (broadcastStep ["a:x", "b:x"] (Machine.run (broadcastStep ["a:x", "b:x"]) twoVessels pre)
          b').2 =
        (broadcastStep ["b:x", "a:x"] (Machine.run (broadcastStep ["b:x", "a:x"]) twoVessels pre)
          b').2 := by
  have horder : ∀ key, key = "a:x" ∨ key = "b:x" ↔ key ∈ twoVessels := by
    intro key
    have hempty : key ∉ (∅ : Subscriptions) := Finmap.notMem_empty
    rw [twoVessels, HashMap.collect, List.foldl_cons, List.foldl_cons, List.foldl_nil,
      Finmap.mem_insert, Finmap.mem_insert, or_iff_left hempty, or_comm]
  have hfresh : ∀ k a, twoVessels.lookup k = some a →
      ∃ context, a = ActiveSubscription.new context "x" 1000 .fixed 0 := by
    intro k a hk
    rw [twoVessels, HashMap.collect, List.foldl_cons, List.foldl_cons, List.foldl_nil,
      HashMap.lookup_insert, HashMap.lookup_insert, Finmap.lookup_empty] at hk
    split_ifs at hk
    · exact ⟨"b", (Option.some.inj hk).symm⟩
    · exact ⟨"a", (Option.some.inj hk).symm⟩
  refine same_deliveries twoVessels ["a:x", "b:x"] ["b:x", "a:x"]
    [⟨once [⟨"x", .null⟩], fun _ => ⟨0, 0⟩⟩] ⟨by decide, fun key => ?_⟩ ⟨by decide, fun key => ?_⟩
    ⟨⟨le_rfl, ?_⟩, trivial⟩
  · rw [← horder]
    simp
  · rw [← horder, or_comm]
    simp
  · intro k a k' a' hk hk' _ _
    obtain ⟨c, rfl⟩ := hfresh k a hk
    obtain ⟨c', rfl⟩ := hfresh k' a' hk'
    exact .inr ⟨⟨fun _ => rfl, rfl, rfl⟩, .inr ⟨rfl, .inr rfl⟩⟩

/-- Two subscriptions that want the same value: if the throttled one takes it, the next value of
the delta is held back. -/
theorem order_matters :
    let s : Subscriptions := HashMap.collect [("a:x", ActiveSubscription.new "a" "x" 0 .instant 0),
      ("a:*", ActiveSubscription.new "a" "*" 1000 .fixed 0)]
    let b : Broadcast := ⟨once [⟨"x", .null⟩, ⟨"y", .null⟩], fun n => ⟨n, n⟩⟩
    ((broadcastStep ["a:*", "a:x"] s b).2.flatMap Delta.pathValues).map (·.path) = ["x"] ∧
      ((broadcastStep ["a:x", "a:*"] s b).2.flatMap Delta.pathValues).map (·.path) =
        ["x", "y"] := by
  decide +kernel

end SignalK.HashOrder

import Mathlib.Data.List.Induction
import Mathlib.Logic.Function.Basic
import SignalK.Lib.Machine

/-! Episodes of keyed activity. A key that becomes active takes a fresh id and keeps it
until it is cleared; the clear reports that id once more. -/
namespace Episode
variable {κ ι : Type*}

structure Report (κ ι : Type*) where
  key : κ
  active : Bool
  id : ι
  deriving DecidableEq

inductive Event (κ ι : Type*) where
  | raise (key : κ) (fresh : ι)
  | clear (key : κ) (own : ι)

def Event.fresh : Event κ ι → Option ι
  | .raise _ fresh => some fresh
  | .clear _ _ => none

/-- The live id of each key; a clear without one reports an id of its own. -/
def step [DecidableEq κ] (live : κ → Option ι) :
    Event κ ι → (κ → Option ι) × List (Report κ ι)
  | .raise key fresh =>
    let id := (live key).getD fresh
    (Function.update live key (some id), [⟨key, true, id⟩])
  | .clear key own => (Function.update live key none, [⟨key, false, (live key).getD own⟩])

def Uncleared (key : κ) (reports : List (Report κ ι)) : Prop :=
  ∀ r ∈ reports, r.key = key → r.active = true

/-- One id for all reports of an episode with the clear that ends it, and different ids
for different episodes. -/
structure Identified (reports : List (Report κ ι)) : Prop where
  same : ∀ l₁ a l₂ b l₃, reports = l₁ ++ a :: (l₂ ++ b :: l₃) → a.active = true →
    b.key = a.key → Uncleared a.key l₂ → b.id = a.id
  distinct : ∀ l₁ a l₂ b l₃, reports = l₁ ++ a :: (l₂ ++ b :: l₃) → a.active = true →
    b.active = true → ¬ (b.key = a.key ∧ Uncleared a.key l₂) → b.id ≠ a.id

/-- The live ids are those of the episodes that no clear has ended. -/
structure Inv (live : κ → Option ι) (h : List (Report κ ι)) : Prop where
  identified : Identified h
  tracks : ∀ l₁ a l₂, h = l₁ ++ a :: l₂ → a.active = true →
    ∀ k, live k = some a.id ↔ k = a.key ∧ Uncleared a.key l₂
  sourced : ∀ k i, live k = some i → ∃ a ∈ h, a.active = true ∧ a.id = i

theorem uncleared_append {key : κ} {l : List (Report κ ι)} {b : Report κ ι} :
    Uncleared key (l ++ [b]) ↔ Uncleared key l ∧ (b.key = key → b.active = true) := by
  simp [Uncleared, or_imp, forall_and]

theorem inv_nil : Inv (fun _ : κ => (none : Option ι)) [] :=
  ⟨⟨by simp, by simp⟩, by simp, by simp⟩

/-- Where a report stands in a history with one more at its end. -/
theorem split_append {h l₁ l₂ : List (Report κ ι)} {a b : Report κ ι}
    (he : h ++ [b] = l₁ ++ a :: l₂) :
    (l₂ = [] ∧ a = b ∧ h = l₁) ∨ ∃ l₃, l₂ = l₃ ++ [b] ∧ h = l₁ ++ a :: l₃ := by
  induction l₂ using List.reverseRecOn with
  | nil =>
    obtain ⟨hh, hb⟩ := List.append_inj' he rfl
    exact .inl ⟨rfl, (List.singleton_inj.mp hb).symm, hh⟩
  | append_singleton l₃ c =>
    have hassoc : h ++ [b] = (l₁ ++ a :: l₃) ++ [c] := by simpa using he
    obtain ⟨hh, hb⟩ := List.append_inj' hassoc rfl
    exact .inr ⟨l₃, by rw [List.singleton_inj.mp hb], hh⟩

theorem Inv.mem_tracks {live : κ → Option ι} {h : List (Report κ ι)} (inv : Inv live h)
    {a : Report κ ι} (ha : a ∈ h) (hact : a.active = true) {k k' : κ} (hk : live k = some a.id)
    (hk' : live k' = some a.id) : k = k' := by
  obtain ⟨l₁, l₂, rfl⟩ := List.append_of_mem ha
  have hl := ((inv.tracks l₁ a l₂ rfl hact k).mp hk).1
  have hr := ((inv.tracks l₁ a l₂ rfl hact k').mp hk').1
  rw [hl, hr]

/-- A further report keeps the history identified when it carries the live id of its
key, or one that no active report has carried. -/
theorem Inv.identified_append {live : κ → Option ι} {h : List (Report κ ι)} (inv : Inv live h)
    {b : Report κ ι} (hlive : ∀ i, live b.key = some i → b.id = i)
    (hnew : b.active = true → live b.key = none → ∀ a ∈ h, a.active = true → a.id ≠ b.id) :
    Identified (h ++ [b]) := by
  constructor
  · intro l₁ a l₂ c l₃ he hact hkey hunc
    obtain ⟨hl, -, -⟩ | ⟨l₄, hl, hh⟩ := split_append he
    · simp at hl
    obtain ⟨rfl, rfl, rfl⟩ | ⟨l₅, rfl, rfl⟩ := split_append hl.symm
    · exact hlive a.id ((inv.tracks l₁ a l₄ hh hact c.key).mpr ⟨hkey, hunc⟩)
    · exact inv.identified.same l₁ a l₂ c l₅ hh hact hkey hunc
  · intro l₁ a l₂ c l₃ he hact hc hdiff
    obtain ⟨hl, -, -⟩ | ⟨l₄, hl, hh⟩ := split_append he
    · simp at hl
    obtain ⟨rfl, rfl, rfl⟩ | ⟨l₅, rfl, rfl⟩ := split_append hl.symm
    · intro hid
      cases hk : live c.key with
      | none => exact hnew hc hk a (by simp [hh]) hact hid.symm
      | some i =>
        have hi : i = a.id := (hlive i hk).symm.trans hid
        exact hdiff ((inv.tracks l₁ a l₄ hh hact c.key).mp (hk.trans (congrArg some hi)))
    · exact inv.identified.distinct l₁ a l₂ c l₅ hh hact hc hdiff

variable [DecidableEq κ]

theorem Inv.raise {live : κ → Option ι} {h : List (Report κ ι)} (inv : Inv live h) (key : κ)
    {fresh : ι} (hf : ∀ a ∈ h, a.active = true → a.id ≠ fresh) :
    Inv (step live (.raise key fresh)).1 (h ++ (step live (.raise key fresh)).2) := by
  have hid : ∀ i, live key = some i → (live key).getD fresh = i := fun i hi => by simp [hi]
  have hnone : live key = none → (live key).getD fresh = fresh := fun hi => by simp [hi]
  simp only [step]
  generalize (live key).getD fresh = id at hid hnone ⊢
  constructor
  case identified =>
    refine inv.identified_append (fun i hi => hid i hi) ?_
    intro _ hk a ha hact
    have hfresh : id = fresh := hnone hk
    simpa [hfresh] using hf a ha hact
  case tracks =>
    intro l₁ a l₂ he hact k
    obtain ⟨rfl, rfl, rfl⟩ | ⟨l₃, rfl, rfl⟩ := split_append he
    · by_cases hk : k = key
      · simp [hk, Uncleared]
      · simp only [Function.update_of_ne hk, hk, false_and, iff_false]
        intro hlive
        obtain ⟨a, ha, hact, hia⟩ := inv.sourced k id hlive
        cases hkey : live key with
        | none => exact hf a ha hact (hia.trans (hnone hkey))
        | some i =>
          have hi : i = a.id := (hid i hkey).symm.trans hia.symm
          exact hk (inv.mem_tracks ha hact (hia ▸ hlive) (hi ▸ hkey))
    · rw [uncleared_append]
      have hold := inv.tracks l₁ a l₃ rfl hact
      by_cases hk : k = key
      · subst hk
        have hiff : id = a.id ↔ live k = some a.id := by
          cases hkey : live k with
          | none =>
            have hne := hf a (by simp) hact
            simp [hnone hkey, Ne.symm hne]
          | some i => simp [hid i hkey]
        simp [hiff, hold]
      · simp [Function.update_of_ne hk, hold]
  case sourced =>
    intro k i hki
    by_cases hk : k = key
    · subst hk
      rw [Function.update_self, Option.some.injEq] at hki
      exact ⟨⟨k, true, id⟩, by simp, rfl, hki⟩
    · rw [Function.update_of_ne hk] at hki
      obtain ⟨a, ha, hact, hia⟩ := inv.sourced k i hki
      exact ⟨a, List.mem_append_left _ ha, hact, hia⟩

theorem Inv.clear {live : κ → Option ι} {h : List (Report κ ι)} (inv : Inv live h) (key : κ)
    (own : ι) : Inv (step live (.clear key own)).1 (h ++ (step live (.clear key own)).2) := by
  simp only [step]
  constructor
  case identified =>
    refine inv.identified_append (fun i hi => ?_) (fun hb => by cases hb)
    have hi : live key = some i := hi
    simp [hi]
  case tracks =>
    intro l₁ a l₂ he hact k
    obtain ⟨rfl, rfl, rfl⟩ | ⟨l₃, rfl, rfl⟩ := split_append he
    · cases hact
    · rw [uncleared_append]
      have hold := inv.tracks l₁ a l₃ rfl hact
      by_cases hk : k = key
      · subst hk
        simp only [Function.update_self, false_iff, reduceCtorEq]
        intro hc
        exact absurd (hc.2.2 hc.1) (by simp)
      · rw [Function.update_of_ne hk, hold]
        refine and_congr_right fun hka => ?_
        have hne : ¬ key = a.key := fun he => hk (hka.trans he.symm)
        simp [hne]
  case sourced =>
    intro k i hki
    by_cases hk : k = key
    · simp [hk] at hki
    · rw [Function.update_of_ne hk] at hki
      obtain ⟨a, ha, hact, hia⟩ := inv.sourced k i hki
      exact ⟨a, List.mem_append_left _ ha, hact, hia⟩

/-- An active report carries an id that was live or fresh. -/
theorem Inv.id_of_step {live : κ → Option ι} {h : List (Report κ ι)} (inv : Inv live h)
    {e : Event κ ι} {a : Report κ ι} (ha : a ∈ (step live e).2) (hact : a.active = true) :
    e.fresh = some a.id ∨ ∃ b ∈ h, b.active = true ∧ b.id = a.id := by
  cases e with
  | clear key own =>
    rw [List.mem_singleton.mp ha] at hact
    cases hact
  | raise key fresh =>
    rw [List.mem_singleton.mp ha]
    cases hk : live key with
    | none => exact .inl rfl
    | some i => exact .inr (inv.sourced key i hk)

/-- With fresh ids all different, every run is identified. -/
theorem exec_inv {live : κ → Option ι} {h : List (Report κ ι)} {es : List (Event κ ι)}
    (inv : Inv live h) (hn : (es.filterMap Event.fresh).Nodup)
    (hf : ∀ a ∈ h, a.active = true → a.id ∉ es.filterMap Event.fresh) :
    Inv (Machine.exec step live es).1 (h ++ (Machine.exec step live es).2) := by
  induction es generalizing live h with
  | nil => simpa [Machine.exec] using inv
  | cons e es ih =>
    rw [Machine.exec, ← List.append_assoc]
    have hstep : Inv (step live e).1 (h ++ (step live e).2) := by
      cases e with
      | raise key fresh =>
        exact inv.raise key fun a ha hact he => hf a ha hact (by simp [Event.fresh, he])
      | clear key own => exact inv.clear key own
    have htail : ∀ i ∈ es.filterMap Event.fresh, i ∈ (e :: es).filterMap Event.fresh := by
      intro i hi
      obtain ⟨f, hfm, hfi⟩ := List.mem_filterMap.mp hi
      exact List.mem_filterMap.mpr ⟨f, List.mem_cons_of_mem e hfm, hfi⟩
    apply ih hstep
    · cases hfe : e.fresh with
      | none => simpa [List.filterMap_cons, hfe] using hn
      | some i => exact (List.nodup_cons.mp (by simpa [List.filterMap_cons, hfe] using hn)).2
    · intro a ha hact hmem
      cases List.mem_append.mp ha with
      | inl ha => exact hf a ha hact (htail a.id hmem)
      | inr ha =>
        obtain hfe | ⟨b, hb, hbact, hba⟩ := inv.id_of_step ha hact
        · rw [List.filterMap_cons, hfe] at hn
          exact (List.nodup_cons.mp hn).1 hmem
        · exact hf b hb hbact (htail b.id (hba ▸ hmem))

theorem exec_identified {es : List (Event κ ι)} (hn : (es.filterMap Event.fresh).Nodup) :
    Identified (Machine.exec step (fun _ => none) es).2 :=
  (exec_inv inv_nil hn (fun _ ha => nomatch ha)).identified

end Episode

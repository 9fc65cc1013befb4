import Mathlib.Order.Lattice
import Mathlib.Data.List.Induction

/-! A register offered a sequence of writes keeps one of them: a write replaces
the current one when its rank is not larger. Kept online, one comparison at a
time, this is the last write among those of least rank in the whole sequence. -/
namespace Register
variable {ω P : Type*} [LinearOrder P] (rank : ω → P)

def offer (cur : Option ω) (w : ω) : Option ω :=
  match cur with
  | none => some w
  | some c => if rank w ≤ rank c then some w else some c

/-- The last write among those whose rank is the least of all. -/
def winner (ws : List ω) : Option ω :=
  (ws.filter fun w => decide (∀ v ∈ ws, rank w ≤ rank v)).getLast?

/-- The winner as a position: nothing before it ranks lower, everything after it
ranks strictly higher. -/
def IsWinner (ws : List ω) (c : ω) : Prop :=
  ∃ l r, ws = l ++ c :: r ∧ (∀ v ∈ l, rank c ≤ rank v) ∧ ∀ v ∈ r, rank c < rank v

theorem IsWinner.winner_eq {ws : List ω} {c : ω} (h : IsWinner rank ws c) :
    winner rank ws = some c := by
  obtain ⟨l, r, rfl, hl, hr⟩ := h
  have hc : ∀ v ∈ l ++ c :: r, rank c ≤ rank v := by
    intro v hv
    rcases List.mem_append.mp hv with hv | hv
    · exact hl v hv
    · rcases List.mem_cons.mp hv with rfl | hv
      · exact le_refl _
      · exact le_of_lt (hr v hv)
  have hnone : r.filter (fun w => decide (∀ v ∈ l ++ c :: r, rank w ≤ rank v)) = [] := by
    rw [List.filter_eq_nil_iff]
    intro w hw hle
    exact absurd (of_decide_eq_true hle c (by simp)) (not_le_of_gt (hr w hw))
  have hkeep : decide (∀ v ∈ l ++ c :: r, rank c ≤ rank v) = true := decide_eq_true hc
  simp only [winner, List.filter_append, List.filter_cons, hkeep, if_true, hnone]
  simp

theorem IsWinner.offer {ws : List ω} {c : ω} (h : IsWinner rank ws c) (w : ω) :
    ∃ d, Register.offer rank (some c) w = some d ∧ IsWinner rank (ws ++ [w]) d := by
  obtain ⟨l, r, rfl, hl, hr⟩ := h
  by_cases hw : rank w ≤ rank c
  · refine ⟨w, by simp [Register.offer, hw], l ++ c :: r, [], by simp, ?_, by simp⟩
    intro v hv
    rcases List.mem_append.mp hv with hv | hv
    · exact le_trans hw (hl v hv)
    · rcases List.mem_cons.mp hv with rfl | hv
      · exact hw
      · exact le_trans hw (le_of_lt (hr v hv))
  · refine ⟨c, by simp [Register.offer, hw], l, r ++ [w], by simp, hl, ?_⟩
    intro v hv
    rcases List.mem_append.mp hv with hv | hv
    · exact hr v hv
    · rw [List.mem_singleton.mp hv]
      exact lt_of_not_ge hw

theorem foldl_offer_isWinner (ws : List ω) (w : ω) :
    ∃ c, (w :: ws).foldl (offer rank) none = some c ∧ IsWinner rank (w :: ws) c := by
  induction ws using List.reverseRecOn with
  | nil => exact ⟨w, rfl, [], [], by simp⟩
  | append_singleton ws v ih =>
    obtain ⟨c, hc, hw⟩ := ih
    obtain ⟨d, hd, hv⟩ := hw.offer rank v
    refine ⟨d, ?_, hv⟩
    rw [← List.cons_append, List.foldl_append, hc]
    exact hd

/-- The online rule computes the winner of the whole sequence. -/
theorem foldl_offer (ws : List ω) : ws.foldl (offer rank) none = winner rank ws := by
  cases ws with
  | nil => rfl
  | cons w ws =>
    obtain ⟨c, hc, hw⟩ := foldl_offer_isWinner rank ws w
    rw [hc, hw.winner_eq]

theorem foldl_offer_map {α : Type*} (f : α → ω) (as : List α) (cur : Option α) :
    (as.map f).foldl (offer rank) (cur.map f) =
      (as.foldl (offer fun a => rank (f a)) cur).map f := by
  induction as generalizing cur with
  | nil => rfl
  | cons a as ih =>
    have ho : offer rank (cur.map f) (f a) = (offer (fun a => rank (f a)) cur a).map f := by
      cases cur with
      | none => rfl
      | some c => by_cases h : rank (f a) ≤ rank (f c) <;> simp [offer, h]
    rw [List.map_cons, List.foldl_cons, List.foldl_cons, ho, ih]

/-- The winner of renamed writes is the winner renamed. -/
theorem winner_map {α : Type*} (f : α → ω) (as : List α) :
    winner rank (as.map f) = (winner (fun a => rank (f a)) as).map f := by
  rw [← foldl_offer, ← foldl_offer]
  exact foldl_offer_map rank f as none

end Register

/-! Folds over keyed writes: a key sees only its own writes. -/
namespace Keyed
variable {σ ω κ β : Type*}

/-- An observation that only some writes change, folded over those. -/
theorem foldl_filter (get : σ → β) (p : ω → Bool) (upd : β → ω → β) {step : σ → ω → σ}
    {Inv : σ → Prop} (hkeep : ∀ s w, Inv s → Inv (step s w))
    (hstep : ∀ s w, Inv s → get (step s w) = if p w then upd (get s) w else get s)
    {s : σ} (hs : Inv s) (ws : List ω) :
    get (ws.foldl step s) = (ws.filter p).foldl upd (get s) := by
  induction ws generalizing s with
  | nil => rfl
  | cons w ws ih =>
    rw [List.foldl_cons, ih (hkeep s w hs), hstep s w hs]
    cases hp : p w <;> simp [hp]

/-- A function of two keys changed at one pair. -/
def set₂ {α γ : Type*} [DecidableEq α] [DecidableEq κ] (f : α → κ → γ) (a : α) (b : κ)
    (c : γ) : α → κ → γ :=
  fun x y => if x = a ∧ y = b then c else f x y

@[simp] theorem set₂_self {α γ : Type*} [DecidableEq α] [DecidableEq κ] (f : α → κ → γ) (a : α)
    (b : κ) (c : γ) : set₂ f a b c a b = c := by
  simp [set₂]

theorem set₂_apply {α γ : Type*} [DecidableEq α] [DecidableEq κ] (f : α → κ → γ) (a : α) (b : κ)
    (c : γ) (x : α) (y : κ) : set₂ f a b c x y = if a = x ∧ b = y then c else f x y := by
  simp only [set₂, eq_comm]

/-- Overwriting keeps the last write, or the old content when there is none. -/
theorem foldl_overwrite (f : ω → β) (b : β) (ws : List ω) :
    ws.foldl (fun _ w => f w) b = (ws.getLast?.map f).getD b := by
  induction ws generalizing b with
  | nil => rfl
  | cons w ws ih =>
    rw [List.foldl_cons, ih]
    cases ws <;> simp [List.getLast?_cons]

section
variable {α γ : Type*} [DecidableEq α] [DecidableEq κ] (a : ω → α) (b : ω → κ) (c : ω → γ)

theorem foldl_set₂_ne {x : α} {y : κ} {ws : List ω} (h : ∀ w ∈ ws, a w = x → b w ≠ y)
    (f : α → κ → γ) : ws.foldl (fun f w => set₂ f (a w) (b w) (c w)) f x y = f x y := by
  induction ws generalizing f with
  | nil => rfl
  | cons w ws ih =>
    have hw := h w List.mem_cons_self
    rw [List.foldl_cons, ih fun v hv => h v (List.mem_cons_of_mem w hv), set₂_apply,
      if_neg fun hk => hw hk.1 hk.2]

/-- Writes leave the last one of a key, or its old content. -/
theorem foldl_set₂_last (x : α) (y : κ) (ws : List ω) (f : α → κ → γ) :
    ws.foldl (fun f w => set₂ f (a w) (b w) (c w)) f x y =
      ((ws.filter fun w => decide (a w = x ∧ b w = y)).getLast?.map c).getD (f x y) := by
  induction ws using List.reverseRecOn with
  | nil => rfl
  | append_singleton ws w ih =>
    rw [List.foldl_append, List.foldl_cons, List.foldl_nil, set₂_apply, List.filter_append]
    by_cases hk : a w = x ∧ b w = y
    · simp [hk]
    · rw [if_neg hk, ih]
      simp [hk]

/-- Writes to a key that all carry one value leave that value. -/
theorem foldl_set₂_eq {x : α} {y : κ} {z : γ} {ws : List ω}
    (h : ∀ w ∈ ws, a w = x → b w = y → c w = z) (f : α → κ → γ)
    (hf : f x y = z ∨ ∃ w ∈ ws, a w = x ∧ b w = y) :
    ws.foldl (fun f w => set₂ f (a w) (b w) (c w)) f x y = z := by
  induction ws generalizing f with
  | nil => simpa using hf
  | cons w ws ih =>
    refine ih (fun v hv => h v (List.mem_cons_of_mem w hv)) _ ?_
    by_cases hk : a w = x ∧ b w = y
    · left
      simp only [set₂_apply, if_pos hk]
      exact h w List.mem_cons_self hk.1 hk.2
    · simp only [set₂_apply, if_neg hk]
      refine hf.imp_right fun hex => ?_
      obtain ⟨v, hv, hkey⟩ := hex
      cases List.mem_cons.mp hv with
      | inl he => exact absurd (he ▸ hkey) hk
      | inr hv => exact ⟨v, hv, hkey⟩

end

end Keyed

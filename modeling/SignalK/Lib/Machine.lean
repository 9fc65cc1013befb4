import Mathlib.Data.List.Basic

/-! Runs of a deterministic machine whose nondeterminism (clock readings, orders
of iteration) is part of its events. Steps may emit output. -/
namespace Machine
variable {σ ε ω : Type*}

/-- The state after a run and everything emitted on the way, oldest first. -/
def exec (step : σ → ε → σ × List ω) : σ → List ε → σ × List ω
  | s, [] => (s, [])
  | s, e :: es => ((exec step (step s e).1 es).1, (step s e).2 ++ (exec step (step s e).1 es).2)

def run (step : σ → ε → σ × List ω) (s : σ) (es : List ε) : σ :=
  (exec step s es).1

/-- Every step of the run meets a condition on its event and the state before it. -/
def Meets (step : σ → ε → σ × List ω) (cond : σ → ε → Prop) : σ → List ε → Prop
  | _, [] => True
  | s, e :: es => cond s e ∧ Meets step cond (step s e).1 es

instance decidableMeets (step : σ → ε → σ × List ω) (cond : σ → ε → Prop)
    [∀ s e, Decidable (cond s e)] : ∀ s es, Decidable (Meets step cond s es)
  | _, [] => isTrue trivial
  | s, e :: es =>
    have := decidableMeets step cond (step s e).1 es
    inferInstanceAs (Decidable (cond s e ∧ Meets step cond (step s e).1 es))

theorem exec_append (step : σ → ε → σ × List ω) (s : σ) (es fs : List ε) :
    exec step s (es ++ fs) =
      ((exec step (exec step s es).1 fs).1,
        (exec step s es).2 ++ (exec step (exec step s es).1 fs).2) := by
  induction es generalizing s with
  | nil => simp [exec]
  | cons e es ih => simp [exec, ih, List.append_assoc]

theorem run_append (step : σ → ε → σ × List ω) (s : σ) (es fs : List ε) :
    run step s (es ++ fs) = run step (run step s es) fs := by
  rw [run, exec_append]
  rfl

theorem run_eq_foldl (step : σ → ε → σ × List ω) (s : σ) (es : List ε) :
    run step s es = es.foldl (fun s e => (step s e).1) s := by
  induction es generalizing s with
  | nil => rfl
  | cons e es ih => exact ih _

/-- What a step emits does not matter for the state that a run leads to. -/
theorem run_congr {ω' : Type*} {step : σ → ε → σ × List ω} {step' : σ → ε → σ × List ω'}
    (h : ∀ s e, (step s e).1 = (step' s e).1) (s : σ) (es : List ε) :
    run step s es = run step' s es := by
  simp only [run_eq_foldl, h]

theorem meets_true (step : σ → ε → σ × List ω) (s : σ) (es : List ε) :
    Meets step (fun _ _ => True) s es := by
  induction es generalizing s with
  | nil => trivial
  | cons e es ih => exact ⟨trivial, ih _⟩

theorem meets_append {step : σ → ε → σ × List ω} {cond : σ → ε → Prop} {s : σ}
    {es fs : List ε} :
    Meets step cond s (es ++ fs) ↔ Meets step cond s es ∧ Meets step cond (run step s es) fs := by
  induction es generalizing s with
  | nil => exact ⟨fun h => ⟨trivial, h⟩, fun h => h.2⟩
  | cons e es ih => exact (and_congr_right fun _ => ih).trans and_assoc.symm

/-- What every step of a run meets is met in every state on the way. -/
theorem meets_iff_prefix {step : σ → ε → σ × List ω} {cond : σ → ε → Prop} {s : σ}
    {es : List ε} :
    Meets step cond s es ↔ ∀ fs e, fs ++ [e] <+: es → cond (run step s fs) e := by
  constructor
  · intro h fs e hp
    obtain ⟨gs, rfl⟩ := hp
    exact (meets_append.mp (meets_append.mp h).1).2.1
  · induction es generalizing s with
    | nil => exact fun _ => trivial
    | cons e es ih =>
      intro h
      refine ⟨h [] e (List.prefix_append [e] es), ih fun fs f hp => ?_⟩
      exact h (e :: fs) f (List.cons_prefix_cons.mpr ⟨rfl, hp⟩)

theorem meets_of_forall {step : σ → ε → σ × List ω} {cond : σ → ε → Prop} {s : σ} {es : List ε}
    (h : ∀ e ∈ es, ∀ s, cond s e) : Meets step cond s es := by
  induction es generalizing s with
  | nil => trivial
  | cons e es ih =>
    exact ⟨h e List.mem_cons_self s, ih fun f hf => h f (List.mem_cons_of_mem e hf)⟩

theorem meets_congr {step : σ → ε → σ × List ω} {cond cond' : σ → ε → Prop}
    (h : ∀ s e, cond s e ↔ cond' s e) (s : σ) (es : List ε) :
    Meets step cond s es ↔ Meets step cond' s es := by
  induction es generalizing s with
  | nil => exact Iff.rfl
  | cons e es ih => exact and_congr (h s e) (ih _)

/-- A machine whose every step is a run of a finer one. -/
theorem exec_flatMap {ε' : Type*} {step : σ → ε → σ × List ω} {step' : σ → ε' → σ × List ω}
    {f : ε → List ε'} (h : ∀ s e, step s e = exec step' s (f e)) (s : σ) (es : List ε) :
    exec step s es = exec step' s (es.flatMap f) := by
  induction es generalizing s with
  | nil => rfl
  | cons e es ih => rw [List.flatMap_cons, exec_append, exec, ih, h]

/-- Pair each event with the clock reading it sees. -/
def timed {τ : Type*} : (Nat → τ) → List ε → List (τ × ε)
  | _, [] => []
  | clock, e :: es => (clock 0, e) :: timed (fun n => clock (n + 1)) es

theorem timed_append {τ : Type*} (clock : Nat → τ) (es fs : List ε) :
    timed clock (es ++ fs) = timed clock es ++ timed (fun n => clock (n + es.length)) fs := by
  induction es generalizing clock with
  | nil => rfl
  | cons e es ih =>
    have hs : ∀ n, n + es.length + 1 = n + (es.length + 1) := fun n => by omega
    simp [timed, ih, hs]

theorem timed_snd {τ : Type*} (clock : Nat → τ) (es : List ε) :
    (timed clock es).map Prod.snd = es := by
  induction es generalizing clock with
  | nil => rfl
  | cons e es ih => simp [timed, ih]

theorem timed_fst {τ : Type*} (clock : Nat → τ) (es : List ε) :
    ∀ e ∈ timed clock es, ∃ n, e.1 = clock n := by
  induction es generalizing clock with
  | nil => exact List.forall_mem_nil _
  | cons e es ih =>
    refine List.forall_mem_cons.mpr ⟨⟨0, rfl⟩, fun e' he' => ?_⟩
    obtain ⟨n, hn⟩ := ih _ e' he'
    exact ⟨n + 1, hn⟩

theorem timed_pairwise {τ : Type*} {clock : Nat → τ} (h : Function.Injective clock)
    (es : List ε) : (timed clock es).Pairwise fun a b => a.1 ≠ b.1 := by
  induction es generalizing clock with
  | nil => exact .nil
  | cons e es ih =>
    refine .cons (fun e' he' => ?_) (ih fun i j hij => Nat.succ.inj (h hij))
    obtain ⟨n, hn⟩ := timed_fst _ es e' he'
    intro heq
    exact absurd (h (heq.trans hn)) (by omega)

/-- Nothing is emitted when no step emits anything. -/
theorem exec_silent_iff {step : σ → ε → σ × List ω} {s : σ} {es : List ε} :
    (exec step s es).2 = [] ↔ Meets step (fun s e => (step s e).2 = []) s es := by
  induction es generalizing s with
  | nil => exact iff_of_true rfl trivial
  | cons e es ih =>
    rw [exec, List.append_eq_nil_iff, ih]
    exact Iff.rfl

/-- A clock that reads `t` and then what another one reads. -/
theorem exists_timed_cons {τ : Type*} (t : τ) (clock : Nat → τ) :
    ∃ clock' : Nat → τ, ∀ (e : ε) (es : List ε),
      timed clock' (e :: es) = (t, e) :: timed clock es :=
  ⟨fun n => if n = 0 then t else clock (n - 1), fun e es => by simp [timed]⟩

/-- What every step that meets the condition preserves holds at the end of a
run whose steps all meet it; the history is what has been emitted so far. -/
theorem exec_inv {step : σ → ε → σ × List ω} {cond : σ → ε → Prop}
    {Inv : σ → List ω → Prop}
    (hstep : ∀ s h e, Inv s h → cond s e → Inv (step s e).1 (h ++ (step s e).2))
    {s : σ} {h : List ω} {es : List ε} (hs : Inv s h) (hm : Meets step cond s es) :
    Inv (exec step s es).1 (h ++ (exec step s es).2) := by
  induction es generalizing s h with
  | nil => simpa [exec] using hs
  | cons e es ih =>
    have hn := ih (hstep s h e hs hm.1) hm.2
    simpa [exec, List.append_assoc] using hn

/-- What every step that meets the condition emits is what the run emits. -/
theorem emitted_of_meets {step : σ → ε → σ × List ω} {cond : σ → ε → Prop} {Q : ω → Prop}
    (hstep : ∀ s e, cond s e → ∀ o ∈ (step s e).2, Q o) {s : σ} {es : List ε}
    (hm : Meets step cond s es) : ∀ o ∈ (exec step s es).2, Q o := by
  induction es generalizing s with
  | nil => exact fun o ho => nomatch ho
  | cons e es ih =>
    intro o ho
    cases List.mem_append.mp ho with
    | inl h => exact hstep s e hm.1 o h
    | inr h => exact ih hm.2 o h

/-- The rule for invariants of the state alone. -/
theorem run_inv {step : σ → ε → σ × List ω} {cond : σ → ε → Prop} {Inv : σ → Prop}
    (hstep : ∀ s e, Inv s → cond s e → Inv (step s e).1)
    {s : σ} {es : List ε} (hs : Inv s) (hm : Meets step cond s es) : Inv (run step s es) := by
  have hi : ∀ s (_ : List ω) e, Inv s → cond s e → Inv (step s e).1 := fun s _ e => hstep s e
  exact exec_inv hi (h := []) hs hm

/-- A condition that follows from another in every state the invariant allows. -/
theorem meets_of_inv {step : σ → ε → σ × List ω} {cond cond' : σ → ε → Prop} {Inv : σ → Prop}
    (hstep : ∀ s e, Inv s → cond s e → Inv (step s e).1)
    (himp : ∀ s e, Inv s → cond s e → cond' s e) {s : σ} {es : List ε} (hs : Inv s)
    (hm : Meets step cond s es) : Meets step cond' s es := by
  induction es generalizing s with
  | nil => trivial
  | cons e es ih => exact ⟨himp s e hs hm.1, ih (hstep s e hs hm.1) hm.2⟩

section
variable {step : σ → ε → σ × List ω} {cond : σ → ε → Prop} {Inv Good : σ → Prop}
  {legal : ε → Prop}

/-- An invariant and a property that rest on each other hold all along a run whose
steps meet the property's condition. -/
theorem always_of_meets
    (hinv : ∀ s e, Inv s → legal e → Good s → Good (step s e).1 → Inv (step s e).1)
    (hgood : ∀ s e, Inv s → legal e → Good s → (Good (step s e).1 ↔ cond s e))
    {s : σ} {es : List ε} (hs : Inv s) (hg : Good s) (hl : ∀ e ∈ es, legal e)
    (hm : Meets step cond s es) : ∀ fs, fs <+: es → Inv (run step s fs) ∧ Good (run step s fs) := by
  induction es generalizing s with
  | nil =>
    intro fs hf
    rw [List.prefix_nil.mp hf]
    exact ⟨hs, hg⟩
  | cons e es ih =>
    intro fs hf
    cases fs with
    | nil => exact ⟨hs, hg⟩
    | cons f fs =>
      obtain ⟨rfl, htail⟩ := List.cons_prefix_cons.mp hf
      have he := hl f List.mem_cons_self
      have hg' := (hgood s f hs he hg).mpr hm.1
      exact ih (hinv s f hs he hg hg') hg' (fun a ha => hl a (List.mem_cons_of_mem f ha)) hm.2
        fs htail

/-- When each step keeps a property exactly under a condition, the property holds
all along a run exactly when every step meets the condition. -/
theorem always_iff_meets
    (hinv : ∀ s e, Inv s → legal e → Good s → Good (step s e).1 → Inv (step s e).1)
    (hgood : ∀ s e, Inv s → legal e → Good s → (Good (step s e).1 ↔ cond s e))
    {s : σ} {es : List ε} (hs : Inv s) (hg : Good s) (hl : ∀ e ∈ es, legal e) :
    (∀ fs, fs <+: es → Good (run step s fs)) ↔ Meets step cond s es := by
  refine ⟨fun h => ?_, fun hm fs hf => (always_of_meets hinv hgood hs hg hl hm fs hf).2⟩
  induction es generalizing s with
  | nil => trivial
  | cons e es ih =>
    have he := hl e List.mem_cons_self
    have hg' : Good (step s e).1 := h [e] (List.prefix_append [e] es)
    refine ⟨(hgood s e hs he hg).mp hg', ?_⟩
    refine ih (hinv s e hs he hg hg') hg' (fun f hf => hl f (List.mem_cons_of_mem e hf)) ?_
    intro fs hf
    exact h (e :: fs) (List.cons_prefix_cons.mpr ⟨rfl, hf⟩)

end

end Machine

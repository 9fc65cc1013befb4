import SignalK.Lib.Machine

/-! Calls in two steps. The first step of a call changes the shared data and leaves work for the
second; between the two, other calls take theirs. -/
namespace Deferred
variable {σ γ ρ : Type*}

/-- The shared data and the work of the calls between their steps, in the order they began. -/
structure State (σ ρ : Type*) where
  shared : σ
  underWay : List ρ

inductive Event (γ : Type*) where
  | call (c : γ)
  | finish (i : Nat)

/-- The calls of a run, in the order they began. -/
def calls : List (Event γ) → List γ
  | [] => []
  | .call c :: es => c :: calls es
  | .finish _ :: es => calls es

def step (first : σ → γ → σ × ρ) (second : σ → ρ → σ) (s : State σ ρ) :
    Event γ → State σ ρ × List Empty
  | .call c => (⟨(first s.shared c).1, s.underWay ++ [(first s.shared c).2]⟩, [])
  | .finish i =>
    match s.underWay[i]? with
    | some r => (⟨second s.shared r, s.underWay.eraseIdx i⟩, [])
    | none => (s, [])

/-- Both steps of a call with nothing in between. -/
def alone (first : σ → γ → σ × ρ) (second : σ → ρ → σ) (s : σ) (c : γ) : σ :=
  second (first s c).1 (first s c).2

/-- The data once the calls under way finish in the order they began. -/
def settled (second : σ → ρ → σ) (s : State σ ρ) : σ :=
  s.underWay.foldl second s.shared

/-- A call finishes before an earlier one only if the work they have left is independent. -/
def InOrder (independent : ρ → ρ → Prop) (s : State σ ρ) : Event γ → Prop
  | .call _ => True
  | .finish i => ∀ r ∈ s.underWay[i]?, ∀ r' ∈ s.underWay.take i, independent r' r

instance (independent : ρ → ρ → Prop) [∀ r r', Decidable (independent r r')] (s : State σ ρ) :
    ∀ e : Event γ, Decidable (InOrder independent s e)
  | .call _ => isTrue trivial
  | .finish i => inferInstanceAs (Decidable (∀ r ∈ s.underWay[i]?, ∀ r' ∈ _, independent r' r))

/-- Work that is independent of all that comes before it can be done first. -/
theorem foldl_eraseIdx {second : σ → ρ → σ} {independent : ρ → ρ → Prop}
    (hcomm : ∀ r r', independent r r' →
      ∀ s, second (second s r) r' = second (second s r') r)
    {rs : List ρ} {i : Nat} {r : ρ} (hr : rs[i]? = some r)
    (hind : ∀ r' ∈ rs.take i, independent r' r) (s : σ) :
    (rs.eraseIdx i).foldl second (second s r) = rs.foldl second s := by
  induction rs generalizing i s with
  | nil => simp at hr
  | cons r₀ rs ih =>
    cases i with
    | zero =>
      obtain rfl : r₀ = r := by simpa using hr
      rfl
    | succ i =>
      have hr' : rs[i]? = some r := by simpa using hr
      have hhead : independent r₀ r := hind r₀ (by simp)
      have htail : ∀ r' ∈ rs.take i, independent r' r := fun r' h => hind r' (by simp [h])
      calc
        ((r₀ :: rs).eraseIdx (i + 1)).foldl second (second s r)
            = (rs.eraseIdx i).foldl second (second (second s r) r₀) := rfl
        _ = (rs.eraseIdx i).foldl second (second (second s r₀) r) := by rw [hcomm r₀ r hhead s]
        _ = rs.foldl second (second s r₀) := ih hr' htail _

theorem settled_finish {first : σ → γ → σ × ρ} {second : σ → ρ → σ}
    {independent : ρ → ρ → Prop}
    (hcomm : ∀ r r', independent r r' →
      ∀ s, second (second s r) r' = second (second s r') r)
    {s : State σ ρ} {i : Nat}
    (h : InOrder independent s (.finish i : Event γ)) :
    settled second (step first second s (.finish i)).1 = settled second s := by
  rw [step]
  cases hr : s.underWay[i]? with
  | none => rfl
  | some r => exact foldl_eraseIdx hcomm hr (h r hr) s.shared

/-- A first step that no work left by others touches is as good as one after that work. -/
theorem first_foldl {first : σ → γ → σ × ρ} {second : σ → ρ → σ} {c : γ}
    (hfirst : ∀ s r, first (second s r) c = (second (first s c).1 r, (first s c).2))
    (rs : List ρ) (s : σ) :
    first (rs.foldl second s) c = (rs.foldl second (first s c).1, (first s c).2) := by
  induction rs generalizing s with
  | nil => rfl
  | cons r rs ih => rw [List.foldl_cons, ih, hfirst, List.foldl_cons]

theorem settled_call {first : σ → γ → σ × ρ} {second : σ → ρ → σ} {c : γ}
    (hfirst : ∀ s r, first (second s r) c = (second (first s c).1 r, (first s c).2))
    (s : State σ ρ) :
    settled second (step first second s (.call c)).1 =
      alone first second (settled second s) c := by
  rw [alone, settled, settled, first_foldl hfirst, step, List.foldl_append]
  rfl

/-- What the whole calls keep holds of the settled data all along a run in which no call
overtakes another that it depends on. -/
theorem settled_inv {first : σ → γ → σ × ρ} {second : σ → ρ → σ} {independent : ρ → ρ → Prop}
    {cond : State σ ρ → Event γ → Prop} {α : Type*} {Inv : α → σ → Prop} {next : α → γ → α}
    (hcomm : ∀ r r', independent r r' →
      ∀ s, second (second s r) r' = second (second s r') r)
    (hfirst : ∀ c s r, first (second s r) c = (second (first s c).1 r, (first s c).2))
    (horder : ∀ s e, cond s e → InOrder independent s e)
    (hcall : ∀ a s c, Inv a (settled second s) → cond s (.call c) →
      Inv (next a c) (alone first second (settled second s) c))
    {a : α} {s : State σ ρ} {es : List (Event γ)} (hs : Inv a (settled second s))
    (hm : Machine.Meets (step first second) cond s es) :
    Inv ((calls es).foldl next a) (settled second (Machine.run (step first second) s es)) := by
  induction es generalizing a s with
  | nil => exact hs
  | cons e es ih =>
    cases e with
    | call c =>
      refine ih (a := next a c) ?_ hm.2
      rw [settled_call (hfirst c)]
      exact hcall a s c hs hm.1
    | finish i =>
      refine ih ?_ hm.2
      rw [settled_finish hcomm (horder s _ hm.1)]
      exact hs

end Deferred

import SignalK.Lib.Machine

/-! Histories that a sequential object allows, and machines whose output is such a history. -/
namespace Sequential
variable {σ ε ω α : Type*}

/-- One reply after another changes the object as it may. -/
def Legal (change : α → ω → α → Prop) : α → List ω → α → Prop
  | a, [], b => b = a
  | a, o :: os, b => ∃ a', change a o a' ∧ Legal change a' os b

theorem legal_append {change : α → ω → α → Prop} {a b : α} {os ps : List ω} :
    Legal change a (os ++ ps) b ↔ ∃ m, Legal change a os m ∧ Legal change m ps b := by
  induction os generalizing a with
  | nil => exact ⟨fun h => ⟨a, rfl, h⟩, fun ⟨m, hm, h⟩ => hm ▸ h⟩
  | cons o os ih =>
    constructor
    · rintro ⟨a', ha, h⟩
      obtain ⟨m, hm, h⟩ := ih.mp h
      exact ⟨m, ⟨a', ha, hm⟩, h⟩
    · rintro ⟨m, ⟨a', ha, hm⟩, h⟩
      exact ⟨a', ha, ih.mpr ⟨m, hm, h⟩⟩

/-- Steps that stand for changes of an object make a run whose output is a history of it. -/
theorem exec_legal {step : σ → ε → σ × List ω} {cond : σ → ε → Prop} {Inv : σ → α → Prop}
    {change : α → ω → α → Prop}
    (hstep : ∀ s a e, Inv s a → cond s e →
      ∃ b, Legal change a (step s e).2 b ∧ Inv (step s e).1 b)
    {s : σ} {a : α} {es : List ε} (hs : Inv s a) (hm : Machine.Meets step cond s es) :
    ∃ b, Legal change a (Machine.exec step s es).2 b ∧ Inv (Machine.run step s es) b := by
  induction es generalizing s a with
  | nil => exact ⟨a, rfl, hs⟩
  | cons e es ih =>
    obtain ⟨m, hm', hinv⟩ := hstep s a e hs hm.1
    obtain ⟨b, hb, hinv'⟩ := ih hinv hm.2
    exact ⟨b, legal_append.mpr ⟨m, hm', hb⟩, hinv'⟩

end Sequential

import Mathlib.Data.List.TakeDrop

/-! Patterns over words: a letter, any one letter, or any number of letters. -/
namespace Glob
variable {α : Type*}

inductive Token (α : Type*) where
  | letter (a : α)
  | one
  | rest
  deriving DecidableEq

/-- The word is one for the first token, followed by one for the others. -/
inductive Matches : List (Token α) → List α → Prop where
  | nil : Matches [] []
  | letter {ts : List (Token α)} {w : List α} (a : α) (h : Matches ts w) :
      Matches (.letter a :: ts) (a :: w)
  | one {ts : List (Token α)} {w : List α} (a : α) (h : Matches ts w) : Matches (.one :: ts) (a :: w)
  | rest {ts : List (Token α)} {w : List α} (u : List α) (h : Matches ts w) :
      Matches (.rest :: ts) (u ++ w)

theorem matches_nil {w : List α} : Matches [] w ↔ w = [] := by
  constructor
  · intro h
    cases h
    rfl
  · rintro rfl
    exact .nil

theorem matches_letter {a : α} {ts : List (Token α)} {w : List α} :
    Matches (.letter a :: ts) w ↔ ∃ v, w = a :: v ∧ Matches ts v := by
  constructor
  · intro h
    cases h with
    | letter _ h => exact ⟨_, rfl, h⟩
  · rintro ⟨v, rfl, h⟩
    exact .letter a h

theorem matches_one {ts : List (Token α)} {w : List α} :
    Matches (.one :: ts) w ↔ ∃ b v, w = b :: v ∧ Matches ts v := by
  constructor
  · intro h
    cases h with
    | one b h => exact ⟨b, _, rfl, h⟩
  · rintro ⟨b, v, rfl, h⟩
    exact .one b h

theorem matches_rest {ts : List (Token α)} {w : List α} :
    Matches (.rest :: ts) w ↔ ∃ v, v <:+ w ∧ Matches ts v := by
  constructor
  · intro h
    cases h with
    | rest u h => exact ⟨_, List.suffix_append u _, h⟩
  · rintro ⟨v, ⟨u, rfl⟩, h⟩
    exact .rest u h

/-- A pattern that ends in `rest` matches whatever follows. -/
theorem matches_rest_alone (w : List α) : Matches [.rest] w :=
  matches_rest.mpr ⟨[], List.nil_suffix, .nil⟩

/-- What stands before the first `rest`. -/
def before : List (Token α) → List (Token α)
  | [] => []
  | .rest :: _ => []
  | .letter a :: ts => .letter a :: before ts
  | .one :: ts => .one :: before ts

/-- What stands after the first `rest`. -/
def after : List (Token α) → List (Token α)
  | [] => []
  | .rest :: ts => ts
  | .letter _ :: ts => after ts
  | .one :: ts => after ts

/-- What comes after the first `rest` is forgotten. -/
def cut : List (Token α) → List (Token α)
  | [] => []
  | .rest :: _ => [.rest]
  | .letter a :: ts => .letter a :: cut ts
  | .one :: ts => .one :: cut ts

/-- The tokens that take a letter each. -/
def sized : List (Token α) → List (Token α)
  | [] => []
  | .rest :: ts => sized ts
  | .letter a :: ts => .letter a :: sized ts
  | .one :: ts => .one :: sized ts

attribute [local simp] before after cut sized

/-- A word of a pattern is one of the pattern that is cut. -/
theorem Matches.cut {ts : List (Token α)} {w : List α} (h : Matches ts w) :
    Matches (Glob.cut ts) w := by
  induction h with
  | nil => exact .nil
  | letter a _ ih => exact .letter a ih
  | one a _ ih => exact .one a ih
  | rest u _ _ => exact matches_rest_alone _

/-- A word has a letter for each token that takes one. -/
theorem Matches.length_le {ts : List (Token α)} {w : List α} (h : Matches ts w) :
    (sized ts).length ≤ w.length := by
  induction h with
  | nil => exact Nat.le_refl 0
  | letter a _ ih => exact Nat.succ_le_succ ih
  | one a _ ih => exact Nat.succ_le_succ ih
  | rest u _ ih =>
    rw [sized, List.length_append]
    omega

/-- The letters of a pattern are in each of its words. -/
theorem Matches.letter_mem {ts : List (Token α)} {w : List α} (h : Matches ts w) {a : α}
    (ha : .letter a ∈ sized ts) : a ∈ w := by
  induction h with
  | nil => cases ha
  | letter b _ ih =>
    cases ha with
    | head => exact .head _
    | tail _ ha => exact .tail b (ih ha)
  | one b _ ih =>
    cases ha with
    | tail _ ha => exact .tail b (ih ha)
  | rest u _ ih => exact List.mem_append_right u (ih ha)

theorem rest_notMem_sized (ts : List (Token α)) : .rest ∉ sized ts := by
  induction ts with
  | nil => simp [sized]
  | cons t ts ih => cases t <;> simpa [sized] using ih

theorem matches_of_sized_nil {ts : List (Token α)} (h : sized ts = []) : Matches ts [] := by
  induction ts with
  | nil => exact .nil
  | cons t ts ih =>
    cases t with
    | letter a => cases h
    | one => cases h
    | rest => exact .rest [] (ih h)

theorem matches_of_sized_one {ts : List (Token α)} (h : sized ts = [.one]) (a : α) :
    Matches ts [a] := by
  induction ts with
  | nil => cases h
  | cons t ts ih =>
    cases t with
    | letter b => simp [sized] at h
    | one =>
      have htail : sized ts = [] := by simpa [sized] using h
      exact .one a (matches_of_sized_nil htail)
    | rest => exact .rest [] (ih h)

/-- Nothing after the first `rest` asks for more than any word has, one without letters
excepted. -/
def Settled (ts : List (Token α)) : Prop :=
  sized (after ts) = [] ∨ before ts = [] ∧ sized (after ts) = [.one]

/-- Each token of a pattern before the first `rest` takes a letter, as do those after it. -/
theorem length_sized (ts : List (Token α)) :
    (sized ts).length = (before ts).length + (sized (after ts)).length := by
  induction ts with
  | nil => rfl
  | cons t ts ih =>
    cases t with
    | rest => simp [sized, before, after]
    | letter a =>
      simp only [sized, before, after, List.length_cons]
      omega
    | one =>
      simp only [sized, before, after, List.length_cons]
      omega

/-- A pattern in which nothing is asked for after the first `rest` is as good as cut. -/
theorem matches_of_cut {ts : List (Token α)} {w : List α} (hs : sized (after ts) = [])
    (h : Matches (cut ts) w) : Matches ts w := by
  induction ts generalizing w with
  | nil => exact h
  | cons t ts ih =>
    cases t with
    | rest => exact matches_rest.mpr ⟨[], List.nil_suffix, matches_of_sized_nil hs⟩
    | letter a =>
      obtain ⟨v, rfl, hv⟩ := matches_letter.mp h
      exact .letter a (ih hs hv)
    | one =>
      obtain ⟨b, v, rfl, hv⟩ := matches_one.mp h
      exact .one b (ih hs hv)

/-- The shortest words of a pattern that is cut at a `rest`. -/
theorem exists_short {P : α → Prop} {x : α} (hx : P x) {ts : List (Token α)}
    (hts : ∀ a, .letter a ∈ ts → P a) (hrest : .rest ∈ ts) :
    ∃ w, w.length = (before ts).length ∧ (∀ a ∈ w, P a) ∧ Matches (cut ts) w := by
  induction ts with
  | nil => cases hrest
  | cons t ts ih =>
    have htail : ∀ a, .letter a ∈ ts → P a := fun a ha => hts a (.tail t ha)
    cases t with
    | rest => exact ⟨[], rfl, by simp, matches_rest_alone []⟩
    | letter a =>
      obtain ⟨w, hlen, hw, hm⟩ := ih htail (by simpa using hrest)
      refine ⟨a :: w, congrArg (· + 1) hlen, ?_, .letter a hm⟩
      exact List.forall_mem_cons.mpr ⟨hts a (.head _), hw⟩
    | one =>
      obtain ⟨w, hlen, hw, hm⟩ := ih htail (by simpa using hrest)
      exact ⟨x :: w, congrArg (· + 1) hlen, List.forall_mem_cons.mpr ⟨hx, hw⟩, .one x hm⟩

theorem before_nil_cases (ts : List (Token α)) (h : before ts = []) :
    ts = [] ∨ ts = .rest :: after ts := by
  cases ts with
  | nil => exact .inl rfl
  | cons t ts =>
    cases t with
    | rest => exact .inr rfl
    | letter a => cases h
    | one => cases h

theorem rest_mem {ts : List (Token α)} (h : sized (after ts) ≠ []) : .rest ∈ ts := by
  induction ts with
  | nil => exact absurd rfl h
  | cons t ts ih =>
    cases t with
    | rest => exact .head ts
    | letter a => exact .tail _ (ih h)
    | one => exact .tail _ (ih h)

/-- Over words that are not empty, of at least two letters, cutting a pattern changes
nothing exactly when it is settled. -/
theorem cut_iff {P : α → Prop} {x y : α} (hx : P x) (hy : P y) (hxy : x ≠ y)
    {ts : List (Token α)} (hts : ∀ a, .letter a ∈ ts → P a) :
    (∀ w, w ≠ [] → (∀ a ∈ w, P a) → Matches (cut ts) w → Matches ts w) ↔ Settled ts := by
  constructor
  · intro h
    by_contra hnot
    obtain ⟨hsome, hone⟩ := not_or.mp hnot
    have hlen := length_sized ts
    have hpos : 0 < (sized (after ts)).length := List.length_pos_iff.mpr hsome
    by_cases hb : before ts = []
    · obtain rfl | hrest := before_nil_cases ts hb
      · exact hsome rfl
      have hsame : sized ts = sized (after ts) := by rw [hrest]; rfl
      -- a word of one letter is too short, or has another letter than the one asked for
      have hsingle : ∀ b, P b → Matches ts [b] := by
        intro b hb
        refine h [b] (by simp) (by simpa using hb) ?_
        rw [hrest]
        exact matches_rest_alone [b]
      have hle := (hsingle x hx).length_le
      rw [hsame, List.length_singleton] at hle
      obtain ⟨t, ht⟩ := List.length_eq_one_iff.mp (Nat.le_antisymm hle hpos)
      cases t with
      | rest => exact rest_notMem_sized (after ts) (by simp [ht])
      | one => exact hone ⟨hb, ht⟩
      | letter a =>
        have hmem : ∀ b, P b → a = b := by
          intro b hb
          have hb' := (hsingle b hb).letter_mem (a := a) (by simp [hsame, ht])
          simpa using hb'
        exact hxy ((hmem x hx).symm.trans (hmem y hy))
    · obtain ⟨w, hw, hwP, hm⟩ := exists_short hx hts (rest_mem hsome)
      have hne : w ≠ [] := by
        rintro rfl
        exact hb (List.length_eq_zero_iff.mp hw.symm)
      have hle := (h w hne hwP hm).length_le
      omega
  · rintro (hs | ⟨hb, hs⟩) w hne hw hm
    · exact matches_of_cut hs hm
    · obtain rfl | hrest := before_nil_cases ts hb
      · exact hm
      · obtain ⟨v, a, rfl⟩ := (List.eq_nil_or_concat w).resolve_left hne
        rw [hrest, List.concat_eq_append]
        exact .rest v (matches_of_sized_one hs a)

end Glob

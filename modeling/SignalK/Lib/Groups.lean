import Mathlib.Data.List.Pairwise
import Mathlib.Data.List.Perm.Basic

/-! A list put into groups, and when the groups of a key are the classes of another one. -/
namespace Groups
variable {α κ γ : Type*}

/-- The groups hold every element once, two of them in one group exactly if they are of
one class. -/
structure Grouped (cls : α → γ) (l : List α) (groups : List (List α)) : Prop where
  cover : groups.flatten.Perm l
  nonempty : ∀ g ∈ groups, g ≠ []
  together : ∀ g ∈ groups, ∀ a ∈ g, ∀ b ∈ g, cls a = cls b
  apart : groups.Pairwise fun g g' => ∀ a ∈ g, ∀ b ∈ g', cls a ≠ cls b

theorem grouped_congr {cls : α → γ} {l l' : List α} (hl : l.Perm l') (groups : List (List α)) :
    Grouped cls l groups ↔ Grouped cls l' groups := by
  constructor
  · intro h
    exact { h with cover := h.cover.trans hl }
  · intro h
    exact { h with cover := h.cover.trans hl.symm }

/-- Every element is a group of its own exactly if no two are of one class. -/
theorem grouped_singletons_iff {cls : α → γ} {l : List α} :
    Grouped cls l (l.map fun a => [a]) ↔ l.Pairwise fun a b => cls a ≠ cls b := by
  constructor
  · intro h
    have hapart := List.pairwise_map.mp h.apart
    exact hapart.imp fun hab => hab _ (List.mem_singleton_self _) _ (List.mem_singleton_self _)
  · intro h
    constructor
    · have hflat : (l.map fun a => [a]).flatten = l := by
        induction l with
        | nil => rfl
        | cons a l ih => simp [ih (List.pairwise_cons.mp h).2]
      rw [hflat]
    · simp
    · simp
    · rw [List.pairwise_map]
      simpa using h

section
variable [DecidableEq κ]

/-- The elements that have a key. -/
def having (key : α → κ) (l : List α) (k : κ) : List α :=
  l.filter fun a => key a = k

theorem mem_having {key : α → κ} {l : List α} {k : κ} {a : α} :
    a ∈ having key l k ↔ a ∈ l ∧ key a = k := by
  simp [having]

theorem having_cover (key : α → κ) (l : List α) {keys : List κ} (h : keys.Nodup) :
    (keys.map (having key l)).flatten.Perm (l.filter fun a => key a ∈ keys) := by
  induction keys with
  | nil => simp
  | cons k keys ih =>
    have hk : k ∉ keys := (List.nodup_cons.mp h).1
    have hrest := ih (List.nodup_cons.mp h).2
    have hhead : having key l k =
        (l.filter fun a => key a ∈ k :: keys).filter fun a => key a = k := by
      rw [List.filter_filter, having]
      apply List.filter_congr
      intro a _
      by_cases ha : key a = k
      · simp [ha]
      · simp [ha]
    have htail : (l.filter fun a => key a ∈ keys) =
        (l.filter fun a => key a ∈ k :: keys).filter fun a => !decide (key a = k) := by
      rw [List.filter_filter]
      apply List.filter_congr
      intro a _
      by_cases ha : key a = k
      · simp [ha, hk]
      · simp [ha]
    rw [List.map_cons, List.flatten_cons]
    refine (hrest.append_left _).trans ?_
    rw [hhead, htail]
    exact List.filter_append_perm _ _

/-- The groups of a key are the classes exactly if it tells them apart, and nothing else. -/
theorem grouped_having_iff {key : α → κ} {l : List α} {keys : List κ} (hnodup : keys.Nodup)
    (hkeys : ∀ k, k ∈ keys ↔ ∃ a ∈ l, key a = k) (cls : α → γ) :
    Grouped cls l (keys.map (having key l)) ↔
      ∀ a ∈ l, ∀ b ∈ l, key a = key b ↔ cls a = cls b := by
  have hkey {a : α} (ha : a ∈ l) : key a ∈ keys := (hkeys _).mpr ⟨a, ha, rfl⟩
  constructor
  · intro h a ha b hb
    have ha' : a ∈ having key l (key a) := mem_having.mpr ⟨ha, rfl⟩
    have hb' : b ∈ having key l (key b) := mem_having.mpr ⟨hb, rfl⟩
    constructor
    · intro hab
      rw [hab] at ha'
      exact h.together _ (List.mem_map_of_mem (hkey hb)) a ha' b hb'
    · intro hsame
      by_contra hab
      have hapart : keys.Pairwise fun k k' =>
          ∀ a ∈ having key l k, ∀ b ∈ having key l k', cls a ≠ cls b :=
        List.pairwise_map.mp h.apart
      have : Std.Symm fun k k' =>
          ∀ a ∈ having key l k, ∀ b ∈ having key l k', cls a ≠ cls b :=
        ⟨fun k k' hk a ha b hb hab => hk b hb a ha hab.symm⟩
      exact hapart.forall (hkey ha) (hkey hb) hab a ha' b hb' hsame
  · intro h
    constructor
    · have hall : (l.filter fun a => key a ∈ keys) = l := by
        rw [List.filter_eq_self]
        intro a ha
        exact decide_eq_true (hkey ha)
      have hcover := having_cover key l hnodup
      rwa [hall] at hcover
    · intro g hg
      obtain ⟨k, hk, rfl⟩ := List.mem_map.mp hg
      obtain ⟨a, ha, hak⟩ := (hkeys k).mp hk
      exact List.ne_nil_of_mem (mem_having.mpr ⟨ha, hak⟩)
    · intro g hg a ha b hb
      obtain ⟨k, _, rfl⟩ := List.mem_map.mp hg
      have ha := mem_having.mp ha
      have hb := mem_having.mp hb
      exact (h a ha.1 b hb.1).mp (ha.2.trans hb.2.symm)
    · rw [List.pairwise_map]
      apply hnodup.imp
      intro k k' hne a ha b hb hab
      have ha := mem_having.mp ha
      have hb := mem_having.mp hb
      have heq := (h a ha.1 b hb.1).mpr hab
      exact hne (ha.2.symm.trans (heq.trans hb.2))

end

end Groups

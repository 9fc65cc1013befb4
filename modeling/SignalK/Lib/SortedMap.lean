import Mathlib.Order.Lattice
import Mathlib.Data.List.Basic
import Mathlib.Data.List.Nodup
import Mathlib.Data.List.Induction

/-! Ordered maps as the list of their entries, inserted in ascending key order. The
operations work on any list, so they can sit inside a nested inductive type. -/
namespace SortedMap
variable {κ ν : Type*} [LinearOrder κ]

def get (k : κ) : List (κ × ν) → Option ν
  | [] => none
  | (a, b) :: m => if k = a then some b else get k m

def insert (k : κ) (v : ν) : List (κ × ν) → List (κ × ν)
  | [] => [(k, v)]
  | (a, b) :: m =>
    if k < a then (k, v) :: (a, b) :: m
    else if k = a then (k, v) :: m
    else (a, b) :: insert k v m

attribute [local simp] get insert

@[simp] theorem get_nil (k : κ) : get k ([] : List (κ × ν)) = none := rfl

@[simp] theorem get_insert_self (k : κ) (v : ν) (m : List (κ × ν)) :
    get k (insert k v m) = some v := by
  induction m with
  | nil => simp [insert, get]
  | cons e m ih =>
    obtain ⟨a, b⟩ := e
    simp only [insert]
    split_ifs with h₁ h₂
    · simp [get]
    · simp [get]
    · simpa [get, h₂] using ih

theorem get_insert_ne {j k : κ} (h : j ≠ k) (v : ν) (m : List (κ × ν)) :
    get j (insert k v m) = get j m := by
  induction m with
  | nil => simp [insert, get, h]
  | cons e m ih =>
    obtain ⟨a, b⟩ := e
    simp only [insert]
    split_ifs with h₁ h₂
    · simp [get, h]
    · subst h₂
      simp [get, h]
    · simp [get, ih]

theorem get_insert (j k : κ) (v : ν) (m : List (κ × ν)) :
    get j (insert k v m) = if j = k then some v else get j m := by
  by_cases h : j = k
  · subst h
    simp
  · simp [h, get_insert_ne h]

theorem insert_insert (k : κ) (v w : ν) (m : List (κ × ν)) :
    insert k w (insert k v m) = insert k w m := by
  induction m with
  | nil => simp [insert]
  | cons e m ih =>
    obtain ⟨a, b⟩ := e
    simp only [insert]
    split_ifs with h₁ h₂
    · simp [insert]
    · simp [insert]
    · simp [insert, h₁, h₂, ih]

theorem insert_comm {j k : κ} (h : j ≠ k) (v w : ν) (m : List (κ × ν)) :
    insert j v (insert k w m) = insert k w (insert j v m) := by
  induction m with
  | nil =>
    cases lt_or_gt_of_ne h with
    | inl hlt => simp [insert, hlt, hlt.not_gt, h.symm]
    | inr hgt => simp [insert, hgt, hgt.not_gt, h]
  | cons e m ih =>
    obtain ⟨a, b⟩ := e
    rcases lt_trichotomy j a with hj | hj | hj <;> rcases lt_trichotomy k a with hk | hk | hk
    all_goals grind [insert]

/-- Entries of distinct keys may be inserted in any order. -/
theorem foldl_insert_perm {l l' : List (κ × ν)} (hp : l.Perm l') (hn : (l.map Prod.fst).Nodup)
    (m : List (κ × ν)) :
    l.foldl (fun m e => insert e.1 e.2 m) m = l'.foldl (fun m e => insert e.1 e.2 m) m := by
  refine hp.foldl_eq' (fun e he f hf m => ?_) m
  by_cases hk : e.1 = f.1
  · rw [List.inj_on_of_nodup_map hn he hf hk]
  · exact insert_comm (Ne.symm hk) _ _ m

/-- Inserted one after another, entries of distinct keys are all found. -/
theorem get_foldl_insert {l : List (κ × ν)} (hn : (l.map Prod.fst).Nodup) {k : κ} {v : ν}
    (h : (k, v) ∈ l) (m : List (κ × ν)) :
    get k (l.foldl (fun m e => insert e.1 e.2 m) m) = some v := by
  induction l using List.reverseRecOn with
  | nil => cases h
  | append_singleton l e ih =>
    rw [List.map_append, List.nodup_append] at hn
    rw [List.foldl_append, List.foldl_cons, List.foldl_nil, get_insert]
    cases List.mem_append.mp h with
    | inl h =>
      have hne : k ≠ e.1 := hn.2.2 k (List.mem_map.mpr ⟨_, h, rfl⟩) e.1 (by simp)
      rw [if_neg hne, ih hn.1 h]
    | inr h =>
      have he : e = (k, v) := (List.mem_singleton.mp h).symm
      simp [he]

theorem get_foldl_insert_ne {k : κ} {l : List (κ × ν)} (h : ∀ e ∈ l, k ≠ e.1)
    (m : List (κ × ν)) : get k (l.foldl (fun m e => insert e.1 e.2 m) m) = get k m := by
  induction l generalizing m with
  | nil => rfl
  | cons e l ih =>
    rw [List.foldl_cons, ih (fun f hf => h f (List.mem_cons_of_mem e hf)),
      get_insert_ne (h e List.mem_cons_self)]

theorem mem_insert (k : κ) (v : ν) (m : List (κ × ν)) {e : κ × ν} (he : e ∈ insert k v m) :
    e = (k, v) ∨ e ∈ m := by
  induction m with
  | nil => exact .inl (List.mem_singleton.mp he)
  | cons f m ih =>
    obtain ⟨a, b⟩ := f
    simp only [insert] at he
    split_ifs at he with h₁ h₂
    · exact List.mem_cons.mp he
    · exact (List.mem_cons.mp he).imp_right (List.mem_cons_of_mem _)
    · cases List.mem_cons.mp he with
      | inl he => exact .inr (by simp [he])
      | inr he => exact (ih he).imp_right (List.mem_cons_of_mem _)

theorem mem_of_get {m : List (κ × ν)} {k : κ} {v : ν} (h : get k m = some v) : (k, v) ∈ m := by
  induction m with
  | nil => cases h
  | cons e m ih =>
    obtain ⟨a, b⟩ := e
    by_cases hk : k = a
    · simp only [get, if_pos hk, Option.some.injEq] at h
      simp [hk, h]
    · simp only [get, if_neg hk] at h
      exact List.mem_cons_of_mem _ (ih h)

end SortedMap

import Mathlib.Data.Finset.Card
import SignalK.Lib.SortedMap

/-! Sorted maps merged one after another, where the first entry of a key stays. -/
namespace SortedMap
variable {κ ν : Type*} [LinearOrder κ]

/-- `entry(k).or_insert(v)` -/
def orInsert (k : κ) (v : ν) (m : List (κ × ν)) : List (κ × ν) :=
  if (get k m).isSome then m else insert k v m

/-- The entries of a map, where the merged one has none of their keys. -/
def mergeInto (merged m : List (κ × ν)) : List (κ × ν) :=
  m.foldl (fun merged e => orInsert e.1 e.2 merged) merged

def Sorted (m : List (κ × ν)) : Prop := m.Pairwise fun a b => a.1 < b.1

theorem isSome_get_iff (k : κ) (m : List (κ × ν)) : (get k m).isSome ↔ k ∈ m.map Prod.fst := by
  induction m with
  | nil => simp
  | cons e m ih =>
    obtain ⟨a, b⟩ := e
    by_cases hk : k = a
    · simp [get, hk]
    · rw [get, if_neg hk, ih, List.map_cons, List.mem_cons, or_iff_right hk]

theorem get_orInsert (j k : κ) (v : ν) (m : List (κ × ν)) :
    get j (orInsert k v m) = (get j m).or (if j = k then some v else none) := by
  unfold orInsert
  by_cases hjk : j = k
  · subst hjk
    cases hg : get j m with
    | none => simp
    | some w => simp [hg]
  · split_ifs with h
    · simp
    · simp [get_insert_ne hjk]

theorem get_mergeInto (k : κ) (merged m : List (κ × ν)) :
    get k (mergeInto merged m) = (get k merged).or (get k m) := by
  induction m generalizing merged with
  | nil => simp [mergeInto]
  | cons e m ih =>
    have hstep : mergeInto merged (e :: m) = mergeInto (orInsert e.1 e.2 merged) m := rfl
    rw [hstep, ih, get_orInsert, Option.or_assoc]
    by_cases hk : k = e.1
    · simp [get, hk]
    · simp [get, hk]

theorem get_foldl_mergeInto (k : κ) (ms : List (List (κ × ν))) (merged : List (κ × ν)) :
    get k (ms.foldl mergeInto merged) = (get k merged).or (ms.findSome? (get k)) := by
  induction ms generalizing merged with
  | nil => simp
  | cons m ms ih =>
    rw [List.foldl_cons, ih, get_mergeInto, Option.or_assoc, List.findSome?_cons]
    cases get k m <;> rfl

theorem sorted_insert {m : List (κ × ν)} (h : Sorted m) (k : κ) (v : ν) :
    Sorted (insert k v m) := by
  induction m with
  | nil => exact List.pairwise_singleton _ _
  | cons e m ih =>
    obtain ⟨a, b⟩ := e
    obtain ⟨ha, hm⟩ := List.pairwise_cons.mp h
    simp only [insert]
    split_ifs with h₁ h₂
    · refine List.pairwise_cons.mpr ⟨fun f hf => ?_, h⟩
      cases List.mem_cons.mp hf with
      | inl hf => exact hf ▸ h₁
      | inr hf => exact h₁.trans (ha f hf)
    · subst h₂
      exact List.pairwise_cons.mpr ⟨ha, hm⟩
    · refine List.pairwise_cons.mpr ⟨fun f hf => ?_, ih hm⟩
      cases mem_insert k v m hf with
      | inl hf => exact hf ▸ lt_of_le_of_ne (not_lt.mp h₁) (Ne.symm h₂)
      | inr hf => exact ha f hf

theorem sorted_foldl_insert {m : List (κ × ν)} (h : Sorted m) (l : List (κ × ν)) :
    Sorted (l.foldl (fun m e => insert e.1 e.2 m) m) := by
  induction l generalizing m with
  | nil => exact h
  | cons e l ih => exact ih (sorted_insert h e.1 e.2)

/-- To insert what a map already holds changes nothing. -/
theorem insert_of_get {m : List (κ × ν)} (h : Sorted m) {k : κ} {v : ν} (hg : get k m = some v) :
    insert k v m = m := by
  induction m with
  | nil => cases hg
  | cons e m ih =>
    obtain ⟨a, b⟩ := e
    obtain ⟨ha, hm⟩ := List.pairwise_cons.mp h
    by_cases hk : k = a
    · subst hk
      have hv : b = v := by simpa [get] using hg
      simp [insert, hv]
    · rw [get, if_neg hk] at hg
      have hlt : a < k := ha (k, v) (mem_of_get hg)
      rw [insert, if_neg hlt.not_gt, if_neg hk, ih hm hg]

theorem sorted_mergeInto {merged : List (κ × ν)} (h : Sorted merged) (m : List (κ × ν)) :
    Sorted (mergeInto merged m) := by
  induction m generalizing merged with
  | nil => exact h
  | cons e m ih =>
    have hstep : Sorted (orInsert e.1 e.2 merged) := by
      unfold orInsert
      split_ifs
      · exact h
      · exact sorted_insert h _ _
    exact ih hstep

theorem sorted_foldl_mergeInto {merged : List (κ × ν)} (h : Sorted merged)
    (ms : List (List (κ × ν))) : Sorted (ms.foldl mergeInto merged) := by
  induction ms generalizing merged with
  | nil => exact h
  | cons m ms ih => exact ih (sorted_mergeInto h m)

theorem get_of_mem {m : List (κ × ν)} (h : Sorted m) {e : κ × ν} (he : e ∈ m) :
    get e.1 m = some e.2 := by
  induction m with
  | nil => cases he
  | cons f m ih =>
    obtain ⟨a, b⟩ := f
    obtain ⟨ha, hm⟩ := List.pairwise_cons.mp h
    cases List.mem_cons.mp he with
    | inl he => simp [he, get]
    | inr he =>
      have hne : e.1 ≠ a := (ha e he).ne'
      rw [get, if_neg hne]
      exact ih hm he

/-- The first entries of a sorted map are those of its smallest keys. -/
theorem mem_take_iff {m : List (κ × ν)} (h : Sorted m) {e : κ × ν} (n : Nat) :
    e ∈ m.take n ↔ e ∈ m ∧ ((m.map Prod.fst).toFinset.filter (· < e.1)).card < n := by
  induction m generalizing n with
  | nil => simp
  | cons f m ih =>
    obtain ⟨a, b⟩ := f
    obtain ⟨ha, hm⟩ := List.pairwise_cons.mp h
    cases n with
    | zero => simp
    | succ n =>
      rw [List.take_succ_cons, List.mem_cons, List.mem_cons]
      by_cases he : e = (a, b)
      · have hempty : ((((a, b) :: m).map Prod.fst).toFinset.filter (· < e.1)) = ∅ := by
          refine Finset.filter_eq_empty_iff.mpr fun k hk => ?_
          rw [List.map_cons, List.mem_toFinset, List.mem_cons] at hk
          rw [he, not_lt]
          rcases hk with rfl | hk
          · exact le_rfl
          · obtain ⟨f, hf, rfl⟩ := List.mem_map.mp hk
            exact (ha f hf).le
        rw [hempty, Finset.card_empty]
        simp [he]
      · rw [or_iff_right he, or_iff_right he, ih hm]
        refine and_congr_right fun hmem => ?_
        have hlt : a < e.1 := ha e hmem
        have hnot : a ∉ (m.map Prod.fst).toFinset.filter (· < e.1) := by
          intro hin
          obtain ⟨f, hf, hfa⟩ := List.mem_map.mp (List.mem_toFinset.mp (Finset.mem_filter.mp hin).1)
          exact (ha f hf).ne hfa.symm
        rw [List.map_cons, List.toFinset_cons, Finset.filter_insert, if_pos hlt,
          Finset.card_insert_of_notMem hnot]
        omega

end SortedMap

import Mathlib.Data.Finmap
import Mathlib.Data.Finset.Sort

/-! Hash maps as Mathlib's finite maps. A `Finmap` forgets the order of its
entries, so code that walks a map takes the order as an extra list; any list
with the same entries is an order an iterator may produce. -/

abbrev HashMap (κ ν : Type*) := Finmap fun _ : κ => ν

namespace HashMap
variable {κ ν μ : Type*} [DecidableEq κ]

theorem lookup_insert (m : HashMap κ ν) (a k : κ) (b : ν) :
    (m.insert a b).lookup k = if k = a then some b else m.lookup k := by
  by_cases h : k = a
  · subst h
    simp [Finmap.lookup_insert]
  · simp [h, Finmap.lookup_insert_of_ne]

theorem insert_of_lookup {m : HashMap κ ν} {k : κ} {v : ν} (h : m.lookup k = some v) :
    m.insert k v = m := by
  refine Finmap.ext_lookup fun x => ?_
  rw [lookup_insert]
  by_cases hx : x = k
  · rw [if_pos hx, hx, h]
  · rw [if_neg hx]

theorem lookup_erase (m : HashMap κ ν) (a k : κ) :
    (m.erase a).lookup k = if k = a then none else m.lookup k := by
  by_cases h : k = a
  · subst h
    simp
  · simp [h, Finmap.lookup_erase_ne]

/-- `entry(k).or_default()` followed by an update in place. -/
def alter (m : HashMap κ ν) (k : κ) (init : ν) (f : ν → ν) : HashMap κ ν :=
  m.insert k (f ((m.lookup k).getD init))

theorem lookup_alter (m : HashMap κ ν) (a k : κ) (init : ν) (f : ν → ν) :
    (m.alter a init f).lookup k =
      if k = a then some (f ((m.lookup a).getD init)) else m.lookup k :=
  lookup_insert m a k _

/-! Maps of maps, read at a pair of keys. -/

def lookup₂ {α : Type*} [DecidableEq α] (m : HashMap α (HashMap κ ν)) (a : α) (k : κ) :
    Option ν :=
  (m.lookup a).bind fun inner => inner.lookup k

theorem lookup₂_alter_insert {α : Type*} [DecidableEq α] (m : HashMap α (HashMap κ ν))
    (a x : α) (k y : κ) (v : ν) :
    (m.alter a ∅ (·.insert k v)).lookup₂ x y =
      if x = a ∧ y = k then some v else m.lookup₂ x y := by
  rw [lookup₂, lookup_alter]
  by_cases hx : x = a
  · subst hx
    cases hm : m.lookup x <;> simp [lookup_insert, lookup₂, hm]
  · simp [hx, lookup₂]

theorem lookup₂_insert_erase {α : Type*} [DecidableEq α] {m : HashMap α (HashMap κ ν)} {a : α}
    {inner : HashMap κ ν} (h : m.lookup a = some inner) (k : κ) (x : α) (y : κ) :
    lookup₂ (m.insert a (inner.erase k)) x y =
      if x = a ∧ y = k then none else m.lookup₂ x y := by
  rw [lookup₂, lookup_insert]
  by_cases hx : x = a
  · subst hx
    simp [lookup_erase, lookup₂, h]
  · simp [hx, lookup₂]

def retain (m : HashMap κ ν) (p : κ → ν → Bool) : HashMap κ ν where
  entries := m.entries.filter fun e => p e.1 e.2
  nodupKeys := by
    obtain ⟨s, hs⟩ := m
    induction s using Quotient.inductionOn with
    | h l =>
      have hn : l.NodupKeys := hs
      exact hn.sublist List.filter_sublist

theorem lookup_retain (m : HashMap κ ν) (p : κ → ν → Bool) (k : κ) :
    (m.retain p).lookup k = (m.lookup k).filter (p k) := by
  ext v
  simp only [Finmap.lookup_eq_some_iff, retain, Multiset.mem_filter, Option.filter_eq_some_iff]

/-- An update of every value in place (`iter_mut`, `values_mut`). -/
def mapValues (m : HashMap κ ν) (f : κ → ν → μ) : HashMap κ μ where
  entries := m.entries.map fun e => ⟨e.1, f e.1 e.2⟩
  nodupKeys := by
    obtain ⟨s, hs⟩ := m
    induction s using Quotient.inductionOn with
    | h l =>
      have hn : (l.map Sigma.fst).Nodup := hs
      have hm : (l.map fun e => (⟨e.1, f e.1 e.2⟩ : Sigma fun _ : κ => μ)).NodupKeys := by
        simpa [List.NodupKeys, List.keys, Function.comp_def] using hn
      exact hm

theorem lookup_mapValues (m : HashMap κ ν) (f : κ → ν → μ) (k : κ) :
    (m.mapValues f).lookup k = (m.lookup k).map (f k) := by
  ext v
  simp only [Finmap.lookup_eq_some_iff, mapValues, Multiset.mem_map, Option.map_eq_some_iff]
  constructor
  · rintro ⟨⟨a, b⟩, hm, he⟩
    cases he
    exact ⟨b, hm, rfl⟩
  · rintro ⟨b, hb, rfl⟩
    exact ⟨⟨k, b⟩, hb, rfl⟩

/-- There is at most one entry for a key. -/
theorem filter_entries (m : HashMap κ ν) (k : κ) :
    (m.entries.filter fun e => e.1 = k) =
      Multiset.ofList ((m.lookup k).toList.map fun v => ⟨k, v⟩) := by
  have hleft : (m.entries.filter fun e => e.1 = k).Nodup := m.nodup_entries.filter _
  have hright : (Multiset.ofList ((m.lookup k).toList.map fun v =>
      (⟨k, v⟩ : Sigma fun _ : κ => ν))).Nodup := by
    cases m.lookup k <;> simp
  refine (Multiset.Nodup.ext hleft hright).mpr fun e => ?_
  obtain ⟨a, v⟩ := e
  rw [Multiset.mem_filter, ← Finmap.mem_lookup_iff]
  cases hk : m.lookup k with
  | none =>
    constructor
    · rintro ⟨hv, rfl⟩
      rw [hk] at hv
      cases hv
    · intro hmem
      cases hmem
  | some u =>
    constructor
    · rintro ⟨hv, rfl⟩
      rw [hk] at hv
      simp [Option.some.inj hv]
    · intro hmem
      simp only [Option.toList_some, List.map_cons, List.map_nil, Multiset.mem_coe,
        List.mem_singleton] at hmem
      cases hmem
      exact ⟨hk, rfl⟩

/-- A list of the entries in one of the orders an iterator may visit them. -/
def IterOrder (l : List (κ × ν)) (m : HashMap κ ν) : Prop :=
  ((l.map fun e => (⟨e.1, e.2⟩ : Sigma fun _ : κ => ν)) : Multiset _) = m.entries

instance [DecidableEq ν] (l : List (κ × ν)) (m : HashMap κ ν) : Decidable (IterOrder l m) :=
  inferInstanceAs (Decidable (_ = m.entries))

omit [DecidableEq κ] in
theorem iterOrder_singleton (k : κ) (v : ν) : IterOrder [(k, v)] (Finmap.singleton k v) := rfl

omit [DecidableEq κ] in
theorem exists_iterOrder (m : HashMap κ ν) : ∃ l, IterOrder l m := by
  obtain ⟨s, hs⟩ := m
  induction s using Quotient.inductionOn with
  | h l => exact ⟨l.map fun e => (e.1, e.2), by simp [IterOrder, Function.comp_def]⟩

theorem IterOrder.mem_iff {l : List (κ × ν)} {m : HashMap κ ν} (h : IterOrder l m) (k : κ)
    (v : ν) : (k, v) ∈ l ↔ m.lookup k = some v := by
  rw [Finmap.lookup_eq_some_iff, ← h]
  simp

omit [DecidableEq κ] in
theorem IterOrder.nodup {l : List (κ × ν)} {m : HashMap κ ν} (h : IterOrder l m) :
    (l.map Prod.fst).Nodup := by
  have hn := m.nodupKeys
  rw [← h] at hn
  simpa [List.NodupKeys, List.keys, Function.comp_def] using hn

omit [DecidableEq κ] in
theorem IterOrder.mapValues {l : List (κ × ν)} {m : HashMap κ ν} (h : IterOrder l m)
    (f : κ → ν → μ) : IterOrder (l.map fun e => (e.1, f e.1 e.2)) (m.mapValues f) := by
  have hm : (m.mapValues f).entries = m.entries.map fun e => ⟨e.1, f e.1 e.2⟩ := rfl
  rw [IterOrder, hm, ← h]
  simp [Function.comp_def]

theorem lookup_foldl_of_ne {g : HashMap κ μ → κ × ν → HashMap κ μ} {l : List (κ × ν)} {k : κ}
    (hg : ∀ m, ∀ e ∈ l, e.1 ≠ k → (g m e).lookup k = m.lookup k) (h : ∀ e ∈ l, e.1 ≠ k)
    (m : HashMap κ μ) : (l.foldl g m).lookup k = m.lookup k := by
  induction l generalizing m with
  | nil => rfl
  | cons e l ih =>
    rw [List.foldl_cons, ih (fun m e he => hg m e (List.mem_cons_of_mem _ he))
      (fun e he => h e (List.mem_cons_of_mem _ he))]
    exact hg m e List.mem_cons_self (h e List.mem_cons_self)

/-- Each entry of one map changes what another map has for its key, in whatever order. -/
theorem IterOrder.lookup_foldl {l : List (κ × ν)} {entries : HashMap κ ν}
    (h : IterOrder l entries) {g : HashMap κ μ → κ × ν → HashMap κ μ}
    {f : ν → Option μ → Option μ}
    (hg : ∀ m, ∀ e ∈ l, ∀ k,
      (g m e).lookup k = if k = e.1 then f e.2 (m.lookup k) else m.lookup k)
    (m : HashMap κ μ) (k : κ) :
    (l.foldl g m).lookup k =
      (entries.lookup k).elim (m.lookup k) fun v => f v (m.lookup k) := by
  have hother : ∀ m, ∀ e ∈ l, e.1 ≠ k → (g m e).lookup k = m.lookup k := by
    intro m e he hne
    rw [hg m e he, if_neg (Ne.symm hne)]
  cases hk : entries.lookup k with
  | none =>
    refine lookup_foldl_of_ne hother (fun e he heq => ?_) m
    have hfound := (h.mem_iff e.1 e.2).mp he
    rw [heq, hk] at hfound
    cases hfound
  | some v =>
    obtain ⟨l₁, l₂, hl⟩ := List.append_of_mem ((h.mem_iff k v).mpr hk)
    have hn := h.nodup
    rw [hl, List.map_append, List.map_cons, List.nodup_append, List.nodup_cons] at hn
    have hbefore : ∀ e ∈ l₁, e.1 ≠ k :=
      fun e he => hn.2.2 e.1 (List.mem_map_of_mem he) k List.mem_cons_self
    have hafter : ∀ e ∈ l₂, e.1 ≠ k := by
      intro e he heq
      have hmem : e.1 ∈ l₂.map Prod.fst := List.mem_map_of_mem he
      rw [heq] at hmem
      exact hn.2.1.1 hmem
    rw [hl, List.foldl_append, List.foldl_cons,
      lookup_foldl_of_ne (fun m e he => hother m e (by simp [hl, he])) hafter,
      hg _ (k, v) (by simp [hl]), if_pos rfl,
      lookup_foldl_of_ne (fun m e he => hother m e (by simp [hl, he])) hbefore, Option.elim_some]

/-- A way to visit the entries of every map. -/
structure Iteration (κ ν : Type*) where
  entries : HashMap κ ν → List (κ × ν)
  order : ∀ m, IterOrder (entries m) m

omit [DecidableEq κ] in
/-- Some order for every map, where it does not matter which. -/
noncomputable def Iteration.some : Iteration κ ν where
  entries m := Classical.choose (exists_iterOrder m)
  order m := Classical.choose_spec (exists_iterOrder m)

/-- The entries in ascending order of their keys. -/
def ascending [LinearOrder κ] (m : HashMap κ ν) : List (κ × ν) :=
  (m.keys.sort (· ≤ ·)).filterMap fun k => (m.lookup k).map fun v => (k, v)

theorem ascending_order [LinearOrder κ] (m : HashMap κ ν) : IterOrder (ascending m) m := by
  have hkeys : (ascending m).map Prod.fst = m.keys.sort (· ≤ ·) := by
    rw [ascending, List.map_filterMap]
    refine (List.filterMap_congr fun k hk => ?_).trans List.filterMap_some
    obtain ⟨v, hv⟩ := Finmap.mem_iff.mp (Finmap.mem_keys.mp ((Finset.mem_sort _).mp hk))
    simp [hv]
  have hn : (ascending m).Nodup := by
    have hsort := Finset.sort_nodup m.keys (· ≤ ·)
    rw [← hkeys] at hsort
    exact hsort.of_map
  have hleft := hn.map (f := fun e => (⟨e.1, e.2⟩ : Sigma fun _ : κ => ν))
    fun e f h => Prod.ext (Sigma.mk.inj h).1 (eq_of_heq (Sigma.mk.inj h).2)
  refine (Multiset.Nodup.ext (Multiset.coe_nodup.mpr hleft) m.nodup_entries).mpr fun e => ?_
  obtain ⟨k, v⟩ := e
  rw [← Finmap.mem_lookup_iff]
  simp only [Multiset.mem_coe, List.mem_map, ascending, List.mem_filterMap, Option.map_eq_some_iff,
    Finset.mem_sort, Finmap.mem_keys]
  constructor
  · rintro ⟨-, ⟨j, -, u, hu, rfl⟩, he⟩
    cases he
    exact hu
  · intro hv
    exact ⟨(k, v), ⟨k, Finmap.mem_of_lookup_eq_some hv, v, hv, rfl⟩, rfl⟩

/-- `iter.collect()`: later entries replace earlier ones of the same key. -/
def collect (l : List (κ × ν)) : HashMap κ ν :=
  l.foldl (fun m e => m.insert e.1 e.2) ∅

theorem lookup_foldl_insert (l : List (κ × ν)) (m : HashMap κ ν) (hn : (l.map Prod.fst).Nodup)
    (k : κ) (v : ν) :
    (l.foldl (fun m e => m.insert e.1 e.2) m).lookup k = some v ↔
      (k, v) ∈ l ∨ (∀ w, (k, w) ∉ l) ∧ m.lookup k = some v := by
  induction l generalizing m with
  | nil => simp
  | cons e l ih =>
    rw [List.map_cons, List.nodup_cons] at hn
    rw [List.foldl_cons, ih _ hn.2, lookup_insert]
    by_cases hk : k = e.1
    · subst hk
      have hno : ∀ w, (e.1, w) ∉ l := fun w hw => hn.1 (List.mem_map.mpr ⟨_, hw, rfl⟩)
      have he : (e.1, v) = e ↔ e.2 = v := by
        rw [Prod.ext_iff]
        exact ⟨fun h => h.2.symm, fun h => ⟨rfl, h.symm⟩⟩
      simp only [hno, if_true, List.mem_cons, he]
      simp
    · have he : ∀ w, (k, w) ≠ e := fun w h => hk (congrArg Prod.fst h)
      simp [hk, he]

/-- The last entry of a key counts. -/
theorem lookup_collect (l : List (κ × ν)) (k : κ) :
    (collect l).lookup k = (l.filter (·.1 = k)).getLast?.map (·.2) := by
  induction l using List.reverseRecOn with
  | nil => simp [collect, Finmap.lookup_empty]
  | append_singleton l e ih =>
    have hlast : collect (l ++ [e]) = (collect l).insert e.1 e.2 := by simp [collect]
    rw [hlast, lookup_insert, List.filter_append]
    by_cases hk : k = e.1
    · simp [hk]
    · have hne : ¬e.1 = k := fun he => hk he.symm
      simp [hk, hne, ih]

/-- `if let Some(v) = f(k) { m.insert(k, v) }` -/
def insertSome (f : κ → Option ν) (m : HashMap κ ν) (k : κ) : HashMap κ ν :=
  match f k with
  | some v => m.insert k v
  | none => m

theorem lookup_insertSome (f : κ → Option ν) (m : HashMap κ ν) (a k : κ) :
    (insertSome f m a).lookup k = if k = a then (f a).or (m.lookup a) else m.lookup k := by
  rw [insertSome]
  cases f a with
  | some v => rw [lookup_insert, Option.some_or]
  | none =>
    split_ifs with h
    · rw [h, Option.none_or]
    · rfl

/-- A key has what the function gives for it, however often it is visited. -/
theorem lookup_foldl_insertSome (f : κ → Option ν) (ks : List κ) (m : HashMap κ ν) (k : κ) :
    (ks.foldl (insertSome f) m).lookup k =
      if k ∈ ks then (f k).or (m.lookup k) else m.lookup k := by
  induction ks generalizing m with
  | nil => simp
  | cons a ks ih =>
    rw [List.foldl_cons, ih, lookup_insertSome]
    by_cases hk : k = a
    · subst hk
      cases f k <;> simp
    · simp [hk]

theorem IterOrder.collect_eq {l : List (κ × ν)} {m : HashMap κ ν} (h : IterOrder l m) :
    collect l = m := by
  refine Finmap.ext_lookup fun k => Option.ext fun v => ?_
  rw [collect, lookup_foldl_insert l ∅ h.nodup, ← h.mem_iff]
  simp

end HashMap

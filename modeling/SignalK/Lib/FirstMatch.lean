import SignalK.Lib.HashMap

/-! The first entry of a hash map whose key passes a test, where the entries are visited in
some order: any entry that passes may be the one. -/
namespace HashMap
variable {κ ν μ : Type*} [DecidableEq κ] {m : HashMap κ ν} {p : κ → Bool}

/-- Any entry may come first. -/
theorem exists_order_first {k : κ} {v : ν} (h : m.lookup k = some v) :
    ∃ l, IterOrder ((k, v) :: l) m := by
  classical
  obtain ⟨l, hl⟩ := exists_iterOrder m
  have hmem := (hl.mem_iff k v).mpr h
  refine ⟨l.erase (k, v), ?_⟩
  rw [IterOrder, ← hl, Multiset.coe_eq_coe]
  exact ((List.perm_cons_erase hmem).map _).symm

theorem IterOrder.lookup_of_find? {l : List (κ × ν)} (hl : IterOrder l m) {e : κ × ν}
    (h : (l.find? fun e => p e.1) = some e) : m.lookup e.1 = some e.2 ∧ p e.1 = true :=
  ⟨(hl.mem_iff e.1 e.2).mp (List.mem_of_find?_eq_some h),
    List.find?_some (p := fun e : κ × ν => p e.1) h⟩

theorem IterOrder.find?_eq_none_iff {l : List (κ × ν)} (hl : IterOrder l m) :
    (l.find? fun e => p e.1) = none ↔ ∀ k v, m.lookup k = some v → p k = false := by
  rw [List.find?_eq_none]
  constructor
  · intro h k v hk
    have hno := h (k, v) ((hl.mem_iff k v).mpr hk)
    exact Bool.eq_false_iff.mpr hno
  · intro h e he hp
    have hno := h e.1 e.2 ((hl.mem_iff e.1 e.2).mp he)
    rw [hno] at hp
    cases hp

/-- What is found is the same in every order exactly when all that pass are alike. -/
theorem find?_alike_iff (f : ν → μ) :
    (∀ l l', IterOrder l m → IterOrder l' m →
      (l.find? fun e => p e.1).map (fun e => f e.2) =
        (l'.find? fun e => p e.1).map fun e => f e.2) ↔
    ∀ k v k' v', m.lookup k = some v → m.lookup k' = some v' → p k = true → p k' = true →
      f v = f v' := by
  constructor
  · intro h k v k' v' hk hk' hp hp'
    obtain ⟨l, hl⟩ := exists_order_first hk
    obtain ⟨l', hl'⟩ := exists_order_first hk'
    have hsame := h _ _ hl hl'
    simp only [List.find?_cons, hp, hp', Option.map_some] at hsame
    exact Option.some.inj hsame
  · intro h l l' hl hl'
    cases he : l.find? fun e => p e.1 with
    | none =>
      rw [hl'.find?_eq_none_iff.mpr (hl.find?_eq_none_iff.mp he)]
    | some e =>
      cases he' : l'.find? fun e => p e.1 with
      | none =>
        rw [hl.find?_eq_none_iff.mpr (hl'.find?_eq_none_iff.mp he')] at he
        cases he
      | some e' =>
        obtain ⟨hk, hp⟩ := hl.lookup_of_find? he
        obtain ⟨hk', hp'⟩ := hl'.lookup_of_find? he'
        exact congrArg some (h _ _ _ _ hk hk' hp hp')

end HashMap

import SignalK.Lib.HashMap

/-! Maps together with the order in which an iterator walks them, and what a walk leaves. -/
namespace HashMap
variable {κ ν γ α : Type*}

structure Walk (κ ν : Type*) where
  map : HashMap κ ν
  entries : List (κ × ν)
  order : IterOrder entries map

def Walk.empty (κ ν : Type*) : Walk κ ν := ⟨∅, [], rfl⟩

/-- Two orders of one map differ in the order only. -/
theorem IterOrder.perm {l l' : List (κ × ν)} {m : HashMap κ ν} (h : IterOrder l m)
    (h' : IterOrder l' m) : l.Perm l' := by
  have hmap := Multiset.coe_eq_coe.mp (h.trans h'.symm)
  have hinj : Function.Injective fun e : κ × ν => (⟨e.1, e.2⟩ : Sigma fun _ : κ => ν) := by
    rintro ⟨a, b⟩ ⟨c, d⟩ he
    cases he
    rfl
  exact (List.map_perm_map_iff hinj).mp hmap

theorem IterOrder.of_perm {l l' : List (κ × ν)} {m : HashMap κ ν} (h : IterOrder l m)
    (hp : l.Perm l') : IterOrder l' m :=
  (Multiset.coe_eq_coe.mpr (hp.symm.map _)).trans h

variable [DecidableEq κ]

/-- What only one key changes is, after a walk, as the entry of this key has left it. -/
theorem IterOrder.foldl_observed {f : γ → κ × ν → γ} {g : γ → α} {k : κ} {h : ν → Option α}
    {l : List (κ × ν)} {m : HashMap κ ν} (ho : IterOrder l m)
    (hf : ∀ c e, g (f c e) = if e.1 = k then (h e.2).getD (g c) else g c) (c : γ) :
    g (l.foldl f c) = ((m.lookup k).bind h).getD (g c) := by
  have hskip : ∀ (l : List (κ × ν)) (c : γ), k ∉ l.map Prod.fst → g (l.foldl f c) = g c := by
    intro l
    induction l with
    | nil => exact fun _ _ => rfl
    | cons e l ih =>
      intro c hk
      obtain ⟨he, hl⟩ := not_or.mp (mt List.mem_cons.mpr hk)
      rw [List.foldl_cons, ih _ hl, hf, if_neg (Ne.symm he)]
  cases hm : m.lookup k with
  | none =>
    refine hskip l c fun hk => ?_
    obtain ⟨e, he, rfl⟩ := List.mem_map.mp hk
    have hsome := (ho.mem_iff e.1 e.2).mp he
    rw [hm] at hsome
    cases hsome
  | some v =>
    obtain ⟨l₁, l₂, hl⟩ := List.append_of_mem ((ho.mem_iff k v).mpr hm)
    have hn := ho.nodup
    rw [hl, List.map_append, List.map_cons, List.nodup_append, List.nodup_cons] at hn
    obtain ⟨-, ⟨hk₂, -⟩, hdisj⟩ := hn
    have hk₁ : k ∉ l₁.map Prod.fst := fun hk => hdisj k hk k List.mem_cons_self rfl
    calc
      g (l.foldl f c) = g (l₂.foldl f (f (l₁.foldl f c) (k, v))) := by
        rw [hl, List.foldl_append, List.foldl_cons]
      _ = g (f (l₁.foldl f c) (k, v)) := hskip l₂ _ hk₂
      _ = (h v).getD (g (l₁.foldl f c)) := by rw [hf, if_pos rfl]
      _ = (h v).getD (g c) := by rw [hskip l₁ c hk₁]

end HashMap

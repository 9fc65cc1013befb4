import SignalK.Lib.SortedMap

/-! Objects nested in objects, read and written along paths of keys. Writing
creates the objects it needs, merges into those it finds, overwrites what stands
at the end of the path, and does nothing when something else stands in the way.
Paths none of which is a prefix of another do not disturb each other. -/
namespace Nested
variable {κ J : Type*}

/-- Values some of which are objects. -/
class Node (κ : outParam (Type*)) (J : Type*) where
  object : List (κ × J) → J
  fields : J → Option (List (κ × J))
  fields_eq_some : ∀ j m, fields j = some m ↔ j = object m

variable [Node κ J]

@[simp] theorem fields_object (m : List (κ × J)) : Node.fields (Node.object m) = some m :=
  (Node.fields_eq_some _ _).mpr rfl

variable [LinearOrder κ]

/-- What stands at the end of a path. -/
def traverse : J → List κ → Option J
  | j, [] => some j
  | j, k :: ks => ((Node.fields j).bind (SortedMap.get k)).bind fun c => traverse c ks

/-- The fields below a key: none yet when the key is absent. -/
def inner (m : List (κ × J)) (k : κ) : Option (List (κ × J)) :=
  match SortedMap.get k m with
  | none => some []
  | some j => Node.fields j

def insert (m : List (κ × J)) : List κ → J → List (κ × J)
  | [], _ => m
  | [k], v => SortedMap.insert k v m
  | k :: l :: ks, v =>
    match inner m k with
    | none => m
    | some n => SortedMap.insert k (Node.object (insert n (l :: ks) v)) m

@[simp] theorem traverse_nil (j : J) : traverse j ([] : List κ) = some j := rfl

theorem traverse_object (m : List (κ × J)) (k : κ) (ks : List κ) :
    traverse (Node.object m) (k :: ks) = (SortedMap.get k m).bind fun c => traverse c ks := by
  simp [traverse]

theorem traverse_append (j : J) (p q : List κ) :
    traverse j (p ++ q) = (traverse j p).bind fun c => traverse c q := by
  induction p generalizing j with
  | nil => rfl
  | cons k ks ih =>
    rw [List.cons_append, traverse, traverse]
    cases (Node.fields j).bind (SortedMap.get k) with
    | none => rfl
    | some c => exact ih c

theorem traverse_empty {r : List κ} (h : r ≠ []) :
    traverse (Node.object ([] : List (κ × J))) r = none := by
  cases r with
  | nil => exact absurd rfl h
  | cons k ks => simp [traverse]

/-- Below a key, the old tree reads as the fields that stand there. -/
theorem traverse_inner {m n : List (κ × J)} {k : κ} (h : inner m k = some n) {r : List κ}
    (hr : r ≠ []) : traverse (Node.object m) (k :: r) = traverse (Node.object n) r := by
  rw [traverse_object]
  cases hg : SortedMap.get k m with
  | none =>
    simp only [inner, hg, Option.some.injEq] at h
    rw [← h, traverse_empty hr]
    rfl
  | some j =>
    simp only [inner, hg] at h
    rw [(Node.fields_eq_some j n).mp h]
    rfl

/-- Neither path is a prefix of the other. -/
def Unrelated (p q : List κ) : Prop :=
  ¬ p <+: q ∧ ¬ q <+: p

omit [LinearOrder κ] in
theorem Unrelated.symm {p q : List κ} (h : Unrelated p q) : Unrelated q p :=
  ⟨h.2, h.1⟩

theorem traverse_insert_of_unrelated {q r : List κ} (h : Unrelated q r) (m : List (κ × J))
    (v : J) : traverse (Node.object (insert m q v)) r = traverse (Node.object m) r := by
  induction q generalizing m r with
  | nil => exact absurd (List.nil_prefix) h.1
  | cons k ks ih =>
    cases r with
    | nil => exact absurd (List.nil_prefix) h.2
    | cons l ls =>
      cases ks with
      | nil =>
        have hl : l ≠ k := fun he => h.1 (by simp [he])
        rw [insert, traverse_object, traverse_object, SortedMap.get_insert_ne hl]
      | cons k' ks =>
        rw [insert]
        cases hn : inner m k with
        | none => rfl
        | some n =>
          by_cases hl : l = k
          · have hrest : Unrelated (k' :: ks) ls := by
              constructor
              · exact fun hp => h.1 (by simpa [hl] using hp)
              · exact fun hp => h.2 (by simpa [hl] using hp)
            have hls : ls ≠ [] := fun he => hrest.2 (he ▸ List.nil_prefix)
            rw [hl, traverse_object, SortedMap.get_insert_self, traverse_inner hn hls]
            exact ih hrest n
          · simp only [traverse_object, SortedMap.get_insert_ne hl]

/-- Insertion touches the fields of the first key only. -/
theorem mem_insert {m : List (κ × J)} {q : List κ} {v : J} {e : κ × J} (he : e ∈ insert m q v) :
    e ∈ m ∨ q.head? = some e.1 := by
  cases q with
  | nil => exact .inl he
  | cons k ks =>
    have hkey : ∀ j, e ∈ SortedMap.insert k j m → e ∈ m ∨ (k :: ks).head? = some e.1 := by
      intro j hj
      cases SortedMap.mem_insert k j m hj with
      | inl h => exact .inr (by rw [h]; rfl)
      | inr h => exact .inl h
    cases ks with
    | nil => exact hkey v he
    | cons l ks =>
      rw [insert] at he
      cases hn : inner m k with
      | none =>
        rw [hn] at he
        exact .inl he
      | some n =>
        rw [hn] at he
        exact hkey _ he

/-- Nothing but objects stands on the way to the end of a path. -/
def Open (m : List (κ × J)) (q : List κ) : Prop :=
  ∀ r, r ≠ [] → r <+: q → r ≠ q → ∀ j, traverse (Node.object m) r = some j →
    ∃ n, j = Node.object n

theorem traverse_insert_self {q : List κ} (hq : q ≠ []) {m : List (κ × J)} (h : Open m q)
    (v : J) : traverse (Node.object (insert m q v)) q = some v := by
  induction q generalizing m with
  | nil => exact absurd rfl hq
  | cons k ks ih =>
    cases ks with
    | nil => simp [insert, traverse_object]
    | cons l ks =>
      have hinner : ∃ n, inner m k = some n := by
        cases hg : SortedMap.get k m with
        | none => exact ⟨[], by simp [inner, hg]⟩
        | some j =>
          obtain ⟨n, hn⟩ := h [k] (by simp) (by simp) (by simp) j (by simp [traverse_object, hg])
          exact ⟨n, by simp [inner, hg, hn]⟩
      obtain ⟨n, hn⟩ := hinner
      have hopen : Open n (l :: ks) := by
        intro r hr hp hne j hj
        rw [← traverse_inner hn hr] at hj
        exact h (k :: r) (by simp) (by simpa using hp) (by simpa using hne) j hj
      rw [insert, hn, traverse_object, SortedMap.get_insert_self]
      exact ih (by simp) hopen

/-- A tree built by inserting a list of values into a base: each one is found,
and what no inserted path touches reads as in the base. -/
structure Built (base : List (κ × J)) (l : List (List κ × J)) (m : List (κ × J)) : Prop where
  found : ∀ e ∈ l, traverse (Node.object m) e.1 = some e.2
  kept : ∀ r, (∀ e ∈ l, Unrelated e.1 r) →
    traverse (Node.object m) r = traverse (Node.object base) r

theorem Built.nil (base : List (κ × J)) : Built base [] base :=
  ⟨by simp, fun _ _ => rfl⟩

/-- What the tree holds lies on some inserted path, below its end, or in the base. -/
theorem Built.known {base m : List (κ × J)} {l : List (List κ × J)} (h : Built base l m)
    {r : List κ} {j : J} (hj : traverse (Node.object m) r = some j) :
    (∃ e ∈ l, r <+: e.1 ∨ e.1 <+: r) ∨ traverse (Node.object base) r = some j := by
  by_cases hr : ∀ e ∈ l, Unrelated e.1 r
  · exact .inr ((h.kept r hr).symm.trans hj)
  · push Not at hr
    obtain ⟨e, he, hrel⟩ := hr
    refine .inl ⟨e, he, ?_⟩
    by_contra hno
    push Not at hno
    exact hrel ⟨hno.2, hno.1⟩

/-- A path that no inserted one is a prefix of, and that the base does not hold,
is open. -/
theorem Built.isOpen {base m : List (κ × J)} {l : List (List κ × J)} (h : Built base l m)
    {q : List κ} (hl : ∀ e ∈ l, Unrelated e.1 q)
    (hbase : ∀ r, r ≠ [] → r <+: q → traverse (Node.object base) r = none) : Open m q := by
  intro r hr hp hne j hj
  cases h.known hj with
  | inr hb =>
    rw [hbase r hr hp] at hb
    cases hb
  | inl hrel =>
    obtain ⟨e, he, hrel⟩ := hrel
    have hno : ¬ e.1 <+: r := fun hpre => (hl e he).1 (hpre.trans hp)
    obtain ⟨t, ht⟩ := hrel.resolve_right hno
    have hfound := h.found e he
    rw [← ht, traverse_append, hj] at hfound
    cases t with
    | nil => exact absurd (by simp [← ht]) hno
    | cons k ks =>
      cases hf : Node.fields j with
      | none => simp [traverse, hf] at hfound
      | some n => exact ⟨n, (Node.fields_eq_some j n).mp hf⟩

theorem Built.insert {base m : List (κ × J)} {l : List (List κ × J)} (h : Built base l m)
    {q : List κ} (hq : q ≠ []) (hl : ∀ e ∈ l, Unrelated e.1 q)
    (hbase : ∀ r, r ≠ [] → r <+: q → traverse (Node.object base) r = none) (v : J) :
    Built base (l ++ [(q, v)]) (Nested.insert m q v) where
  found := by
    intro e he
    cases List.mem_append.mp he with
    | inl he => rw [traverse_insert_of_unrelated (hl e he).symm, h.found e he]
    | inr he =>
      rw [List.mem_singleton.mp he]
      exact traverse_insert_self hq (h.isOpen hl hbase) v
  kept := by
    intro r hr
    have hq : Unrelated q r := hr (q, v) (by simp)
    rw [traverse_insert_of_unrelated hq]
    exact h.kept r fun e he => hr e (by simp [he])

/-- Inserting values at pairwise unrelated paths that the base leaves free. -/
theorem built_foldl {base : List (κ × J)} (l : List (List κ × J))
    (hne : ∀ e ∈ l, e.1 ≠ []) (hl : l.Pairwise fun e f => Unrelated e.1 f.1)
    (hbase : ∀ e ∈ l, ∀ r, r ≠ [] → r <+: e.1 → traverse (Node.object base) r = none) :
    Built base l (l.foldl (fun m e => Nested.insert m e.1 e.2) base) := by
  have hgen : ∀ (todo done : List (List κ × J)) (m : List (κ × J)), done ++ todo = l →
      Built base done m →
      Built base l (todo.foldl (fun m e => Nested.insert m e.1 e.2) m) := by
    intro todo
    induction todo with
    | nil =>
      intro done m hd hb
      rw [List.append_nil] at hd
      exact hd ▸ hb
    | cons e todo ih =>
      intro done m hd hb
      have he : e ∈ l := hd ▸ by simp
      have hdone : ∀ f ∈ done, Unrelated f.1 e.1 := by
        intro f hf
        rw [← hd] at hl
        exact (List.pairwise_append.mp hl).2.2 f hf e (by simp)
      exact ih (done ++ [e]) _ (by rw [← hd]; simp) (hb.insert (hne e he) hdone (hbase e he) e.2)
  exact hgen l [] base rfl (Built.nil base)

end Nested

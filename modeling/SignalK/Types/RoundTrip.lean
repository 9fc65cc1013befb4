import SignalK.Types.Nesting

/-! Deserializing a vessel's nested JSON: flattening recognises a leaf by its
three fields, so it gives the vessel back when no inner node has them all. -/
namespace SignalK

mutual
/-- The leaves of a JSON value, each under the keys that lead to it. -/
def leaves : Json → List (List String × Json)
  | .object obj => if isLeaf obj then [([], .object obj)] else childLeaves obj
  | _ => []

def childLeaves : List (String × Json) → List (List String × Json)
  | [] => []
  | (key, val) :: obj => (leaves val).map (fun e => (key :: e.1, e.2)) ++ childLeaves obj
end

theorem mem_childLeaves (obj : List (String × Json)) (e : List String × Json) :
    e ∈ childLeaves obj ↔
      ∃ key val r, (key, val) ∈ obj ∧ (r, e.2) ∈ leaves val ∧ e.1 = key :: r := by
  induction obj with
  | nil => simp [childLeaves]
  | cons f obj ih =>
    obtain ⟨key, val⟩ := f
    rw [childLeaves, List.mem_append, ih, List.mem_map]
    constructor
    · intro h
      cases h with
      | inl h =>
        obtain ⟨g, hg, rfl⟩ := h
        exact ⟨key, val, g.1, by simp, hg, rfl⟩
      | inr h =>
        obtain ⟨k, w, r, hm, hr⟩ := h
        exact ⟨k, w, r, List.mem_cons_of_mem _ hm, hr⟩
    · intro h
      obtain ⟨k, w, r, hm, hr, he⟩ := h
      cases List.mem_cons.mp hm with
      | inl heq =>
        cases heq
        exact .inl ⟨(r, e.2), hr, Prod.ext he.symm rfl⟩
      | inr hm => exact .inr ⟨k, w, r, hm, hr, he⟩

/-- The flat key under which a leaf is recorded. -/
def flatKey (pre : String) (keys : List String) : String :=
  keys.foldl (fun pre key => if pre = "" then key else pre ++ "." ++ key) pre

theorem flatKey_eq_join (pre : String) (keys : List String) (h : pre ≠ "") :
    flatKey pre keys = Text.join '.' (pre :: keys) := by
  induction keys generalizing pre with
  | nil => simp [flatKey, Text.join, List.intercalate]
  | cons key keys ih =>
    have hne : pre ++ "." ++ key ≠ "" := by
      intro he
      have hlist := congrArg String.toList he
      simp at hlist
    have hstep : flatKey pre (key :: keys) = flatKey (pre ++ "." ++ key) keys := by
      simp [flatKey, h]
    rw [hstep, ih _ hne, Text.join_cons_cons]
    rfl

/-- A map that agrees with another where it is defined. -/
def Within (map target : HashMap String SignalKValue) : Prop :=
  ∀ key sv, map.lookup key = some sv → target.lookup key = some sv

theorem Within.insert {map target : HashMap String SignalKValue} (h : Within map target)
    {key : String} {sv : SignalKValue} (hs : target.lookup key = some sv) :
    Within (map.insert key sv) target := by
  intro k w hw
  rw [HashMap.lookup_insert] at hw
  by_cases hk : k = key
  · rw [if_pos hk] at hw
    rw [hk, hs, hw]
  · rw [if_neg hk] at hw
    exact h k w hw

section
variable (fromValue : Json → Except String SignalKValue) (target : HashMap String SignalKValue)

/-- The leaf decodes to what the target has under its key. -/
def Decodes (pre : String) (e : List String × Json) : Prop :=
  ∃ sv, target.lookup (flatKey pre e.1) = some sv ∧ fromValue e.2 = .ok sv

/-- Flattening some leaves from a map inside the target stays inside it, keeps
what was there and records every leaf. -/
def Collects (pre : String) (ls : List (List String × Json)) (map : HashMap String SignalKValue)
    (result : Except String (HashMap String SignalKValue)) : Prop :=
  ∃ map', result = .ok map' ∧ Within map' target ∧ (∀ key, key ∈ map → key ∈ map') ∧
    ∀ e ∈ ls, flatKey pre e.1 ∈ map'

mutual
theorem flattenInto_collects (pre : String) :
    ∀ (j : Json) (map : HashMap String SignalKValue), Within map target →
      (∀ e ∈ leaves j, Decodes fromValue target pre e) →
      Collects target pre (leaves j) map (flattenInto fromValue pre j map)
  | .object obj, map, hw, hd => by
    by_cases hl : isLeaf obj = true
    · obtain ⟨sv, hs, hok⟩ := hd ([], .object obj) (by simp [leaves, hl])
      refine ⟨map.insert pre sv, by simp [flattenInto, hl, hok, Except.map], hw.insert hs, ?_, ?_⟩
      · intro key hk
        exact Finmap.mem_insert.mpr (.inr hk)
      · intro e he
        have he' : e = ([], .object obj) := by simpa [leaves, hl] using he
        rw [he']
        exact Finmap.mem_insert.mpr (.inl rfl)
    · have hleaves : leaves (.object obj) = childLeaves obj := by simp [leaves, hl]
      rw [hleaves] at hd ⊢
      have hflat : flattenInto fromValue pre (.object obj) map =
          flattenFields fromValue pre obj map := by simp [flattenInto, hl]
      rw [hflat]
      exact flattenFields_collects pre obj map hw hd
  | .null, map, hw, _ | .bool _, map, hw, _ | .number _, map, hw, _ | .string _, map, hw, _
  | .array _, map, hw, _ => ⟨map, rfl, hw, fun _ hk => hk, by simp [leaves]⟩

theorem flattenFields_collects (pre : String) :
    ∀ (obj : List (String × Json)) (map : HashMap String SignalKValue), Within map target →
      (∀ e ∈ childLeaves obj, Decodes fromValue target pre e) →
      Collects target pre (childLeaves obj) map (flattenFields fromValue pre obj map)
  | [], map, hw, _ => ⟨map, rfl, hw, fun _ hk => hk, by simp [childLeaves]⟩
  | (key, val) :: obj, map, hw, hd => by
    have hkey : ∀ r, flatKey pre (key :: r) =
        flatKey (if pre = "" then key else pre ++ "." ++ key) r := fun _ => rfl
    have hfirst : ∀ e ∈ leaves val,
        Decodes fromValue target (if pre = "" then key else pre ++ "." ++ key) e := by
      intro e he
      have hmem : (key :: e.1, e.2) ∈ childLeaves ((key, val) :: obj) := by
        rw [childLeaves, List.mem_append]
        exact .inl (List.mem_map.mpr ⟨e, he, rfl⟩)
      exact hd _ hmem
    obtain ⟨map₁, hok₁, hw₁, hkeep₁, hrec₁⟩ := flattenInto_collects _ val map hw hfirst
    have hrest : ∀ e ∈ childLeaves obj, Decodes fromValue target pre e := by
      intro e he
      exact hd e (by rw [childLeaves, List.mem_append]; exact .inr he)
    obtain ⟨map₂, hok₂, hw₂, hkeep₂, hrec₂⟩ := flattenFields_collects pre obj map₁ hw₁ hrest
    refine ⟨map₂, ?_, hw₂, fun k hk => hkeep₂ k (hkeep₁ k hk), ?_⟩
    · rw [flattenFields, hok₁]
      exact hok₂
    · intro e he
      rw [childLeaves, List.mem_append] at he
      cases he with
      | inl he =>
        obtain ⟨f, hf, rfl⟩ := List.mem_map.mp he
        exact hkeep₂ _ (hrec₁ f hf)
      | inr he => exact hrec₂ e he
end

end

/-! The leaves of a tree built by insertions. -/

theorem isLeaf_mono {m n : List (String × Json)}
    (h : ∀ k, (SortedMap.get k m).isSome → (SortedMap.get k n).isSome) (hm : isLeaf m = true) :
    isLeaf n = true := by
  simp only [isLeaf, Bool.and_eq_true] at hm ⊢
  exact ⟨⟨h _ hm.1.1, h _ hm.1.2⟩, h _ hm.2⟩

theorem get_insert_isSome {m : List (String × Json)} (q : List String) (v : Json) (k : String)
    (h : (SortedMap.get k m).isSome) : (SortedMap.get k (Nested.insert m q v)).isSome := by
  have hone : ∀ (l : String) (j : Json), (SortedMap.get k (SortedMap.insert l j m)).isSome := by
    intro l j
    rw [SortedMap.get_insert]
    split <;> simp [h]
  cases q with
  | nil => exact h
  | cons l ls =>
    cases ls with
    | nil => exact hone l v
    | cons l' ls =>
      rw [Nested.insert]
      cases Nested.inner m l with
      | none => exact h
      | some n => exact hone l _

/-- Inserting a leaf adds it and no other, when no node on its way is one. -/
theorem childLeaves_insert {q : List String} {v : Json}
    (hv : leaves v = [([], v)]) {m : List (String × Json)}
    (hin : ∀ r, r ≠ [] → r <+: q → r ≠ q → ∀ obj,
      Nested.traverse (Json.object (Nested.insert m q v)) r = some (.object obj) →
        isLeaf obj = false) {e : List String × Json}
    (he : e ∈ childLeaves (Nested.insert m q v)) : e = (q, v) ∨ e ∈ childLeaves m := by
  induction q generalizing m e with
  | nil => exact .inr he
  | cons k ks ih =>
    obtain ⟨key, val, r, hmem, hleaf, her⟩ := (mem_childLeaves _ e).mp he
    cases ks with
    | nil =>
      cases SortedMap.mem_insert k v m hmem with
      | inl heq =>
        cases heq
        rw [hv, List.mem_singleton] at hleaf
        obtain ⟨hr, hval⟩ := Prod.mk.inj hleaf
        exact .inl (Prod.ext (her.trans (by rw [hr])) hval)
      | inr hm => exact .inr ((mem_childLeaves m e).mpr ⟨key, val, r, hm, hleaf, her⟩)
    | cons l ks =>
      rw [Nested.insert] at hmem
      cases hn : Nested.inner m k with
      | none =>
        rw [hn] at hmem
        exact .inr ((mem_childLeaves m e).mpr ⟨key, val, r, hmem, hleaf, her⟩)
      | some n =>
        rw [hn] at hmem
        cases SortedMap.mem_insert k _ m hmem with
        | inr hm => exact .inr ((mem_childLeaves m e).mpr ⟨key, val, r, hm, hleaf, her⟩)
        | inl heq =>
          cases heq
          have hat : ∀ r,
              Nested.traverse (Json.object (Nested.insert m (k :: l :: ks) v)) (k :: r) =
              Nested.traverse (Json.object (Nested.insert n (l :: ks) v)) r := by
            intro r
            have ho := Nested.traverse_object (Nested.insert m (k :: l :: ks) v) k r
            rw [Nested.insert, hn, SortedMap.get_insert_self] at ho
            rw [Nested.insert, hn]
            exact ho
          have hnot : isLeaf (Nested.insert n (l :: ks) v) = false :=
            hin [k] (by simp) (by simp) (by simp) _ (hat [])
          have hchild : (r, e.2) ∈ childLeaves (Nested.insert n (l :: ks) v) := by
            have hl : leaves (.object (Nested.insert n (l :: ks) v)) =
                childLeaves (Nested.insert n (l :: ks) v) := by simp [leaves, hnot]
            rw [← hl]
            exact hleaf
          have hin' : ∀ r, r ≠ [] → r <+: l :: ks → r ≠ l :: ks → ∀ obj,
              Nested.traverse (Json.object (Nested.insert n (l :: ks) v)) r = some (.object obj) →
                isLeaf obj = false := by
            intro r hr hp hne obj hobj
            exact hin (k :: r) (by simp) (by simpa using hp) (by simpa using hne) obj
              ((hat r).trans hobj)
          cases ih hin' hchild with
          | inl h =>
            obtain ⟨hr, hval⟩ := Prod.mk.inj h
            exact .inl (Prod.ext (her.trans (by rw [hr])) hval)
          | inr h =>
            right
            cases hg : SortedMap.get k m with
            | none =>
              simp only [Nested.inner, hg, Option.some.injEq] at hn
              rw [← hn] at h
              simp [childLeaves] at h
            | some j =>
              simp only [Nested.inner, hg] at hn
              have hj : j = .object n := (Nested.Node.fields_eq_some j n).mp hn
              have hnl : isLeaf n = false := by
                by_contra hl
                have hmono := isLeaf_mono (get_insert_isSome (l :: ks) v)
                  (Bool.eq_true_of_not_eq_false hl)
                rw [hmono] at hnot
                cases hnot
              refine (mem_childLeaves m e).mpr ⟨k, j, r, SortedMap.mem_of_get hg, ?_, her⟩
              rw [hj]
              simpa [leaves, hnl] using h

/-- A leaf that is reached without passing another is a leaf of the tree. -/
theorem mem_leaves_of_traverse {p : List String} {j : Json} {obj : List (String × Json)}
    (hp : Nested.traverse j p = some (.object obj)) (hl : isLeaf obj = true)
    (hin : ∀ r, r <+: p → r ≠ p → ∀ obj, Nested.traverse j r = some (.object obj) →
      isLeaf obj = false) : (p, .object obj) ∈ leaves j := by
  induction p generalizing j with
  | nil =>
    have hj : j = .object obj := Option.some.inj hp
    simp [hj, leaves, hl]
  | cons k ks ih =>
    cases j with
    | object m =>
      have hm : isLeaf m = false := hin [] List.nil_prefix (by simp) m rfl
      have ht := Nested.traverse_object m k ks
      cases hg : SortedMap.get k m with
      | none =>
        rw [hg] at ht
        cases (ht.symm.trans hp)
      | some c =>
        rw [hg] at ht
        have hc : Nested.traverse c ks = some (.object obj) := ht.symm.trans hp
        have hmem := ih hc fun r hr hne obj' ho => by
          have hstep := Nested.traverse_object m k r
          rw [hg] at hstep
          exact hin (k :: r) (by simpa using hr) (by simpa using hne) obj' (hstep.trans ho)
        have hleaves : leaves (.object m) = childLeaves m := by simp [leaves, hm]
        rw [hleaves]
        exact (mem_childLeaves m _).mpr ⟨k, c, ks, SortedMap.mem_of_get hg, hmem, rfl⟩
    | _ => cases hp

namespace VesselData

/-- The paths of a vessel make a tree that flattening can read back: their
segments are not empty, none is a prefix of another, none starts with an identity
field, and no inner node has the three fields of a leaf. -/
structure Flat (v : VesselData) : Prop where
  segments_ne : ∀ p ∈ v.values, "" ∉ segments p
  unrelated : ∀ p ∈ v.values, ∀ q ∈ v.values, p ≠ q → ¬ segments p <+: segments q
  identity : ∀ p ∈ v.values, ∀ key ∈ ["uuid", "name", "mmsi"], (segments p).head? ≠ some key
  inner : ∀ r : List String, r ≠ [] →
    ¬ ∀ key ∈ ["value", "$source", "timestamp"], ∃ p ∈ v.values, r ++ [key] <+: segments p

theorem Flat.separate {v : VesselData} (h : v.Flat) : v.Separate where
  unrelated := h.unrelated
  identity p hp key _ hs := h.identity p hp key (idField_key hs)

/-- What stands below an inner node of the tree continues some path. -/
theorem built_children {v : VesselData} {l : List (List String × Json)}
    {m : List (String × Json)} (hb : Nested.Built v.base l m) {q r : List String}
    (hr : r ≠ []) (hp : r <+: q) (hne : r ≠ q)
    (hl : ∀ e ∈ l, e.1 = q ∨ Nested.Unrelated e.1 q) {obj : List (String × Json)}
    (hobj : Nested.traverse (Json.object m) r = some (.object obj)) {key : String}
    (hk : (SortedMap.get key obj).isSome) : ∃ e ∈ l, r ++ [key] <+: e.1 := by
  obtain ⟨j, hj⟩ := Option.isSome_iff_exists.mp hk
  have hat : Nested.traverse (Json.object m) (r ++ [key]) = some j := by
    rw [Nested.traverse_append, hobj]
    have ho := Nested.traverse_object obj key []
    rw [hj] at ho
    exact ho
  cases hb.known hat with
  | inl h =>
    obtain ⟨e, he, hrel⟩ := h
    refine ⟨e, he, ?_⟩
    cases hrel with
    | inl h => exact h
    | inr h =>
      cases List.prefix_concat_iff.mp h with
      | inl heq => exact heq ▸ List.prefix_rfl
      | inr hpre =>
        cases hl e he with
        | inl heq =>
          have hlen := hp.length_le
          rw [heq] at hpre
          exact absurd (hp.eq_of_length_le hpre.length_le) hne
        | inr hun => exact absurd (hpre.trans hp) hun.1
  | inr h =>
    cases r with
    | nil => exact absurd rfl hr
    | cons k ks =>
      rw [List.cons_append] at h
      have ho := Nested.traverse_object v.base k (ks ++ [key])
      rw [get_base] at ho
      have hnone : ((v.idField k).map Json.string).bind
          (fun c => Nested.traverse c (ks ++ [key])) = none := by
        cases v.idField k with
        | none => rfl
        | some s => cases ks <;> rfl
      cases (ho.trans hnone).symm.trans h

theorem mem_base {v : VesselData} {key : String} {val : Json} (h : (key, val) ∈ v.base) :
    ∃ s, v.idField key = some s ∧ val = .string s := by
  have hfold : ∀ (ids : List (String × String)) (map : List (String × Json)),
      (key, val) ∈ ids.foldl (fun map e => SortedMap.insert e.1 (.string e.2) map) map →
      (key, val) ∈ map ∨ ∃ s, (key, s) ∈ ids ∧ val = .string s := by
    intro ids
    induction ids with
    | nil => exact fun _ h => .inl h
    | cons e ids ih =>
      intro map h
      cases ih _ h with
      | inl h =>
        cases SortedMap.mem_insert _ _ _ h with
        | inl heq =>
          obtain ⟨hk, hv⟩ := Prod.mk.inj heq
          exact .inr ⟨e.2, by simp [hk], hv⟩
        | inr h => exact .inl h
      | inr h =>
        obtain ⟨s, hs, hv⟩ := h
        exact .inr ⟨s, List.mem_cons_of_mem _ hs, hv⟩
  cases hfold v.identity [] h with
  | inl h => cases h
  | inr h =>
    obtain ⟨s, hs, hv⟩ := h
    exact ⟨s, (v.mem_identity key s).mp hs, hv⟩

theorem childLeaves_base (v : VesselData) : childLeaves v.base = [] := by
  refine List.eq_nil_iff_forall_not_mem.mpr fun e he => ?_
  obtain ⟨key, val, r, hmem, hleaf, -⟩ := (mem_childLeaves _ e).mp he
  obtain ⟨s, -, hval⟩ := mem_base hmem
  rw [hval] at hleaf
  cases hleaf

theorem isLeaf_inner {v : VesselData} {l : List (List String × Json)} {m : List (String × Json)}
    (hb : Nested.Built v.base l m)
    (hinner : ∀ r : List String, r ≠ [] →
      ¬ ∀ key ∈ ["value", "$source", "timestamp"], ∃ e ∈ l, r ++ [key] <+: e.1)
    {q r : List String} (hr : r ≠ []) (hp : r <+: q) (hne : r ≠ q)
    (hl : ∀ e ∈ l, e.1 = q ∨ Nested.Unrelated e.1 q) {obj : List (String × Json)}
    (hobj : Nested.traverse (Json.object m) r = some (.object obj)) : isLeaf obj = false := by
  by_contra hleaf
  simp only [isLeaf, Bool.not_eq_false, Bool.and_eq_true] at hleaf
  refine hinner r hr fun key hkey => built_children hb hr hp hne hl hobj ?_
  simp only [List.mem_cons, List.not_mem_nil, or_false] at hkey
  obtain rfl | rfl | rfl := hkey
  · exact hleaf.1.1
  · exact hleaf.1.2
  · exact hleaf.2

/-- The leaves of a vessel's tree are its values, when no inner node looks like one. -/
theorem childLeaves_foldl {v : VesselData} (l : List (List String × Json))
    (hne : ∀ e ∈ l, e.1 ≠ []) (hl : l.Pairwise fun e f => Nested.Unrelated e.1 f.1)
    (hbase : ∀ e ∈ l, ∀ r, r ≠ [] → r <+: e.1 →
      Nested.traverse (Nested.Node.object v.base) r = none)
    (hleaf : ∀ e ∈ l, leaves e.2 = [([], e.2)])
    (hinner : ∀ r : List String, r ≠ [] →
      ¬ ∀ key ∈ ["value", "$source", "timestamp"], ∃ e ∈ l, r ++ [key] <+: e.1)
    {e : List String × Json}
    (he : e ∈ childLeaves (l.foldl (fun m e => Nested.insert m e.1 e.2) v.base)) : e ∈ l := by
  induction l using List.reverseRecOn with
  | nil =>
    rw [List.foldl_nil, childLeaves_base] at he
    cases he
  | append_singleton l f ih =>
    have hsub : ∀ e ∈ l, e ∈ l ++ [f] := fun e he => List.mem_append_left _ he
    obtain ⟨hl', -, hlf⟩ := List.pairwise_append.mp hl
    have hbuilt := Nested.built_foldl (l ++ [f]) hne hl hbase
    rw [List.foldl_append, List.foldl_cons, List.foldl_nil] at he hbuilt
    have hrel : ∀ e ∈ l ++ [f], e.1 = f.1 ∨ Nested.Unrelated e.1 f.1 := by
      intro e he
      cases List.mem_append.mp he with
      | inl he => exact .inr (hlf e he f (by simp))
      | inr he => exact .inl (by rw [List.mem_singleton.mp he])
    have hin : ∀ r, r ≠ [] → r <+: f.1 → r ≠ f.1 → ∀ obj,
        Nested.traverse (Json.object (Nested.insert
          (l.foldl (fun m e => Nested.insert m e.1 e.2) v.base) f.1 f.2)) r = some (.object obj) →
        isLeaf obj = false :=
      fun r hr hp hne obj hobj => isLeaf_inner hbuilt hinner hr hp hne hrel hobj
    cases childLeaves_insert (hleaf f (by simp)) hin he with
    | inl h => exact h ▸ by simp
    | inr h =>
      refine hsub e (ih (fun e he => hne e (hsub e he)) hl' (fun e he => hbase e (hsub e he))
        (fun e he => hleaf e (hsub e he)) ?_ h)
      intro r hr hall
      refine hinner r hr fun key hkey => ?_
      obtain ⟨e, he, hp⟩ := hall key hkey
      exact ⟨e, hsub e he, hp⟩

section
variable [LeafText] {v : VesselData} {entries : List (String × SignalKValue)}

theorem leafEntries_leaves {e : List String × Json} (he : e ∈ leafEntries entries) :
    leaves e.2 = [([], e.2)] := by
  obtain ⟨f, -, rfl⟩ := List.mem_map.mp he
  obtain ⟨obj, hobj, hl⟩ := f.2.toValue_isLeaf
  simp [hobj, leaves, hl]

theorem leafEntries_inner (h : v.Flat) (ho : HashMap.IterOrder entries v.values) (r : List String)
    (hr : r ≠ []) :
    ¬ ∀ key ∈ ["value", "$source", "timestamp"], ∃ e ∈ leafEntries entries, r ++ [key] <+: e.1 := by
  intro hall
  refine h.inner r hr fun key hkey => ?_
  obtain ⟨e, he, hp⟩ := hall key hkey
  obtain ⟨f, hf, rfl⟩ := List.mem_map.mp he
  exact ⟨f.1, mem_values ho hf, hp⟩

theorem childLeaves_toFields (h : v.Flat) (ho : HashMap.IterOrder entries v.values)
    {e : List String × Json} (he : e ∈ childLeaves (v.toFields entries)) :
    e ∈ leafEntries entries := by
  rw [toFields_eq] at he
  refine childLeaves_foldl _ ?_ (leafEntries_pairwise h.separate ho) ?_
    (fun e he => leafEntries_leaves he) (leafEntries_inner h ho) he
  · intro e he
    obtain ⟨f, -, rfl⟩ := List.mem_map.mp he
    exact Text.split_ne_nil '.' f.1
  · intro e he r hr hpre
    obtain ⟨f, hf, rfl⟩ := List.mem_map.mp he
    exact traverse_base h.separate (mem_values ho hf) hr hpre

theorem mem_childLeaves_toFields (h : v.Flat) (ho : HashMap.IterOrder entries v.values)
    {path : String} {sv : SignalKValue} (hv : v.values.lookup path = some sv) :
    (segments path, sv.toValue) ∈ childLeaves (v.toFields entries) := by
  have hfound := traverse_value h.separate ho hv
  obtain ⟨obj, hobj, hleaf⟩ := sv.toValue_isLeaf
  rw [hobj] at hfound ⊢
  have hin : ∀ r, r ≠ [] → r <+: segments path → r ≠ segments path → ∀ obj,
      Nested.traverse (Json.object (v.toFields entries)) r = some (.object obj) →
      isLeaf obj = false := by
    intro r hr hp hne obj hobj
    refine isLeaf_inner (toFields_built h.separate ho) (leafEntries_inner h ho) hr hp hne ?_ hobj
    intro e he
    obtain ⟨f, hf, rfl⟩ := List.mem_map.mp he
    by_cases hpath : f.1 = path
    · exact .inl (by rw [hpath])
    · have hmem := Finmap.mem_of_lookup_eq_some hv
      exact .inr ⟨h.unrelated _ (mem_values ho hf) _ hmem hpath,
        h.unrelated _ hmem _ (mem_values ho hf) (Ne.symm hpath)⟩
  cases hseg : segments path with
  | nil => exact absurd hseg (Text.split_ne_nil '.' path)
  | cons k ks =>
    rw [hseg] at hfound hin
    have hstep := Nested.traverse_object (v.toFields entries) k
    cases hg : SortedMap.get k (v.toFields entries) with
    | none =>
      simp only [hg] at hstep
      cases (hstep ks).symm.trans hfound
    | some c =>
      simp only [hg] at hstep
      refine (mem_childLeaves _ _).mpr ⟨k, c, ks, SortedMap.mem_of_get hg, ?_, rfl⟩
      refine mem_leaves_of_traverse ((hstep ks).symm.trans hfound) hleaf fun r hr hne obj' ho' => ?_
      exact hin (k :: r) (by simp) (by simpa using hr) (by simpa using hne) obj'
        ((hstep r).trans ho')

end

section
variable (fromValue : Json → Except String SignalKValue) (v : VesselData)

/-- A top-level field is an identity string of the vessel, or holds leaves of it. -/
def Reads (e : String × Json) : Prop :=
  (e.1 ∈ ["uuid", "name", "mmsi"] → ∃ s, v.idField e.1 = some s ∧ e.2 = .string s) ∧
    (e.1 ∉ ["uuid", "name", "mmsi"] → ∀ l ∈ leaves e.2, Decodes fromValue v.values e.1 l)

theorem readField_identity {e : String × Json} (h : Reads fromValue v e)
    (hk : e.1 ∈ ["uuid", "name", "mmsi"]) (w : VesselData) :
    ∃ w', w.readField fromValue e.1 e.2 = .ok w' ∧ w'.values = w.values ∧
      ∀ key, w'.idField key = if key = e.1 then v.idField key else w.idField key := by
  obtain ⟨key, val⟩ := e
  obtain ⟨s, hs, hval⟩ := h.1 hk
  simp only at hs hval hk
  subst hval
  simp only [List.mem_cons, List.not_mem_nil, or_false] at hk
  obtain rfl | rfl | rfl := hk
  · refine ⟨{ w with uuid := some s }, rfl, rfl, fun key => ?_⟩
    by_cases hkey : key = "uuid" <;> simp_all [idField]
  · refine ⟨{ w with name := some s }, rfl, rfl, fun key => ?_⟩
    by_cases hkey : key = "name" <;> simp_all [idField]
  · refine ⟨{ w with mmsi := some s }, rfl, rfl, fun key => ?_⟩
    by_cases hkey : key = "mmsi" <;> simp_all [idField]

theorem readField_leaves {e : String × Json} (h : Reads fromValue v e)
    (hk : e.1 ∉ ["uuid", "name", "mmsi"]) {w : VesselData} (hw : Within w.values v.values) :
    ∃ values, w.readField fromValue e.1 e.2 = .ok { w with values := values } ∧
      Within values v.values ∧ (∀ key, key ∈ w.values → key ∈ values) ∧
      ∀ l ∈ leaves e.2, flatKey e.1 l.1 ∈ values := by
  obtain ⟨values, hok, hrest⟩ :=
    flattenInto_collects fromValue v.values e.1 e.2 w.values hw (h.2 hk)
  refine ⟨values, ?_, hrest⟩
  simp only [List.mem_cons, List.not_mem_nil, or_false, not_or] at hk
  simp [readField, hk, hok, Except.map]

/-- Reading fields one after another gathers their leaves and identity strings. -/
theorem readFields (raw : List (String × Json)) (h : ∀ e ∈ raw, Reads fromValue v e)
    (w : VesselData) (hw : Within w.values v.values) :
    ∃ w', raw.foldlM (fun vessel e => vessel.readField fromValue e.1 e.2) w = .ok w' ∧
      Within w'.values v.values ∧ (∀ key, key ∈ w.values → key ∈ w'.values) ∧
      (∀ e ∈ raw, e.1 ∉ ["uuid", "name", "mmsi"] → ∀ l ∈ leaves e.2, flatKey e.1 l.1 ∈ w'.values) ∧
      ∀ key, w'.idField key = if key ∈ raw.map Prod.fst ∧ key ∈ ["uuid", "name", "mmsi"] then
        v.idField key else w.idField key := by
  induction raw generalizing w with
  | nil => exact ⟨w, rfl, hw, fun _ hk => hk, by simp, by simp⟩
  | cons e raw ih =>
    have he := h e List.mem_cons_self
    have hraw : ∀ e ∈ raw, Reads fromValue v e := fun f hf => h f (List.mem_cons_of_mem e hf)
    have hmem : ∀ key, key ∈ (e :: raw).map Prod.fst ↔ key = e.1 ∨ key ∈ raw.map Prod.fst := by
      intro key
      rw [List.map_cons, List.mem_cons]
    by_cases hk : e.1 ∈ ["uuid", "name", "mmsi"]
    · obtain ⟨w₁, hok₁, hvalues, hid₁⟩ := readField_identity fromValue v he hk w
      obtain ⟨w', hok, hw', hkeep, hrec, hid⟩ := ih hraw w₁ (hvalues ▸ hw)
      refine ⟨w', ?_, hw', fun key hkey => hkeep key (hvalues ▸ hkey), ?_, ?_⟩
      · rw [List.foldlM_cons, hok₁]
        exact hok
      · intro f hf hno
        cases List.mem_cons.mp hf with
        | inl heq => exact absurd (heq ▸ hk) hno
        | inr hf => exact hrec f hf hno
      · intro key
        rw [hid, hid₁]
        simp only [hmem]
        by_cases heq : key = e.1
        · simp only [heq, hk, true_or, and_true, if_true, ite_self]
        · simp only [heq, false_or, if_false]
    · obtain ⟨values, hok₁, hw₁, hkeep₁, hrec₁⟩ := readField_leaves fromValue v he hk hw
      obtain ⟨w', hok, hw', hkeep, hrec, hid⟩ := ih hraw { w with values := values } hw₁
      refine ⟨w', ?_, hw', fun key hkey => hkeep key (hkeep₁ key hkey), ?_, ?_⟩
      · rw [List.foldlM_cons, hok₁]
        exact hok
      · intro f hf hno l hl
        cases List.mem_cons.mp hf with
        | inl heq =>
          subst heq
          exact hkeep _ (hrec₁ l hl)
        | inr hf => exact hrec f hf hno l hl
      · intro key
        rw [hid]
        simp only [hmem]
        by_cases heq : key = e.1
        · simp only [heq, hk, and_false, if_false]
          rfl
        · simp only [heq, false_or]
          rfl

end

/-- The flat key that flattening builds from a path's segments is the path. -/
theorem flatKey_segments {path k : String} {ks : List String} (hseg : segments path = k :: ks)
    (hne : "" ∉ segments path) : flatKey k ks = path := by
  have hk : k ≠ "" := fun he => hne (by simp [hseg, he])
  rw [flatKey_eq_join k ks hk, ← hseg, segments, Text.join_split]

theorem mem_toFields [LeafText] {v : VesselData} {entries : List (String × SignalKValue)}
    {e : String × Json} (he : e ∈ v.toFields entries) :
    e ∈ v.base ∨ ∃ f ∈ entries, (segments f.1).head? = some e.1 := by
  have hfold : ∀ (l : List (List String × Json)) (map : List (String × Json)),
      e ∈ l.foldl (fun m e => Nested.insert m e.1 e.2) map →
      e ∈ map ∨ ∃ f ∈ l, f.1.head? = some e.1 := by
    intro l
    induction l with
    | nil => exact fun _ h => .inl h
    | cons g l ih =>
      intro map h
      cases ih _ h with
      | inl h => exact (Nested.mem_insert h).imp_right fun hh => ⟨g, List.mem_cons_self, hh⟩
      | inr h =>
        obtain ⟨f, hf, hh⟩ := h
        exact .inr ⟨f, List.mem_cons_of_mem _ hf, hh⟩
  rw [toFields_eq] at he
  refine (hfold _ _ he).imp_right fun h => ?_
  obtain ⟨f, hf, hh⟩ := h
  obtain ⟨g, hg, rfl⟩ := List.mem_map.mp hf
  exact ⟨g, hg, hh⟩

theorem toFields_reads [LeafText] {fromValue : Json → Except String SignalKValue}
    {v : VesselData} {entries : List (String × SignalKValue)} (h : v.Flat)
    (ho : HashMap.IterOrder entries v.values)
    (hcodec : ∀ path sv, v.values.lookup path = some sv → fromValue sv.toValue = .ok sv)
    {e : String × Json} (he : e ∈ v.toFields entries) : Reads fromValue v e := by
  constructor
  · intro hk
    cases mem_toFields he with
    | inl hb => exact mem_base hb
    | inr hf =>
      obtain ⟨f, hf, hhead⟩ := hf
      exact absurd hhead (h.identity f.1 (mem_values ho hf) e.1 hk)
  · intro _ l hl
    have hchild : (e.1 :: l.1, l.2) ∈ childLeaves (v.toFields entries) :=
      (mem_childLeaves _ _).mpr ⟨e.1, e.2, l.1, he, hl, rfl⟩
    obtain ⟨f, hf, heq⟩ := List.mem_map.mp (childLeaves_toFields h ho hchild)
    obtain ⟨hseg, hval⟩ := Prod.mk.inj heq
    have hsv := (ho.mem_iff f.1 f.2).mp hf
    refine ⟨f.2, ?_, hval ▸ hcodec f.1 f.2 hsv⟩
    rw [flatKey_segments hseg (h.segments_ne f.1 (mem_values ho hf))]
    exact hsv

/-- Deserializing what a vessel serializes to, whatever the order its map is
iterated in, gives the vessel back. -/
theorem ofFields_toFields [LeafText] (fromValue : Json → Except String SignalKValue)
    (v : VesselData) (entries : List (String × SignalKValue)) (h : v.Flat)
    (ho : HashMap.IterOrder entries v.values)
    (hcodec : ∀ path sv, v.values.lookup path = some sv → fromValue sv.toValue = .ok sv) :
    VesselData.ofFields fromValue (v.toFields entries) = .ok v := by
  obtain ⟨w, hok, hwithin, -, hrec, hid⟩ := readFields fromValue v (v.toFields entries)
    (fun e he => toFields_reads h ho hcodec he) VesselData.empty (fun _ _ hl => by cases hl)
  have hids : ∀ key ∈ ["uuid", "name", "mmsi"], w.idField key = v.idField key := by
    intro key hkey
    rw [hid]
    by_cases hmem : key ∈ (v.toFields entries).map Prod.fst
    · rw [if_pos ⟨hmem, hkey⟩]
    · rw [if_neg fun hand => hmem hand.1]
      cases hs : v.idField key with
      | none => simp [idField, VesselData.empty]
      | some s =>
        have hget := get_identity h.separate ho hs
        exact absurd (List.mem_map.mpr ⟨_, SortedMap.mem_of_get hget, rfl⟩) hmem
  have hvalues : w.values = v.values := by
    refine Finmap.ext_lookup fun path => ?_
    cases hv : v.values.lookup path with
    | none =>
      cases hw : w.values.lookup path with
      | none => rfl
      | some sv =>
        have hsv := hwithin path sv hw
        rw [hv] at hsv
        cases hsv
    | some sv =>
      obtain ⟨key, val, r, hmem, hleaf, hseg⟩ :=
        (mem_childLeaves _ _).mp (mem_childLeaves_toFields h ho hv)
      have hpath : path ∈ v.values := Finmap.mem_of_lookup_eq_some hv
      have hkey : key ∉ ["uuid", "name", "mmsi"] := by
        intro hk
        exact h.identity path hpath key hk (congrArg List.head? hseg)
      have hrecorded := hrec (key, val) hmem hkey _ hleaf
      rw [flatKey_segments hseg (h.segments_ne path hpath)] at hrecorded
      obtain ⟨sv', hsv'⟩ := Finmap.mem_iff.mp hrecorded
      rw [hsv', ← hv]
      exact (hwithin path sv' hsv').symm
  have huuid : w.uuid = v.uuid := hids "uuid" (by simp)
  have hname : w.name = v.name := hids "name" (by simp)
  have hmmsi : w.mmsi = v.mmsi := hids "mmsi" (by simp)
  have hwv : w = v := by
    obtain ⟨uuid, name, mmsi, values⟩ := w
    obtain ⟨uuid', name', mmsi', values'⟩ := v
    simp only at huuid hname hmmsi hvalues
    rw [huuid, hname, hmmsi, hvalues]
  rw [VesselData.ofFields, hok, hwv]

section
local instance : LeafText := LeafText.plain "2024-01-01T00:00:00Z"

/-- The codec of plain leaves of midnight. -/
def readMidnight (j : Json) : Except String SignalKValue :=
  match j.get "value", (j.get "$source").bind Json.asStr, (j.get "timestamp").bind Json.asStr with
  | some value, some source, some time =>
    if time = "2024-01-01T00:00:00Z" then .ok (SignalKValue.new value source 1704067200000000000)
    else .error "invalid timestamp"
  | _, _, _ => .error "missing field"

theorem readMidnight_new (value : Json) (source : SourceRef) :
    readMidnight (SignalKValue.new value source 1704067200000000000).toValue =
      .ok (SignalKValue.new value source 1704067200000000000) := by
  obtain ⟨obj, hobj, hvalue, hsource, htime⟩ :=
    (SignalKValue.new value source 1704067200000000000).toValue_fields
  rw [hobj]
  simp [readMidnight, Json.get, hvalue, hsource, htime, Json.asStr, SignalKValue.new,
    LeafText.timestamp]

theorem ofFields_toFields_two_paths :
    let sog := SignalKValue.new (Json.ofF64 (77 / 20)) "gps.0" 1704067200000000000
    let depth := SignalKValue.new (Json.ofF64 (25 / 2)) "depth.0" 1704067200000000000
    let entries := [("navigation.speedOverGround", sog), ("environment.depth.belowKeel", depth)]
    let v : VesselData := ⟨some "urn:mrn:signalk:uuid:1", some "My Boat", none,
      HashMap.collect entries⟩
    VesselData.ofFields readMidnight (v.toFields entries) = .ok v := by
  intro sog depth entries v
  have hpaths : ∀ p ∈ v.values,
      p = "environment.depth.belowKeel" ∨ p = "navigation.speedOverGround" := by
    intro p hp
    simpa [v, entries, HashMap.collect, Finmap.notMem_empty] using hp
  have hflat : v.Flat := by
    constructor
    · intro p hp
      obtain rfl | rfl := hpaths p hp <;> decide
    · intro p hp q hq
      obtain rfl | rfl := hpaths p hp <;> obtain rfl | rfl := hpaths q hq <;> decide
    · intro p hp
      obtain rfl | rfl := hpaths p hp <;> decide
    · intro r _ hall
      obtain ⟨p, hp, hpre⟩ := hall "value" (by simp)
      have hmem : "value" ∈ segments p := hpre.subset (by simp)
      obtain rfl | rfl := hpaths p hp <;> revert hmem <;> decide
  refine ofFields_toFields readMidnight v entries hflat (by decide +kernel) ?_
  intro path sv hsv
  have hmem : (path, sv) ∈ entries :=
    (HashMap.IterOrder.mem_iff (m := v.values) (by decide +kernel) path sv).mpr hsv
  simp only [entries, List.mem_cons, List.not_mem_nil, or_false, Prod.mk.injEq] at hmem
  obtain ⟨-, rfl⟩ | ⟨-, rfl⟩ := hmem <;> exact readMidnight_new _ _

end

end VesselData
end SignalK

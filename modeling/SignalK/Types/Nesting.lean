import SignalK.Types.Full

/-! The nested JSON of a vessel as a tree with the vessel's leaves at the ends of
their paths. This is right as long as no path is a prefix of another and none
starts with an identity field that is set. -/
namespace SignalK

theorem insertNested_eq (map : List (String × Json)) (parts : List String) (value : Json) :
    insertNested map parts value = Nested.insert map parts value := by
  induction parts generalizing map with
  | nil => rfl
  | cons head tail ih =>
    cases tail with
    | nil => rfl
    | cons key tail =>
      cases hg : SortedMap.get head map with
      | none =>
        simp only [insertNested, Nested.insert, Nested.inner, hg, ih]
        rfl
      | some j =>
        cases j with
        | object nested =>
          simp only [insertNested, Nested.insert, Nested.inner, hg, ih]
          rfl
        | _ => simp [insertNested, Nested.insert, Nested.inner, hg, Nested.Node.fields]

/-- A leaf is an object that carries the active value under its three fields. -/
theorem SignalKValue.toValue_fields [LeafText] (v : SignalKValue) :
    ∃ obj, v.toValue = .object obj ∧ SortedMap.get "value" obj = some v.value ∧
      SortedMap.get "$source" obj = some (.string v.source) ∧
      SortedMap.get "timestamp" obj = some (.string (LeafText.timestamp v.timestamp)) := by
  refine ⟨_, rfl, ?_⟩
  cases v.meta_ <;> cases v.values <;> simp [SortedMap.get_insert]

theorem SignalKValue.toValue_isLeaf [LeafText] (v : SignalKValue) :
    ∃ obj, v.toValue = .object obj ∧ isLeaf obj = true := by
  obtain ⟨obj, hobj, hvalue, hsource, htime⟩ := v.toValue_fields
  exact ⟨obj, hobj, by simp [isLeaf, hvalue, hsource, htime]⟩

namespace VesselData

/-- The identity field of a key, if it is one. -/
def idField (v : VesselData) (key : String) : Option String :=
  if key = "uuid" then v.uuid
  else if key = "name" then v.name
  else if key = "mmsi" then v.mmsi
  else none

theorem idField_key {v : VesselData} {key s : String} (h : v.idField key = some s) :
    key ∈ ["uuid", "name", "mmsi"] := by
  by_contra hno
  simp only [List.mem_cons, List.not_mem_nil, or_false, not_or] at hno
  simp [idField, hno] at h

theorem mem_identity (v : VesselData) (key s : String) :
    (key, s) ∈ v.identity ↔ v.idField key = some s := by
  simp only [identity, idField, List.mem_append, Option.mem_toList, Option.map_eq_some_iff,
    Prod.mk.injEq]
  grind

/-- The map that serialization starts from. -/
def base (v : VesselData) : List (String × Json) :=
  v.identity.foldl (fun map e => SortedMap.insert e.1 (.string e.2) map) []

theorem get_base (v : VesselData) (key : String) :
    SortedMap.get key v.base = (v.idField key).map .string := by
  have hget : SortedMap.get key v.base =
      if key = "mmsi" ∧ v.mmsi.isSome then v.mmsi.map .string
      else if key = "name" ∧ v.name.isSome then v.name.map .string
      else if key = "uuid" then v.uuid.map .string else none := by
    cases hu : v.uuid <;> cases hn : v.name <;> cases hm : v.mmsi <;>
      simp [base, identity, hu, hn, hm, SortedMap.get_insert]
  rw [hget, idField]
  cases hu : v.uuid <;> cases hn : v.name <;> cases hm : v.mmsi <;> grind

/-- No path is a prefix of another, and none starts with an identity field that
is set. -/
structure Separate (v : VesselData) : Prop where
  unrelated : ∀ p ∈ v.values, ∀ q ∈ v.values, p ≠ q → ¬ segments p <+: segments q
  identity : ∀ p ∈ v.values, ∀ key s, v.idField key = some s → (segments p).head? ≠ some key

/-- The leaves of a vessel under the segments of their paths. -/
def leafEntries [LeafText] (entries : List (String × SignalKValue)) :
    List (List String × Json) :=
  entries.map fun e => (segments e.1, e.2.toValue)

theorem toFields_eq [LeafText] (v : VesselData) (entries : List (String × SignalKValue)) :
    v.toFields entries =
      (leafEntries entries).foldl (fun map e => Nested.insert map e.1 e.2) v.base := by
  simp [toFields, leafEntries, List.foldl_map, base, insertNested_eq]

theorem mem_values {v : VesselData} {entries : List (String × SignalKValue)}
    (ho : HashMap.IterOrder entries v.values) {e : String × SignalKValue} (he : e ∈ entries) :
    e.1 ∈ v.values :=
  Finmap.mem_of_lookup_eq_some ((ho.mem_iff e.1 e.2).mp he)

theorem leafEntries_pairwise [LeafText] {v : VesselData} (h : v.Separate)
    {entries : List (String × SignalKValue)} (ho : HashMap.IterOrder entries v.values) :
    (leafEntries entries).Pairwise fun e f => Nested.Unrelated e.1 f.1 := by
  rw [leafEntries, List.pairwise_map]
  have hn : entries.Pairwise fun e f => e.1 ≠ f.1 := List.pairwise_map.mp ho.nodup
  refine hn.imp_of_mem fun he hf hne => ?_
  exact ⟨h.unrelated _ (mem_values ho he) _ (mem_values ho hf) hne,
    h.unrelated _ (mem_values ho hf) _ (mem_values ho he) hne.symm⟩

/-- The base holds nothing on the path of a value. -/
theorem traverse_base {v : VesselData} (h : v.Separate) {path : String} (hp : path ∈ v.values)
    {r : List String} (hr : r ≠ []) (hpre : r <+: segments path) :
    Nested.traverse (Nested.Node.object v.base) r = none := by
  cases r with
  | nil => exact absurd rfl hr
  | cons k ks =>
    rw [Nested.traverse_object]
    rw [get_base]
    cases hs : v.idField k with
    | none => rfl
    | some s =>
      obtain ⟨t, ht⟩ := hpre
      exact absurd (by rw [← ht]; rfl) (h.identity path hp k s hs)

/-- The nested JSON is the tree of the vessel's leaves over its identity. -/
theorem toFields_built [LeafText] {v : VesselData} (h : v.Separate)
    {entries : List (String × SignalKValue)} (ho : HashMap.IterOrder entries v.values) :
    Nested.Built v.base (leafEntries entries) (v.toFields entries) := by
  rw [toFields_eq]
  refine Nested.built_foldl _ ?_ (leafEntries_pairwise h ho) ?_
  · intro e he
    obtain ⟨f, -, rfl⟩ := List.mem_map.mp he
    exact Text.split_ne_nil '.' f.1
  · intro e he r hr hpre
    obtain ⟨f, hf, rfl⟩ := List.mem_map.mp he
    exact traverse_base h (mem_values ho hf) hr hpre

/-- Every value is found along the segments of its path. -/
theorem traverse_value [LeafText] {v : VesselData} (h : v.Separate)
    {entries : List (String × SignalKValue)} (ho : HashMap.IterOrder entries v.values)
    {path : String} {sv : SignalKValue} (hv : v.values.lookup path = some sv) :
    Nested.traverse (Json.object (v.toFields entries)) (segments path) = some sv.toValue := by
  have hmem := (ho.mem_iff path sv).mpr hv
  exact (toFields_built h ho).found (segments path, sv.toValue) (List.mem_map.mpr ⟨_, hmem, rfl⟩)

/-- The identity strings that are set stay where they are. -/
theorem get_identity [LeafText] {v : VesselData} (h : v.Separate)
    {entries : List (String × SignalKValue)} (ho : HashMap.IterOrder entries v.values)
    {key s : String} (hs : v.idField key = some s) :
    SortedMap.get key (v.toFields entries) = some (.string s) := by
  have hfree : ∀ e ∈ leafEntries entries, Nested.Unrelated e.1 [key] := by
    intro e he
    obtain ⟨f, hf, rfl⟩ := List.mem_map.mp he
    have hhead := h.identity f.1 (mem_values ho hf) key s hs
    constructor
    · intro hpre
      have hne := Text.split_ne_nil '.' f.1
      obtain ⟨t, ht⟩ := hpre
      cases hseg : segments f.1 with
      | nil => exact hne hseg
      | cons k ks =>
        rw [hseg] at ht hhead
        simp only [List.cons_append, List.cons.injEq] at ht
        exact hhead (by simp [ht.1])
    · intro hpre
      obtain ⟨t, ht⟩ := hpre
      have hseg : segments f.1 = [key] ++ t := ht.symm
      exact hhead (by rw [hseg]; rfl)
  have hkept := (toFields_built h ho).kept [key] hfree
  rw [Nested.traverse_object, Nested.traverse_object, get_base, hs] at hkept
  cases hg : SortedMap.get key (v.toFields entries) with
  | none =>
    rw [hg] at hkept
    cases hkept
  | some j =>
    rw [hg] at hkept
    exact hkept

end VesselData
end SignalK

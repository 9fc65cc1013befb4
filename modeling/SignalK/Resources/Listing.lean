import SignalK.Resources.Registry

/-! Lists of resources against single reads, without a limit and with one. -/
namespace SignalK.Resources
open ResourceProviderRegistry

section
variable {π σ : Type} {r : ResourceProviderRegistry π} {b : Providers π σ} {t : String} {s : σ}

/-- A provider lists what it gives, and does not fail. -/
structure Lists (b : Providers π σ) (p : π) (t : String) (query : ResourceQueryParams) (s : σ)
    (data : List (String × Json)) : Prop where
  list : b.list p t query s = .ok (.object data)
  get : ∀ id v, b.get p t id s = .ok (some v) ↔ SortedMap.get id data = some v
  missing : ∀ id e, b.get p t id s = .error e → isNotFound e

/-- Under a limit a provider lists some of its entries. -/
structure Truncates (b : Providers π σ) (p : π) (t : String) (query : ResourceQueryParams) (s : σ)
    (data part : List (String × Json)) : Prop where
  list : b.list p t query s = .ok (.object part)
  get : ∀ id v, SortedMap.get id part = some v → SortedMap.get id data = some v

/-- The first of the providers that has an id. -/
def firstFound (data : π → List (String × Json)) (id : String) (ps : List π) : Option Json :=
  ps.findSome? fun p => SortedMap.get id (data p)

theorem list_eq (query : ResourceQueryParams) {data : π → List (String × Json)}
    (hq : query.provider = none)
    (hlist : ∀ p ∈ r.polled t, b.list p t query s = .ok (.object (data p))) :
    r.list b t query s = .ok (.object
      (applyLimit query.limit (((r.polled t).map data).foldl SortedMap.mergeInto []))) := by
  have hfold : ∀ (l : List (String × π)) (merged : List (String × Json)),
      (∀ p ∈ l.map Prod.snd, b.list p t query s = .ok (.object (data p))) →
      l.foldl (fun merged e => merge merged (b.list e.2 t query s)) merged =
        ((l.map Prod.snd).map data).foldl SortedMap.mergeInto merged := by
    intro l
    induction l with
    | nil => exact fun _ _ => rfl
    | cons e l ih =>
      intro merged h
      have he : merge merged (b.list e.2 t query s) = SortedMap.mergeInto merged (data e.2) := by
        rw [h e.2 (by simp)]
        rfl
      rw [List.foldl_cons, he, ih _ fun p hp => h p (List.mem_cons_of_mem _ hp)]
      rfl
  have hmem : ∀ p ∈ (r.registered t).map Prod.snd,
      b.list p t query s = .ok (.object (data p)) :=
    fun p hp => hlist p (List.mem_append_left _ hp)
  have hfile := hlist r.fileProvider (List.mem_append_right _ (List.mem_singleton_self _))
  rw [ResourceProviderRegistry.list, hq]
  dsimp only
  rw [hfold _ [] hmem, hfile, polled, List.map_append, List.foldl_append]
  rfl

/-- A single read gives what the first of the providers that has the id gives. -/
theorem get_iff {query : ResourceQueryParams} {data : π → List (String × Json)}
    (hdata : ∀ p ∈ r.polled t, Lists b p t query s (data p)) (id : String) (v : Json) :
    r.get b t id none s = .ok (some v) ↔ firstFound data id (r.polled t) = some v := by
  have hpoll : ∀ l : List (String × π), (∀ p ∈ l.map Prod.snd, Lists b p t query s (data p)) →
      (r.pollGet b t id s l = .ok (some v) ↔
        firstFound data id (l.map Prod.snd ++ [r.fileProvider]) = some v) := by
    intro l
    induction l with
    | nil =>
      intro _
      have hfile := hdata r.fileProvider (List.mem_append_right _ (List.mem_singleton_self _))
      rw [pollGet, hfile.get, firstFound]
      simp
    | cons e l ih =>
      intro h
      have he := h e.2 (by simp)
      have htail := ih fun p hp => h p (List.mem_cons_of_mem _ hp)
      cases hg : SortedMap.get id (data e.2) with
      | some w =>
        have hget := (he.get id w).mpr hg
        rw [pollGet, hget]
        simp [firstFound, hg]
      | none =>
        have hnext : r.pollGet b t id s (e :: l) = r.pollGet b t id s l := by
          rw [pollGet]
          cases hget : b.get e.2 t id s with
          | error err => simp [he.missing id err hget]
          | ok found =>
            cases found with
            | none => rfl
            | some w =>
              have hsome := (he.get id w).mp hget
              rw [hg] at hsome
              cases hsome
        rw [hnext, htail]
        simp [firstFound, hg]
  exact hpoll _ fun p hp => hdata p (List.mem_append_left _ hp)

/-- The ids that are listed under a limit. -/
def listedIds (part : π → List (String × Json)) (ps : List π) : Finset String :=
  (ps.flatMap fun p => (part p).map Prod.fst).toFinset

/-- An id is among the first that are listed under a limit; the provider that single reads take it
from leaves it out, and the next one that lists it has another value. -/
def Displaced (data part : π → List (String × Json)) (n : Nat) (ps : List π) (id : String) :
    Prop :=
  ((listedIds part ps).filter (· < id)).card < n ∧
    ∃ pre p post u v, ps = pre ++ p :: post ∧ (∀ q ∈ pre, SortedMap.get id (data q) = none) ∧
      SortedMap.get id (data p) = some u ∧ SortedMap.get id (part p) = none ∧
      firstFound part id post = some v ∧ u ≠ v

/-- What a provider does not have it does not list under a limit. -/
theorem none_of_truncated {data part : List (String × Json)}
    (hsub : ∀ id v, SortedMap.get id part = some v → SortedMap.get id data = some v) {id : String}
    (h : SortedMap.get id data = none) : SortedMap.get id part = none := by
  cases hg : SortedMap.get id part with
  | none => rfl
  | some v =>
    rw [hsub id v hg] at h
    cases h

/-- Without its first provider that has it, an id is listed as the next one has it. -/
theorem displaced_iff {data part : π → List (String × Json)} {n : Nat} {ps : List π}
    (hsub : ∀ p ∈ ps, ∀ id v, SortedMap.get id (part p) = some v →
      SortedMap.get id (data p) = some v) (id : String) :
    Displaced data part n ps id ↔ ((listedIds part ps).filter (· < id)).card < n ∧
      ∃ v, firstFound part id ps = some v ∧ firstFound data id ps ≠ some v := by
  refine and_congr_right fun _ => ?_
  constructor
  · rintro ⟨pre, p, post, u, v, rfl, hpre, hu, hpart, hv, huv⟩
    have hpre' : ∀ q ∈ pre, SortedMap.get id (part q) = none := fun q hq =>
      none_of_truncated (hsub q (List.mem_append_left _ hq)) (hpre q hq)
    have hdata : firstFound data id (pre ++ p :: post) = some u :=
      List.findSome?_eq_some_iff.mpr ⟨pre, p, post, rfl, hu, hpre⟩
    refine ⟨v, ?_, fun h => huv (Option.some.inj (hdata.symm.trans h))⟩
    rw [firstFound, List.findSome?_append, List.findSome?_eq_none_iff.mpr hpre', Option.none_or,
      List.findSome?_cons, hpart]
    exact hv
  · rintro ⟨v, hv, hne⟩
    cases hdata : firstFound data id ps with
    | none =>
      obtain ⟨l₁, p, l₂, rfl, hp, -⟩ := List.findSome?_eq_some_iff.mp hv
      have hmem : p ∈ l₁ ++ p :: l₂ := by simp
      have hnone := List.findSome?_eq_none_iff.mp hdata p hmem
      rw [hsub p hmem id v hp] at hnone
      cases hnone
    | some u =>
      have huv : u ≠ v := fun h => hne (h ▸ hdata)
      obtain ⟨pre, p, post, rfl, hu, hpre⟩ := List.findSome?_eq_some_iff.mp hdata
      have hpre' : ∀ q ∈ pre, SortedMap.get id (part q) = none := fun q hq =>
        none_of_truncated (hsub q (List.mem_append_left _ hq)) (hpre q hq)
      rw [firstFound, List.findSome?_append, List.findSome?_eq_none_iff.mpr hpre',
        Option.none_or, List.findSome?_cons] at hv
      cases hpart : SortedMap.get id (part p) with
      | none =>
        rw [hpart] at hv
        exact ⟨pre, p, post, u, v, rfl, hpre, hu, hpart, hv, huv⟩
      | some w =>
        have hw := hsub p (by simp) id w hpart
        rw [hpart] at hv
        exact absurd (Option.some.inj (hu.symm.trans (hw.trans hv))) huv

theorem applyLimit_eq (n : Nat) (merged : List (String × Json)) :
    applyLimit (some n) merged = merged.take n := by
  simp only [applyLimit]
  split_ifs with h
  · rfl
  · exact (List.take_of_length_le (by omega)).symm

/-- The merged map has the ids of all lists. -/
theorem merged_ids (part : π → List (String × Json)) (ps : List π) :
    (((ps.map part).foldl SortedMap.mergeInto []).map Prod.fst).toFinset = listedIds part ps := by
  ext id
  rw [List.mem_toFinset, ← SortedMap.isSome_get_iff, SortedMap.get_foldl_mergeInto, listedIds,
    List.mem_toFinset, List.mem_flatMap, SortedMap.get_nil, Option.none_or, List.findSome?_map,
    List.findSome?_isSome_iff]
  exact exists_congr fun p => and_congr_right fun _ => SortedMap.isSome_get_iff id (part p)

theorem get_merged (data : π → List (String × Json)) (ps : List π) (id : String) :
    SortedMap.get id ((ps.map data).foldl SortedMap.mergeInto []) = firstFound data id ps := by
  rw [SortedMap.get_foldl_mergeInto, SortedMap.get_nil, Option.none_or, List.findSome?_map]
  rfl

/-- A list agrees with single reads, and is right under a limit exactly when no id is displaced. -/
theorem list_iff (r : ResourceProviderRegistry π) (b : Providers π σ) (t : String) (s : σ)
    (query : ResourceQueryParams) (n : Nat) (data part : π → List (String × Json))
    (hprovider : query.provider = none) (hlimit : query.limit = none)
    (hdata : ∀ p ∈ r.polled t, Lists b p t query s (data p))
    (hpart : ∀ p ∈ r.polled t,
      Truncates b p t { query with limit := some n } s (data p) (part p)) :
    (∃ all limited, r.list b t query s = .ok (.object all) ∧
        (∀ id v, SortedMap.get id all = some v ↔ r.get b t id none s = .ok (some v)) ∧
        r.list b t { query with limit := some n } s = .ok (.object limited) ∧
        limited.length ≤ n ∧ ∀ e ∈ limited, SortedMap.get e.1 all = some e.2) ↔
      ∀ id, ¬Displaced data part n (r.polled t) id := by
  have hsub : ∀ p ∈ r.polled t, ∀ id v, SortedMap.get id (part p) = some v →
      SortedMap.get id (data p) = some v := fun p hp => (hpart p hp).get
  have hsorted : SortedMap.Sorted (((r.polled t).map part).foldl SortedMap.mergeInto []) :=
    SortedMap.sorted_foldl_mergeInto List.Pairwise.nil _
  have hall := list_eq query hprovider fun p hp => (hdata p hp).list
  have hsome := list_eq { query with limit := some n } hprovider
    fun p hp => (hpart p hp).list
  rw [hlimit, applyLimit] at hall
  dsimp only at hsome
  rw [applyLimit_eq] at hsome
  constructor
  · rintro ⟨all, limited, hall', -, hsome', -, hin⟩ id hd
    obtain ⟨hfew, v, hv, hne⟩ := (displaced_iff hsub id).mp hd
    obtain rfl := Json.object.inj (Except.ok.inj (hall.symm.trans hall'))
    obtain rfl := Json.object.inj (Except.ok.inj (hsome.symm.trans hsome'))
    rw [← get_merged] at hv
    rw [← merged_ids] at hfew
    have hmem := (SortedMap.mem_take_iff hsorted (e := (id, v)) n).mpr
      ⟨SortedMap.mem_of_get hv, hfew⟩
    exact hne ((get_merged data _ id).symm.trans (hin _ hmem))
  · intro hnone
    refine ⟨_, _, hall, fun id v => ?_, hsome, List.length_take_le _ _, fun e he => ?_⟩
    · rw [get_merged, get_iff hdata]
    · obtain ⟨hmem, hfew⟩ := (SortedMap.mem_take_iff hsorted n).mp he
      have hv := SortedMap.get_of_mem hsorted hmem
      rw [get_merged] at hv
      rw [merged_ids] at hfew
      rw [get_merged]
      by_contra hne
      exact hnone e.1 ((displaced_iff hsub e.1).mpr ⟨hfew, e.2, hv, hne⟩)

/-- Providers that keep what they have, and list a part of it under a limit. -/
def fixed (data part : π → List (String × Json)) : Providers π Unit where
  list p _ query _ := .ok (.object (if query.limit.isNone then data p else part p))
  get p _ id _ := .ok (SortedMap.get id (data p))
  create _ _ _ s := (.error (.runtime "read-only"), s)
  update _ _ _ _ s := (.error (.runtime "read-only"), s)
  delete _ _ _ s := (.error (.runtime "read-only"), s)

def twoProviders : ResourceProviderRegistry Bool where
  providers := Finmap.singleton "waypoints" [("plugin", true)]
  defaultCreateProvider := ∅
  fileProvider := false

def one : Json := .number (.posInt 1)
def two : Json := .number (.posInt 2)

theorem list_iff_two :
    let data : Bool → List (String × Json) := fun p => if p then [("a", one), ("b", two)] else []
    let part : Bool → List (String × Json) := fun p => if p then [("b", two)] else []
    (∃ all limited, twoProviders.list (fixed data part) "waypoints" ⟨none, none, none, none⟩ () =
          .ok (.object all) ∧
        (∀ id v, SortedMap.get id all = some v ↔
          twoProviders.get (fixed data part) "waypoints" id none () = .ok (some v)) ∧
        twoProviders.list (fixed data part) "waypoints" ⟨none, some 1, none, none⟩ () =
          .ok (.object limited) ∧
        limited.length ≤ 1 ∧ ∀ e ∈ limited, SortedMap.get e.1 all = some e.2) ↔
      ∀ id, ¬Displaced data part 1 (twoProviders.polled "waypoints") id := by
  intro data part
  have hsub : ∀ p id v, SortedMap.get id (part p) = some v →
      SortedMap.get id (data p) = some v := by
    intro p id v h
    cases p with
    | false => cases h
    | true =>
      by_cases hid : id = "b"
      · subst hid
        exact h
      · simp [part, SortedMap.get, hid] at h
  exact list_iff twoProviders (fixed data part) "waypoints" () ⟨none, none, none, none⟩ 1 data part
    rfl rfl (fun _ _ => ⟨rfl, fun _ _ => by simp [fixed], fun _ _ h => by cases h⟩)
    fun p _ => ⟨rfl, hsub p⟩

/-- Under a limit of one, the plugin lists its second entry and the file provider an entry that
the plugin shadows. -/
theorem limited_shadowed :
    let data : Bool → List (String × Json) := fun p =>
      if p then [("a", one), ("b", two)] else [("a", two)]
    let part : Bool → List (String × Json) := fun p => if p then [("b", two)] else [("a", two)]
    twoProviders.get (fixed data part) "waypoints" "a" none () = .ok (some one) ∧
      twoProviders.list (fixed data part) "waypoints" ⟨none, none, none, none⟩ () =
        .ok (.object [("a", one), ("b", two)]) ∧
      twoProviders.list (fixed data part) "waypoints" ⟨none, some 1, none, none⟩ () =
        .ok (.object [("a", two)]) := by
  decide +kernel

end
end SignalK.Resources

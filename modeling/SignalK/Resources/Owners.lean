import Mathlib.Data.Finset.Sort
import SignalK.Resources.Listing

/-! Which provider an operation of the registry reaches, and what a read finds after it. -/
namespace SignalK.Resources
open ResourceProviderRegistry

/-- The maps of all providers, one for each type of resources. -/
abbrev Contents (π : Type) := π → String → HashMap String Json

section
variable {π σ : Type} [DecidableEq π]

def Contents.set (d : Contents π) (p : π) (t : String) (m : HashMap String Json) : Contents π :=
  fun q u => if q = p ∧ u = t then m else d q u

/-- An operation on the entry of an id, which is there or not found. -/
def Edits (data : σ → Contents π) (t id : String)
    (change : HashMap String Json → HashMap String Json)
    (op : π → σ → Except PluginError Unit × σ) : Prop :=
  ∀ p s, match op p s with
    | (.ok (), s') => (data s p t).lookup id ≠ none ∧
        data s' = (data s).set p t (change (data s p t))
    | (.error e, s') => (data s p t).lookup id = none ∧ isNotFound e ∧ data s' = data s

/-- Providers that behave as finite maps. -/
structure ActAsMaps (b : Providers π σ) (data : σ → Contents π) : Prop where
  get : ∀ p t id s, b.get p t id s = .ok ((data s p t).lookup id)
  create : ∀ p t v s, match b.create p t v s with
    | (.ok id, s') => (data s p t).lookup id = none ∧
        data s' = (data s).set p t ((data s p t).insert id v)
    | (.error _, s') => data s' = data s
  update : ∀ t id v, Edits data t id (·.insert id v) fun p => b.update p t id v
  delete : ∀ t id, Edits data t id (·.erase id) fun p => b.delete p t id

/-- What the first of the providers that has an id keeps for it. -/
def firstCopy (d : Contents π) (t id : String) (ps : List π) : Option Json :=
  ps.findSome? fun p => (d p t).lookup id

/-- The first of the providers that has an id. -/
structure Owner (d : Contents π) (t id : String) (ps : List π) (p : π) : Prop where
  mem : p ∈ ps
  before : ∀ q ∈ ps.takeWhile (· ≠ p), (d q t).lookup id = none
  has : (d p t).lookup id ≠ none

theorem Owner.cons {d : Contents π} {t id : String} {ps : List π} {p q : π}
    (h : Owner d t id ps p) (hq : (d q t).lookup id = none) : Owner d t id (q :: ps) p where
  mem := List.mem_cons_of_mem _ h.mem
  before := by
    have hne : q ≠ p := fun he => h.has (he ▸ hq)
    rw [List.takeWhile_cons_of_pos (by simpa using hne)]
    intro q' hq'
    cases List.mem_cons.mp hq' with
    | inl he => exact he ▸ hq
    | inr hmem => exact h.before q' hmem
  has := h.has

theorem Owner.first {d : Contents π} {t id : String} {ps : List π} {p : π}
    (h : (d p t).lookup id ≠ none) : Owner d t id (p :: ps) p where
  mem := List.mem_cons_self
  before := by simp
  has := h

theorem firstCopy_owner {d : Contents π} {t id : String} {ps : List π} {p : π}
    (h : Owner d t id ps p) : firstCopy d t id ps = (d p t).lookup id := by
  obtain ⟨hmem, hbefore, hhas⟩ := h
  induction ps with
  | nil => cases hmem
  | cons q ps ih =>
    rw [firstCopy, List.findSome?_cons]
    by_cases hq : q = p
    · subst hq
      cases hv : (d q t).lookup id with
      | none => exact absurd hv hhas
      | some v => rfl
    · rw [List.takeWhile_cons_of_pos (by simpa using hq)] at hbefore
      rw [hbefore q List.mem_cons_self]
      exact ih ((List.mem_cons.mp hmem).resolve_left (Ne.symm hq))
        fun q' hq' => hbefore q' (List.mem_cons_of_mem _ hq')

variable {r : ResourceProviderRegistry π} {b : Providers π σ} {data : σ → Contents π}

/-- A read gives the copy of the first provider that has one. -/
theorem get_eq (h : ActAsMaps b data) (t id : String) (s : σ) :
    r.get b t id none s = .ok (firstCopy (data s) t id (r.polled t)) := by
  have hpoll : ∀ l : List (String × π), r.pollGet b t id s l =
      .ok (firstCopy (data s) t id (l.map Prod.snd ++ [r.fileProvider])) := by
    intro l
    induction l with
    | nil =>
      rw [pollGet, h.get, firstCopy]
      cases hg : (data s r.fileProvider t).lookup id <;> simp [hg]
    | cons e l ih =>
      rw [pollGet, h.get, List.map_cons, List.cons_append]
      cases hg : (data s e.2 t).lookup id with
      | none =>
        rw [firstCopy, List.findSome?_cons, hg]
        exact ih
      | some v =>
        rw [firstCopy, List.findSome?_cons, hg]
  exact hpoll (r.registered t)

/-- The loop reaches the first provider that has the id, and leaves the others as they are. -/
theorem poll_spec {t id : String} {change : HashMap String Json → HashMap String Json}
    {op : π → σ → Except PluginError Unit × σ} (hop : Edits data t id change op)
    (l : List (String × π)) (s : σ) :
    match r.poll op l s with
    | (.ok (), s') => ∃ p, Owner (data s) t id (l.map Prod.snd ++ [r.fileProvider]) p ∧
        data s' = (data s).set p t (change (data s p t))
    | (.error _, s') => data s' = data s := by
  induction l generalizing s with
  | nil =>
    have hfile := hop r.fileProvider s
    rw [poll]
    cases hr : op r.fileProvider s with
    | mk res s' =>
      rw [hr] at hfile
      cases res with
      | ok u => exact ⟨r.fileProvider, .first hfile.1, hfile.2⟩
      | error e => exact hfile.2.2
  | cons x l ih =>
    have hp := hop x.2 s
    rw [poll]
    cases hr : op x.2 s with
    | mk res s₁ =>
      rw [hr] at hp
      cases res with
      | ok u => exact ⟨x.2, .first hp.1, hp.2⟩
      | error e =>
        obtain ⟨hnone, hnf, hsame⟩ := hp
        have hrec := ih s₁
        rw [hsame] at hrec
        dsimp only
        rw [if_pos hnf]
        cases hl : r.poll op l s₁ with
        | mk res' s' =>
          rw [hl] at hrec
          cases res' with
          | error e' => exact hrec
          | ok u =>
            obtain ⟨p, hown, hs'⟩ := hrec
            exact ⟨p, hown.cons hnone, hs'⟩

theorem firstCopy_insert {d : Contents π} {t id : String} {ps : List π} {p : π} (hp : p ∈ ps)
    (hbefore : ∀ q ∈ ps.takeWhile (· ≠ p), (d q t).lookup id = none) (v : Json) :
    firstCopy (d.set p t ((d p t).insert id v)) t id ps = some v := by
  induction ps with
  | nil => cases hp
  | cons q ps ih =>
    rw [firstCopy, List.findSome?_cons]
    by_cases hq : q = p
    · subst hq
      simp [Contents.set]
    · have hp' : p ∈ ps := (List.mem_cons.mp hp).resolve_left (Ne.symm hq)
      have htake : (q :: ps).takeWhile (· ≠ p) = q :: ps.takeWhile (· ≠ p) := by simp [hq]
      rw [htake] at hbefore
      have hset : d.set p t ((d p t).insert id v) q t = d q t := by simp [Contents.set, hq]
      rw [hset, hbefore q List.mem_cons_self]
      exact ih hp' fun q' hq' => hbefore q' (List.mem_cons_of_mem _ hq')

theorem firstCopy_erase (d : Contents π) (t id : String) (p : π) (ps : List π) :
    firstCopy (d.set p t ((d p t).erase id)) t id ps =
      firstCopy d t id (ps.filter (· ≠ p)) := by
  induction ps with
  | nil => rfl
  | cons q ps ih =>
    rw [firstCopy, List.findSome?_cons]
    by_cases hq : q = p
    · subst hq
      have hset : (d.set q t ((d q t).erase id) q t).lookup id = none := by simp [Contents.set]
      rw [hset, List.filter_cons_of_neg (by simp)]
      exact ih
    · have hset : d.set p t ((d p t).erase id) q t = d q t := by simp [Contents.set, hq]
      rw [hset, List.filter_cons_of_pos (by simpa using hq), firstCopy, List.findSome?_cons]
      cases (d q t).lookup id with
      | none => exact ih
      | some v => rfl

omit [DecidableEq π] in
/-- A new resource goes to one of the providers that are polled. -/
theorem create_target (r : ResourceProviderRegistry π) (b : Providers π σ) (t : String) (v : Json)
    (s : σ) : ∃ p ∈ r.polled t, r.create b t v none s = b.create p t v s := by
  have hfile : r.fileProvider ∈ r.polled t := by simp [polled]
  rw [ResourceProviderRegistry.create]
  cases r.defaultCreateProvider.lookup t with
  | none => exact ⟨_, hfile, rfl⟩
  | some defaultId =>
    dsimp only
    cases hfind : (r.registered t).find? (·.1 = defaultId) with
    | none => exact ⟨_, hfile, rfl⟩
    | some e =>
      have hmem := List.mem_of_find?_eq_some hfind
      exact ⟨e.2, List.mem_append_left _ (List.mem_map.mpr ⟨e, hmem, rfl⟩), rfl⟩

/-- What is updated or created is read; what is deleted is read from the next provider that has it,
if there is one; and what fails changes nothing. -/
theorem read_your_writes (r : ResourceProviderRegistry π) (b : Providers π σ)
    (data : σ → Contents π) (h : ActAsMaps b data) (t id : String) (v : Json) (s : σ) :
    (match r.update b t id v none s with
      | (.ok (), s') => r.get b t id none s' = .ok (some v)
      | (.error _, s') => data s' = data s) ∧
    (match r.create b t v none s with
      | (.ok new, s') => (∀ p ∈ r.polled t, (data s p t).lookup new = none) →
          r.get b t new none s' = .ok (some v)
      | (.error _, s') => data s' = data s) ∧
    (match r.delete b t id none s with
      | (.ok (), s') => ∃ p ∈ r.polled t,
          r.get b t id none s = .ok ((data s p t).lookup id) ∧ (data s p t).lookup id ≠ none ∧
          r.get b t id none s' = .ok (firstCopy (data s) t id ((r.polled t).filter (· ≠ p)))
      | (.error _, s') => data s' = data s) := by
  refine ⟨?_, ?_, ?_⟩
  · have hpoll := poll_spec (r := r) (h.update t id v) (r.registered t) s
    rw [ResourceProviderRegistry.update, targeted]
    cases hr : r.poll (fun p => b.update p t id v) (r.registered t) s with
    | mk res s' =>
      rw [hr] at hpoll
      cases res with
      | error e => exact hpoll
      | ok u =>
        obtain ⟨p, hown, hs'⟩ := hpoll
        dsimp only
        rw [get_eq h, hs', polled, firstCopy_insert hown.mem hown.before]
  · obtain ⟨p, hp, hcreate⟩ := create_target r b t v s
    have hspec := h.create p t v s
    rw [hcreate]
    cases hr : b.create p t v s with
    | mk res s' =>
      rw [hr] at hspec
      cases res with
      | error e => exact hspec
      | ok new =>
        intro hfresh
        have hbefore : ∀ q ∈ (r.polled t).takeWhile (· ≠ p), (data s q t).lookup new = none :=
          fun q hq => hfresh q (List.takeWhile_prefix _ |>.subset hq)
        rw [get_eq h, hspec.2, firstCopy_insert hp hbefore]
  · have hpoll := poll_spec (r := r) (h.delete t id) (r.registered t) s
    rw [ResourceProviderRegistry.delete, targeted]
    cases hr : r.poll (fun p => b.delete p t id) (r.registered t) s with
    | mk res s' =>
      rw [hr] at hpoll
      cases res with
      | error e => exact hpoll
      | ok u =>
        obtain ⟨p, hown, hs'⟩ := hpoll
        refine ⟨p, hown.mem, ?_, hown.has, ?_⟩
        · rw [get_eq h, polled, firstCopy_owner hown]
        · rw [get_eq h, hs', firstCopy_erase]

/-- Providers in memory; a new id that is taken is an error. -/
def inMemory (newId : Contents π → String) : Providers π (Contents π) where
  list p t query d :=
    let all := ((d p t).keys.sort (· ≤ ·)).filterMap fun k => ((d p t).lookup k).map (k, ·)
    .ok (.object (match query.limit with
      | some n => all.take n
      | none => all))
  get p t id d := .ok ((d p t).lookup id)
  create p t v d :=
    if (d p t).lookup (newId d) = none then
      (.ok (newId d), d.set p t ((d p t).insert (newId d) v))
    else (.error (.runtime "taken"), d)
  update p t id v d :=
    if (d p t).lookup id = none then (.error (.notFound ("Resource '" ++ id ++ "' not found")), d)
    else (.ok (), d.set p t ((d p t).insert id v))
  delete p t id d :=
    if (d p t).lookup id = none then (.error (.notFound ("Resource '" ++ id ++ "' not found")), d)
    else (.ok (), d.set p t ((d p t).erase id))

theorem inMemory_acts (newId : Contents π → String) : ActAsMaps (inMemory newId) id where
  get _ _ _ _ := rfl
  create p t v d := by
    simp only [inMemory]
    split_ifs with hd
    · exact ⟨hd, rfl⟩
    · rfl
  update t id v p d := by
    simp only [inMemory]
    split_ifs with hd
    · exact ⟨hd, rfl, rfl⟩
    · exact ⟨hd, rfl⟩
  delete t id p d := by
    simp only [inMemory]
    split_ifs with hd
    · exact ⟨hd, rfl, rfl⟩
    · exact ⟨hd, rfl⟩

theorem read_your_writes_two :
    let b := inMemory (π := Bool) fun _ => "new"
    let s : Contents Bool := fun p _ => if p then ∅ else Finmap.singleton "a" one
    (match twoProviders.update b "waypoints" "a" two none s with
      | (.ok (), s') => twoProviders.get b "waypoints" "a" none s' = .ok (some two)
      | (.error _, s') => s' = s) ∧
    (match twoProviders.create b "waypoints" two none s with
      | (.ok new, s') => (∀ p ∈ twoProviders.polled "waypoints",
          (s p "waypoints").lookup new = none) →
          twoProviders.get b "waypoints" new none s' = .ok (some two)
      | (.error _, s') => s' = s) ∧
    (match twoProviders.delete b "waypoints" "a" none s with
      | (.ok (), s') => ∃ p ∈ twoProviders.polled "waypoints",
          twoProviders.get b "waypoints" "a" none s = .ok ((s p "waypoints").lookup "a") ∧
          (s p "waypoints").lookup "a" ≠ none ∧
          twoProviders.get b "waypoints" "a" none s' = .ok (firstCopy s "waypoints" "a"
            ((twoProviders.polled "waypoints").filter (· ≠ p)))
      | (.error _, s') => s' = s) :=
  read_your_writes twoProviders (inMemory fun _ => "new") id (inMemory_acts _) "waypoints" "a" two
    fun p _ => if p then ∅ else Finmap.singleton "a" one

/-- A delete takes away the copy of the plugin, and the one of the file provider is read. -/
theorem deleted_found :
    let b := inMemory (π := Bool) fun _ => "new"
    let s : Contents Bool := fun p _ => Finmap.singleton "a" (if p then one else two)
    (twoProviders.delete b "waypoints" "a" none s).1 = .ok () ∧
      twoProviders.get b "waypoints" "a" none
        (twoProviders.delete b "waypoints" "a" none s).2 = .ok (some two) := by
  decide +kernel

end
end SignalK.Resources

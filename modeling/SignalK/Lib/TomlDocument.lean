import Mathlib.Data.List.Nodup
import SignalK.Lib.Toml

/-! The documents of expressions: keys first, then tables and an array of tables, each
under its header. -/
namespace Toml

def leaves (kvs : List (Key × Value)) : Entries := kvs.map fun e => (e.1, .leaf e.2)

def keyvals (kvs : List (Key × Value)) : List Expr := kvs.map fun e => .keyval [e.1] e.2

@[simp] theorem map_fst_leaves (kvs : List (Key × Value)) :
    (leaves kvs).map Prod.fst = kvs.map Prod.fst := by
  simp [leaves]

namespace Entries
variable {es : Entries} {k : Key}

theorem get_of_notMem (h : k ∉ es.map Prod.fst) : get k es = none := by
  induction es with
  | nil => rfl
  | cons e es ih =>
    have hne : e.1 ≠ k := fun he => h (by simp [he])
    rw [get, if_neg hne]
    exact ih fun hm => h (by simp only [List.map_cons, List.mem_cons]; exact .inr hm)

theorem get_append (h : k ∉ es.map Prod.fst) (e : Entry) :
    get k (es ++ [(k, e)]) = some e := by
  induction es with
  | nil => simp [get]
  | cons a es ih =>
    have hne : a.1 ≠ k := fun he => h (by simp [he])
    rw [List.cons_append, get, if_neg hne]
    exact ih fun hm => h (by simp only [List.map_cons, List.mem_cons]; exact .inr hm)

theorem set_append (h : k ∉ es.map Prod.fst) (e e' : Entry) :
    set k e' (es ++ [(k, e)]) = es ++ [(k, e')] := by
  induction es with
  | nil => simp [set]
  | cons a es ih =>
    have hne : a.1 ≠ k := fun he => h (by simp [he])
    rw [List.cons_append, set, if_neg hne, List.cons_append]
    rw [ih fun hm => h (by simp only [List.map_cons, List.mem_cons]; exact .inr hm)]

theorem within_table (h : k ∉ es.map Prod.fst) (f : Entries → Option Entries) (kind : Kind)
    (sub : Entries) : within f [k] (es ++ [(k, .table kind sub)]) =
      (f sub).map fun sub => es ++ [(k, .table kind sub)] := by
  rw [within, get_append h]
  simp only [within, set_append h]

theorem within_tables (h : k ∉ es.map Prod.fst) (f : Entries → Option Entries)
    (items : List Entries) (sub : Entries) :
    within f [k] (es ++ [(k, .tables (items ++ [sub]))]) =
      (f sub).map fun sub => es ++ [(k, .tables (items ++ [sub]))] := by
  rw [within, get_append h]
  simp only [within, set_append h, List.getLastD_concat, List.dropLast_concat]

end Entries

/-- Keys with their values, wherever the current table is. -/
theorem foldlM_keyvals (current : List Key) (at_ : Entries → Entries)
    (hat : ∀ f sub, Entries.within f current (at_ sub) = (f sub).map at_)
    (kvs : List (Key × Value)) (sub : Entries)
    (h : (sub.map Prod.fst ++ kvs.map Prod.fst).Nodup) :
    (keyvals kvs).foldlM Draft.apply ⟨at_ sub, current⟩ =
      some ⟨at_ (sub ++ leaves kvs), current⟩ := by
  induction kvs generalizing sub with
  | nil => simp [keyvals, leaves]
  | cons e kvs ih =>
    have hmem : e.1 ∉ sub.map Prod.fst := by
      intro hm
      have hdisjoint := (List.nodup_append'.mp h).2.2
      exact hdisjoint hm (by simp)
    have hassign : Entries.assign e.2 [e.1] sub = some (sub ++ [(e.1, .leaf e.2)]) := by
      simp [Entries.assign, Entries.get_of_notMem hmem]
    have happly : Draft.apply ⟨at_ sub, current⟩ (.keyval [e.1] e.2) =
        some ⟨at_ (sub ++ [(e.1, .leaf e.2)]), current⟩ := by
      simp [Draft.apply, hat, hassign]
    have htail := ih (sub ++ [(e.1, .leaf e.2)]) (by simpa using h)
    rw [keyvals, List.map_cons, List.foldlM_cons, happly]
    simpa [leaves, keyvals] using htail

/-- Tables that are not there yet. -/
theorem foldlM_tables (sections : List (Key × List (Key × Value))) (es : Entries)
    (current : List Key) (h : (es.map Prod.fst ++ sections.map Prod.fst).Nodup)
    (hkeys : ∀ s ∈ sections, (s.2.map Prod.fst).Nodup) :
    ∃ current', (sections.flatMap fun s => Expr.table [s.1] :: keyvals s.2).foldlM Draft.apply
        ⟨es, current⟩ =
      some ⟨es ++ sections.map fun s => (s.1, .table .header (leaves s.2)), current'⟩ := by
  induction sections generalizing es current with
  | nil => exact ⟨current, by simp⟩
  | cons s sections ih =>
    have hmem : s.1 ∉ es.map Prod.fst := by
      intro hm
      have hdisjoint := (List.nodup_append'.mp h).2.2
      exact hdisjoint hm (by simp)
    have hopen : Draft.apply ⟨es, current⟩ (.table [s.1]) =
        some ⟨es ++ [(s.1, .table .header [])], [s.1]⟩ := by
      simp [Draft.apply, Entries.within, Entries.openTable, Entries.get_of_notMem hmem]
    have hsection := foldlM_keyvals [s.1] (fun sub => es ++ [(s.1, .table .header sub)])
      (fun f sub => Entries.within_table hmem f .header sub) s.2 []
      (by simpa using hkeys s List.mem_cons_self)
    obtain ⟨current', htail⟩ := ih (es ++ [(s.1, .table .header (leaves s.2))]) [s.1]
      (by simpa using h) fun t ht => hkeys t (List.mem_cons_of_mem s ht)
    refine ⟨current', ?_⟩
    rw [List.flatMap_cons, List.cons_append, List.foldlM_cons, hopen]
    simp only [Option.bind_eq_bind, Option.bind_some]
    rw [List.foldlM_append, hsection]
    simpa using htail

theorem foldlM_items {es : Entries} {k : Key} (hk : k ∉ es.map Prod.fst)
    (items : List (List (Key × Value))) (before : List Entries) (current : List Key)
    (hkeys : ∀ kvs ∈ items, (kvs.map Prod.fst).Nodup) :
    ∃ current', (items.flatMap fun kvs => Expr.tables [k] :: keyvals kvs).foldlM Draft.apply
        ⟨es ++ [(k, .tables before)], current⟩ =
      some ⟨es ++ [(k, .tables (before ++ items.map leaves))], current'⟩ := by
  induction items generalizing before current with
  | nil => exact ⟨current, by simp⟩
  | cons kvs items ih =>
    have hopen : Draft.apply ⟨es ++ [(k, .tables before)], current⟩ (.tables [k]) =
        some ⟨es ++ [(k, .tables (before ++ [[]]))], [k]⟩ := by
      simp [Draft.apply, Entries.within, Entries.openItem, Entries.get_append hk,
        Entries.set_append hk]
    have hitem := foldlM_keyvals [k] (fun sub => es ++ [(k, .tables (before ++ [sub]))])
      (fun f sub => Entries.within_tables hk f before sub) kvs []
      (by simpa using hkeys kvs List.mem_cons_self)
    obtain ⟨current', htail⟩ := ih (before ++ [leaves kvs]) [k]
      fun t ht => hkeys t (List.mem_cons_of_mem kvs ht)
    refine ⟨current', ?_⟩
    rw [List.flatMap_cons, List.cons_append, List.foldlM_cons, hopen]
    simp only [Option.bind_eq_bind, Option.bind_some]
    rw [List.foldlM_append, hitem]
    simpa using htail

/-- An array of tables that is not there yet; without items it never is. -/
theorem foldlM_array {es : Entries} {k : Key} (hk : k ∉ es.map Prod.fst)
    (items : List (List (Key × Value))) (current : List Key)
    (hkeys : ∀ kvs ∈ items, (kvs.map Prod.fst).Nodup) :
    ∃ current', (items.flatMap fun kvs => Expr.tables [k] :: keyvals kvs).foldlM Draft.apply
        ⟨es, current⟩ =
      some ⟨es ++ if items = [] then [] else [(k, .tables (items.map leaves))], current'⟩ := by
  cases items with
  | nil => exact ⟨current, by simp⟩
  | cons kvs items =>
    have hfirst : Draft.apply ⟨es, current⟩ (.tables [k]) =
        Draft.apply ⟨es ++ [(k, .tables [])], current⟩ (.tables [k]) := by
      simp [Draft.apply, Entries.within, Entries.openItem, Entries.get_of_notMem hk,
        Entries.get_append hk, Entries.set_append hk]
    obtain ⟨current', hall⟩ := foldlM_items hk (kvs :: items) [] current hkeys
    refine ⟨current', ?_⟩
    rw [List.flatMap_cons, List.cons_append, List.foldlM_cons] at hall ⊢
    rw [hfirst, hall, if_neg (List.cons_ne_nil kvs items), List.nil_append]

@[simp] theorem toValues_append (es fs : Entries) :
    toValues (es ++ fs) = toValues es ++ toValues fs := by
  induction es with
  | nil => rfl
  | cons e es ih => simp [toValues, ih]

@[simp] theorem toValues_leaves (kvs : List (Key × Value)) : toValues (leaves kvs) = kvs := by
  induction kvs with
  | nil => rfl
  | cons e kvs ih =>
    rw [leaves, List.map_cons, toValues, Entry.toValue]
    congr 1

theorem toValues_sections (sections : List (Key × List (Key × Value))) :
    toValues (sections.map fun s => (s.1, .table .header (leaves s.2))) =
      sections.map fun s => (s.1, .table s.2) := by
  induction sections with
  | nil => rfl
  | cons s sections ih => simp [toValues, Entry.toValue, ih]

theorem toTables_leaves (items : List (List (Key × Value))) :
    toTables (items.map leaves) = items.map .table := by
  induction items with
  | nil => rfl
  | cons kvs items ih => simp [toTables, ih]

/-- A key of a table stands once, so that it has its value. -/
theorem lookup_of_mem {table : List (Key × Value)} (hn : (table.map Prod.fst).Nodup) {k : Key}
    {v : Value} (h : (k, v) ∈ table) : table.lookup k = some v := by
  induction table with
  | nil => simp at h
  | cons e table ih =>
    obtain ⟨hmem, hn⟩ := List.nodup_cons.mp hn
    rcases List.mem_cons.mp h with rfl | h
    · simp
    · have hne : k ≠ e.1 := fun he => hmem (he ▸ List.mem_map_of_mem h)
      rw [List.lookup_cons, beq_false_of_ne hne]
      exact ih hn h

/-- A document of keys, tables and an array of tables. -/
theorem build_eq {top : List (Key × Value)} {sections : List (Key × List (Key × Value))} {k : Key}
    {items : List (List (Key × Value))}
    (h : (top.map Prod.fst ++ sections.map Prod.fst ++ [k]).Nodup)
    (hsections : ∀ s ∈ sections, (s.2.map Prod.fst).Nodup)
    (hitems : ∀ kvs ∈ items, (kvs.map Prod.fst).Nodup) :
    build (keyvals top ++ (sections.flatMap fun s => Expr.table [s.1] :: keyvals s.2) ++
        items.flatMap fun kvs => Expr.tables [k] :: keyvals kvs) =
      some (top ++ (sections.map fun s => (s.1, Value.table s.2)) ++
        if items = [] then [] else [(k, .array (items.map .table))]) := by
  obtain ⟨hnames, -, hdisjoint⟩ := List.nodup_append'.mp h
  have htop := foldlM_keyvals [] id (fun f sub => by simp [Entries.within])
    top [] (by simpa using (List.nodup_append'.mp hnames).1)
  obtain ⟨current, hmiddle⟩ := foldlM_tables sections (leaves top) [] (by simpa using hnames)
    hsections
  have hk : k ∉ (leaves top ++ sections.map fun s =>
      (s.1, Entry.table .header (leaves s.2))).map Prod.fst := by
    intro hm
    exact hdisjoint (by simpa [List.map_append, Function.comp_def] using hm) (by simp)
  obtain ⟨current', hend⟩ := foldlM_array hk items current hitems
  simp only [id, List.nil_append] at htop
  rw [build, List.foldlM_append, List.foldlM_append, htop]
  simp only [Option.bind_eq_bind, Option.bind_some]
  rw [hmiddle, Option.bind_some, hend, Option.map_some]
  split_ifs <;> simp [toValues_sections, toValues, Entry.toValue, toTables_leaves]

end Toml

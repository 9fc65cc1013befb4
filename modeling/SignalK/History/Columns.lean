import Mathlib.Data.List.Count
import Mathlib.Data.List.Perm.Basic
import SignalK.History.Provider

/-! What the merged rows of several paths hold, one column for each path. The rows of
one timestamp never meet those of another, so the columns are followed timestamp by
timestamp. -/
namespace SignalK.Provider

/-- The value of a row for a column; null stands for none. -/
def cell (c : Nat) (values : List Json) : Option Json :=
  (values[c]?).filter fun v => v ≠ .null

/-- The values of a column with the timestamps of their rows. -/
def column (c : Nat) (data : List DataRow) : List (String × Json) :=
  data.filterMap fun r => (cell c r.values).map fun v => (r.timestamp, v)

/-- The values of one timestamp. -/
def cellsAt (t : String) (rows : List (String × Json)) : List Json :=
  (rows.filter fun e => e.1 = t).map Prod.snd

def rowsAt (t : String) (data : List DataRow) : List (List Json) :=
  (data.filter fun r => r.timestamp = t).map DataRow.values

theorem cellsAt_column (t : String) (c : Nat) (data : List DataRow) :
    cellsAt t (column c data) = (rowsAt t data).filterMap (cell c) := by
  induction data with
  | nil => rfl
  | cons r data ih =>
    simp only [cellsAt, column, rowsAt] at ih ⊢
    by_cases ht : r.timestamp = t
    · cases hv : cell c r.values with
      | none => simpa [List.filterMap_cons, hv, ht] using ih
      | some v => simpa [List.filterMap_cons, hv, ht] using ih
    · cases hv : cell c r.values with
      | none => simpa [List.filterMap_cons, hv, ht] using ih
      | some v => simpa [List.filterMap_cons, hv, ht] using ih

theorem count_cellsAt (t : String) (v : Json) (rows : List (String × Json)) :
    (cellsAt t rows).count v = rows.count (t, v) := by
  induction rows with
  | nil => rfl
  | cons e rows ih =>
    obtain ⟨s, w⟩ := e
    simp only [cellsAt] at ih ⊢
    by_cases hs : s = t
    · by_cases hw : w = v
      · simp [hs, hw, ih]
      · simp [hs, hw, ih]
    · simp [hs, ih]

/-- Rows are the same when they are at every timestamp. -/
theorem perm_iff_cellsAt {rows rows' : List (String × Json)} :
    rows.Perm rows' ↔ ∀ t, (cellsAt t rows).Perm (cellsAt t rows') := by
  simp only [List.perm_iff_count, count_cellsAt, Prod.forall]

/-- The row that is extended is the last one of its timestamp; there is a new one if there
was none. -/
def pushLast (n : Nat) (v : Json) : List (List Json) → List (List Json)
  | [] => [List.replicate n .null ++ [v]]
  | [r] => [r ++ List.replicate (n - r.length) .null ++ [v]]
  | r :: s :: rows => r :: pushLast n v (s :: rows)

def lastIndex (t : String) : List String → Option Nat
  | [] => none
  | x :: xs =>
    match lastIndex t xs with
    | some i => some (i + 1)
    | none => if x = t then some 0 else none

theorem lastIndex_concat (t x : String) (xs : List String) :
    lastIndex t (xs ++ [x]) = if x = t then some xs.length else lastIndex t xs := by
  induction xs with
  | nil => simp [lastIndex]
  | cons y xs ih =>
    rw [List.cons_append, lastIndex, ih]
    by_cases hx : x = t
    · simp [hx]
    · simp [hx, lastIndex]

theorem lastIndex_eq_none {t : String} {data : List DataRow} :
    lastIndex t (data.map DataRow.timestamp) = none ↔ rowsAt t data = [] := by
  induction data with
  | nil => simp [lastIndex, rowsAt]
  | cons r data ih =>
    simp only [List.map_cons, lastIndex]
    cases h : lastIndex t (data.map DataRow.timestamp) with
    | some i =>
      have hne : rowsAt t data ≠ [] := fun hr => by simp [ih.mpr hr] at h
      by_cases ht : r.timestamp = t
      · simp [rowsAt, ht]
      · simpa [rowsAt, ht] using hne
    | none =>
      have hnil := ih.mp h
      by_cases ht : r.timestamp = t
      · simp [rowsAt, ht]
      · simpa [rowsAt, ht] using hnil

/-- The map knows the last row of each timestamp. -/
def Indexed (acc : List DataRow × HashMap String Nat) : Prop :=
  ∀ t, acc.2.lookup t = lastIndex t (acc.1.map DataRow.timestamp)

theorem indexed_tsMap (data : List DataRow) : Indexed (data, tsMap data) := by
  intro t
  induction data using List.reverseRecOn with
  | nil => simp [tsMap, lastIndex]
  | append_singleton data r ih =>
    simp only [tsMap, List.zipIdx_append, List.foldl_append, List.zipIdx_singleton] at ih ⊢
    simp only [List.foldl_cons, List.foldl_nil, HashMap.lookup_insert, List.map_append,
      List.map_cons, List.map_nil, lastIndex_concat, List.length_map, Nat.zero_add, ih]
    by_cases h : r.timestamp = t
    · simp [h]
    · simp [h, Ne.symm h]

/-- What a value for column `n + 1` does to a row. -/
def pushCell (n : Nat) (v : Json) (r : DataRow) : DataRow :=
  { r with values := r.values ++ List.replicate (n - r.values.length) .null ++ [v] }

theorem pushLast_cons {n : Nat} {v : Json} {rows : List (List Json)} (r : List Json)
    (h : rows ≠ []) : pushLast n v (r :: rows) = r :: pushLast n v rows := by
  cases rows with
  | nil => exact absurd rfl h
  | cons s rows => rfl

theorem rowsAt_cons (t : String) (r : DataRow) (data : List DataRow) :
    rowsAt t (r :: data) =
      if r.timestamp = t then r.values :: rowsAt t data else rowsAt t data := by
  by_cases h : r.timestamp = t
  · simp [rowsAt, h]
  · simp [rowsAt, h]

theorem rowsAt_modify {n i : Nat} {v : Json} {s : String} {data : List DataRow}
    (h : lastIndex s (data.map DataRow.timestamp) = some i) (t : String) :
    rowsAt t (data.modify i (pushCell n v)) =
      if s = t then pushLast n v (rowsAt t data) else rowsAt t data := by
  induction data generalizing i with
  | nil => simp [lastIndex] at h
  | cons r data ih =>
    simp only [List.map_cons, lastIndex] at h
    cases hlast : lastIndex s (data.map DataRow.timestamp) with
    | some j =>
      simp only [hlast, Option.some.injEq] at h
      subst h
      rw [List.modify_succ_cons, rowsAt_cons, ih hlast, rowsAt_cons]
      by_cases hs : s = t
      · have hne : rowsAt t data ≠ [] := fun hnil => by
          rw [← hs, ← lastIndex_eq_none, hlast] at hnil
          cases hnil
        by_cases ht : r.timestamp = t
        · simp only [if_pos hs, if_pos ht, pushLast_cons r.values hne]
        · simp only [if_pos hs, if_neg ht]
      · simp only [if_neg hs]
    | none =>
      simp only [hlast] at h
      split at h
      · next hr =>
        cases h
        have hnil : rowsAt s data = [] := lastIndex_eq_none.mp hlast
        rw [List.modify_zero_cons, rowsAt_cons, rowsAt_cons]
        by_cases hs : s = t
        · subst hs
          simp [pushCell, hr, hnil, pushLast]
        · have ht : r.timestamp ≠ t := fun e => hs (hr.symm.trans e)
          simp [pushCell, ht, hs]
      · cases h

theorem indexed_mergeRow {acc : List DataRow × HashMap String Nat} (h : Indexed acc) (n : Nat)
    (row : String × Json) : Indexed (mergeRow (n + 1) acc row) := by
  intro t
  unfold mergeRow
  split
  · have hkeep (i : Nat) (push : DataRow → DataRow) (hp : ∀ r, (push r).timestamp = r.timestamp) :
        (acc.1.modify i push).map DataRow.timestamp = acc.1.map DataRow.timestamp := by
      apply List.ext_getElem?
      intro k
      rw [List.getElem?_map, List.getElem?_map, List.getElem?_modify]
      cases acc.1[k]? with
      | none => rfl
      | some r =>
        by_cases hk : i = k
        · simp [hk, hp]
        · simp [hk]
    rw [hkeep]
    · exact h t
    · intro r
      rfl
  · simp only [HashMap.lookup_insert, List.map_append, List.map_cons, List.map_nil,
      lastIndex_concat, List.length_map, h t]
    by_cases ht : row.1 = t
    · simp [ht]
    · simp [ht, Ne.symm ht]

theorem rowsAt_mergeRow {acc : List DataRow × HashMap String Nat} (h : Indexed acc) (n : Nat)
    (row : String × Json) (t : String) :
    rowsAt t (mergeRow (n + 1) acc row).1 =
      if row.1 = t then pushLast n row.2 (rowsAt t acc.1) else rowsAt t acc.1 := by
  unfold mergeRow
  split
  · next i hi =>
    rw [h row.1] at hi
    exact rowsAt_modify hi t
  · next hi =>
    rw [h row.1, lastIndex_eq_none] at hi
    by_cases ht : row.1 = t
    · rw [← ht]
      simp only [rowsAt] at hi ⊢
      simp [hi, pushLast]
    · simp [rowsAt, ht]

/-- Merging a column, seen at one timestamp. -/
theorem rowsAt_mergeColumn {n : Nat} (hn : 0 < n) (data : List DataRow)
    (rows : List (String × Json)) (t : String) :
    rowsAt t (mergeColumn (n + 1) data rows) =
      (cellsAt t rows).foldl (fun L v => pushLast n v L) (rowsAt t data) := by
  have hfold (acc : List DataRow × HashMap String Nat) (h : Indexed acc) :
      rowsAt t (rows.foldl (mergeRow (n + 1)) acc).1 =
        (cellsAt t rows).foldl (fun L v => pushLast n v L) (rowsAt t acc.1) := by
    induction rows generalizing acc with
    | nil => rfl
    | cons row rows ih =>
      rw [List.foldl_cons, ih _ (indexed_mergeRow h n row), rowsAt_mergeRow h]
      by_cases ht : row.1 = t
      · simp [cellsAt, ht]
      · simp [cellsAt, ht]
  rw [mergeColumn, if_neg (by omega)]
  exact hfold _ (indexed_tsMap data)

theorem cell_push {c n : Nat} {r : List Json} (h : c < n ∨ c < r.length) (v : Json) :
    cell c (r ++ List.replicate (n - r.length) .null ++ [v]) = cell c r := by
  by_cases hr : c < r.length
  · simp only [cell, List.append_assoc, List.getElem?_append_left hr]
  · have hn : c - r.length < n - r.length := by omega
    have hlen : c - r.length < (List.replicate (n - r.length) Json.null).length := by simpa using hn
    have hnone : r[c]? = none := List.getElem?_eq_none (by omega)
    rw [cell, List.append_assoc, List.getElem?_append_right (by omega),
      List.getElem?_append_left hlen, List.getElem?_replicate, if_pos hn, cell, hnone]
    rfl

theorem cell_push_self {n : Nat} {r : List Json} (h : r.length ≤ n) {v : Json} (hv : v ≠ .null) :
    cell n (r ++ List.replicate (n - r.length) .null ++ [v]) = some v := by
  have hlen : (r ++ List.replicate (n - r.length) Json.null).length = n := by
    simp only [List.length_append, List.length_replicate]
    omega
  rw [cell, List.getElem?_append_right (by omega), hlen, Nat.sub_self]
  simp [hv]

theorem cell_of_length_le {n : Nat} {r : List Json} (h : r.length ≤ n) : cell n r = none := by
  simp [cell, List.getElem?_eq_none h]

/-- Earlier columns are kept, and so is the column itself once its value is there. -/
theorem cells_pushLast {c n : Nat} (v : Json) (L : List (List Json))
    (h : c < n ∨ ∃ r, L.getLast? = some r ∧ c < r.length) :
    (pushLast n v L).filterMap (cell c) = L.filterMap (cell c) := by
  induction L with
  | nil =>
    rcases h with h | ⟨r, hr, _⟩
    · have := cell_push (r := []) (Or.inl h) v
      simp only [List.nil_append, List.length_nil, Nat.sub_zero] at this
      rw [pushLast, List.filterMap_cons, this, cell_of_length_le (Nat.zero_le c)]
    · cases hr
  | cons r L ih =>
    cases L with
    | nil =>
      have hc : c < n ∨ c < r.length := by simpa using h
      simp only [pushLast, List.filterMap_cons, cell_push hc]
    | cons s L =>
      rw [pushLast, List.filterMap_cons, ih (by simpa using h)]
      exact List.filterMap_cons.symm

theorem cells_pushLast_self {n : Nat} {v : Json} (hv : v ≠ .null) {L : List (List Json)}
    (hL : ∀ r ∈ L, r.length ≤ n) : (pushLast n v L).filterMap (cell n) = [v] := by
  induction L with
  | nil =>
    have := cell_push_self (r := []) (Nat.zero_le n) hv
    simp only [List.nil_append, List.length_nil, Nat.sub_zero] at this
    simp [pushLast, this]
  | cons r L ih =>
    have hr := hL r List.mem_cons_self
    cases L with
    | nil => simp only [pushLast, List.filterMap_cons, cell_push_self hr hv, List.filterMap_nil]
    | cons s L =>
      rw [pushLast, List.filterMap_cons, cell_of_length_le hr]
      exact ih fun r hr => hL r (List.mem_cons_of_mem _ hr)

theorem getLast_pushLast (n : Nat) (v : Json) (L : List (List Json)) :
    ∃ r, (pushLast n v L).getLast? = some r ∧ n < r.length := by
  induction L with
  | nil => exact ⟨_, rfl, by simp⟩
  | cons r L ih =>
    cases L with
    | nil => exact ⟨_, rfl, by simp; omega⟩
    | cons s L =>
      obtain ⟨r', hr', hlen⟩ := ih
      refine ⟨r', ?_, hlen⟩
      rw [pushLast, List.getLast?_cons, hr']
      rfl

theorem length_pushLast {n : Nat} {v : Json} {L : List (List Json)} (hL : ∀ r ∈ L, r.length ≤ n) :
    ∀ r ∈ pushLast n v L, r.length ≤ n + 1 := by
  induction L with
  | nil => simp [pushLast]
  | cons r L ih =>
    have hr := hL r List.mem_cons_self
    cases L with
    | nil =>
      simp [pushLast]
      omega
    | cons s L =>
      intro r' hr'
      rcases List.mem_cons.mp hr' with rfl | hr'
      · omega
      · exact ih (fun r hr => hL r (List.mem_cons_of_mem _ hr)) r' hr'

/-- The values of one timestamp for column `n`. -/
def pushAll (n : Nat) (vs : List Json) (L : List (List Json)) : List (List Json) :=
  vs.foldl (fun L v => pushLast n v L) L

theorem cells_pushAll_lt {c n : Nat} (h : c < n) (vs : List Json) (L : List (List Json)) :
    (pushAll n vs L).filterMap (cell c) = L.filterMap (cell c) := by
  induction vs generalizing L with
  | nil => rfl
  | cons v vs ih => exact (ih (pushLast n v L)).trans (cells_pushLast v L (Or.inl h))

/-- A column gets one value for a timestamp, the first. -/
theorem cells_pushAll {n : Nat} {vs : List Json} (hvs : ∀ v ∈ vs, v ≠ .null)
    {L : List (List Json)} (hL : ∀ r ∈ L, r.length ≤ n) :
    (pushAll n vs L).filterMap (cell n) = vs.take 1 := by
  have hkeep (vs : List Json) (L : List (List Json)) (h : ∃ r, L.getLast? = some r ∧ n < r.length) :
      (pushAll n vs L).filterMap (cell n) = L.filterMap (cell n) := by
    induction vs generalizing L with
    | nil => rfl
    | cons v vs ih =>
      exact (ih _ (getLast_pushLast n v L)).trans (cells_pushLast v L (Or.inr h))
  cases vs with
  | nil =>
    simp only [pushAll, List.foldl_nil, List.take_nil, List.filterMap_eq_nil_iff]
    exact fun r hr => cell_of_length_le (hL r hr)
  | cons v vs =>
    have hv := hvs v List.mem_cons_self
    exact (hkeep vs _ (getLast_pushLast n v L)).trans (cells_pushLast_self hv hL)

theorem length_pushAll {n : Nat} {vs : List Json} (hvs : vs.length ≤ 1) {L : List (List Json)}
    (hL : ∀ r ∈ L, r.length ≤ n) : ∀ r ∈ pushAll n vs L, r.length ≤ n + 1 := by
  match vs, hvs with
  | [], _ => exact fun r hr => (hL r hr).trans (Nat.le_succ n)
  | [v], _ => exact length_pushLast hL

/-- The rows of the paths merged in their order. -/
def mergeAll : List (List (String × Json)) → Nat → List DataRow → List DataRow
  | [], _, data => data
  | rows :: rest, n, data => mergeAll rest (n + 1) (mergeColumn (n + 1) data rows)

/-- The loop over the paths merges what each of them has. -/
theorem collectValues_eq [HistoryLibs] {db : HistoryDb} {context f t : String}
    {resolution : Option F64} {specs : List PathSpec} {rows : PathSpec → List (String × Json)}
    (h : ∀ spec ∈ specs,
      queryPathValues db context spec.path f t resolution spec.method = .ok (rows spec))
    (n : Nat) (data : List DataRow) :
    collectValues db context f t resolution specs n data =
      .ok (mergeAll (specs.map rows) n data) := by
  induction specs generalizing n data with
  | nil => rfl
  | cons spec specs ih =>
    rw [collectValues, h spec List.mem_cons_self, Fallible.bind_ok,
      ih fun spec hspec => h spec (List.mem_cons_of_mem _ hspec)]
    rfl

theorem orderBy_perm {α : Type} (f : α → String) (rows : List α) :
    (Sqlite.orderBy f rows).Perm rows :=
  List.perm_insertionSort _ rows

theorem cells_mergeAll_lt {c n : Nat} (h : c < n) (fetched : List (List (String × Json)))
    (data : List DataRow) (t : String) :
    (rowsAt t (mergeAll fetched n data)).filterMap (cell c) =
      (rowsAt t data).filterMap (cell c) := by
  induction fetched generalizing n data with
  | nil => rfl
  | cons rows rest ih =>
    rw [mergeAll, ih (by omega), rowsAt_mergeColumn (by omega)]
    exact cells_pushAll_lt h _ _

/-- As long as no earlier path has two values at a timestamp, a column holds there the
first value of its path. -/
theorem cells_mergeAll {n k : Nat} (hn : 0 < n) {fetched : List (List (String × Json))}
    {rows : List (String × Json)} (hk : fetched[k]? = some rows) {data : List DataRow} {t : String}
    (hdata : ∀ r ∈ rowsAt t data, r.length ≤ n)
    (hearlier : ∀ d < k, ∀ rows, fetched[d]? = some rows → (cellsAt t rows).length ≤ 1)
    (hnull : ∀ e ∈ rows, e.2 ≠ .null) :
    (rowsAt t (mergeAll fetched n data)).filterMap (cell (n + k)) = (cellsAt t rows).take 1 := by
  induction fetched generalizing n k data with
  | nil => simp at hk
  | cons first rest ih =>
    rw [mergeAll]
    cases k with
    | zero =>
      cases hk
      rw [Nat.add_zero, cells_mergeAll_lt (Nat.lt_succ_self n), rowsAt_mergeColumn hn]
      apply cells_pushAll _ hdata
      intro v hv
      obtain ⟨e, he, rfl⟩ := List.mem_map.mp hv
      exact hnull e (List.mem_of_mem_filter he)
    | succ k =>
      have hfirst := hearlier 0 (Nat.succ_pos k) first rfl
      have hindex : n + (k + 1) = n + 1 + k := by omega
      rw [hindex]
      apply ih (Nat.succ_pos n) hk
      · rw [rowsAt_mergeColumn hn]
        exact length_pushAll hfirst hdata
      · intro d hd rows hrows
        exact hearlier (d + 1) (Nat.succ_lt_succ hd) rows hrows

theorem rowsAt_mergeColumn_one (data : List DataRow) (rows : List (String × Json)) (t : String) :
    rowsAt t (mergeColumn 1 data rows) = (cellsAt t rows).map fun v => [v] := by
  rw [mergeColumn, if_pos rfl]
  induction rows with
  | nil => rfl
  | cons e rows ih =>
    rw [List.map_cons, rowsAt_cons, ih]
    by_cases ht : e.1 = t
    · simp [cellsAt, ht]
    · simp [cellsAt, ht]

theorem column_zero {rows : List (String × Json)} {rest : List (List (String × Json))}
    (hnull : ∀ e ∈ rows, e.2 ≠ .null) (t : String) :
    cellsAt t (column 0 (mergeAll (rows :: rest) 0 [])) = cellsAt t rows := by
  rw [cellsAt_column, mergeAll, cells_mergeAll_lt (by decide), rowsAt_mergeColumn_one,
    List.filterMap_map]
  have hsome : ∀ v ∈ cellsAt t rows, (cell 0 ∘ fun v => [v]) v = some v := by
    intro v hv
    obtain ⟨e, he, rfl⟩ := List.mem_map.mp hv
    have := hnull e (List.mem_of_mem_filter he)
    simp [cell, this]
  rw [List.filterMap_congr hsome, List.filterMap_some]

theorem column_succ {rows first : List (String × Json)} {rest : List (List (String × Json))}
    {k : Nat} (hk : rest[k]? = some rows) {t : String}
    (hearlier : ∀ d < k, ∀ rows, rest[d]? = some rows → (cellsAt t rows).length ≤ 1)
    (hnull : ∀ e ∈ rows, e.2 ≠ .null) :
    cellsAt t (column (k + 1) (mergeAll (first :: rest) 0 [])) = (cellsAt t rows).take 1 := by
  rw [cellsAt_column, mergeAll, Nat.add_comm k 1]
  apply cells_mergeAll Nat.one_pos hk _ hearlier hnull
  rw [rowsAt_mergeColumn_one]
  intro r hr
  obtain ⟨v, _, rfl⟩ := List.mem_map.mp hr
  exact le_rfl

/-- When what is fetched and what is asked for are, at each timestamp, nothing or all that
a path has there: the columns hold what is asked for exactly if that is fetched, and no
path but the first has two values at one timestamp. -/
theorem columns_iff {specs : List PathSpec} {fetched asked : PathSpec → List (String × Json)}
    (stored : PathSpec → String → List Json)
    (hnull : ∀ spec, ∀ e ∈ fetched spec, e.2 ≠ .null)
    (hfetched : ∀ spec t,
      cellsAt t (fetched spec) = [] ∨ (cellsAt t (fetched spec)).Perm (stored spec t))
    (hasked : ∀ spec t,
      cellsAt t (asked spec) = [] ∨ (cellsAt t (asked spec)).Perm (stored spec t)) :
    (∀ c spec, specs[c]? = some spec →
      (column c (mergeAll (specs.map fetched) 0 [])).Perm (asked spec)) ↔
    ∀ c spec, specs[c]? = some spec →
      (fetched spec).Perm (asked spec) ∧ (0 < c → ∀ t, (cellsAt t (asked spec)).length ≤ 1) := by
  cases specs with
  | nil => simp
  | cons first rest =>
    have hzero : (column 0 (mergeAll ((first :: rest).map fetched) 0 [])).Perm (fetched first) := by
      rw [perm_iff_cellsAt]
      intro t
      rw [List.map_cons, column_zero (hnull first)]
    have hsucc {k : Nat} {spec : PathSpec} (hk : rest[k]? = some spec) {t : String}
        (hearlier : ∀ d < k, ∀ spec, rest[d]? = some spec → (cellsAt t (fetched spec)).length ≤ 1) :
        cellsAt t (column (k + 1) (mergeAll ((first :: rest).map fetched) 0 [])) =
          (cellsAt t (fetched spec)).take 1 := by
      apply column_succ _ _ (hnull spec)
      · rw [List.getElem?_map, hk]
        rfl
      · intro d hd rows hrows
        rw [List.getElem?_map, Option.map_eq_some_iff] at hrows
        obtain ⟨spec', hspec', rfl⟩ := hrows
        exact hearlier d hd spec' hspec'
    constructor
    · intro h
      have hlater (k : Nat) (spec : PathSpec) (hk : rest[k]? = some spec) (t : String) :
          (cellsAt t (fetched spec)).Perm (cellsAt t (asked spec)) ∧
            (cellsAt t (asked spec)).length ≤ 1 := by
        induction k using Nat.strong_induction_on generalizing spec with
        | _ k ih =>
          have hcol := perm_iff_cellsAt.mp (h (k + 1) spec (by simpa using hk)) t
          rw [hsucc hk fun d hd spec' hspec' => by
            obtain ⟨hp, hl⟩ := ih d hd spec' hspec'
            exact hp.length_eq.trans_le hl] at hcol
          have hlen : (cellsAt t (asked spec)).length ≤ 1 := by
            rw [← hcol.length_eq]
            exact List.length_take_le 1 _
          refine ⟨?_, hlen⟩
          rcases hfetched spec t with hf | hf
          · rwa [hf, List.take_nil, ← hf] at hcol
          · rcases hasked spec t with ha | ha
            · rw [ha, List.perm_nil, List.take_eq_nil_iff] at hcol
              rw [ha, hcol.resolve_left (by decide)]
            · exact hf.trans ha.symm
      intro c spec hc
      cases c with
      | zero =>
        cases hc
        exact ⟨hzero.symm.trans (h 0 first rfl), fun h0 => absurd h0 (by decide)⟩
      | succ k =>
        have hk : rest[k]? = some spec := by simpa using hc
        exact ⟨perm_iff_cellsAt.mpr fun t => (hlater k spec hk t).1,
          fun _ t => (hlater k spec hk t).2⟩
    · intro h c spec hc
      cases c with
      | zero =>
        cases hc
        exact hzero.trans (h 0 first rfl).1
      | succ k =>
        have hk : rest[k]? = some spec := by simpa using hc
        have hone (d : Nat) (spec' : PathSpec) (hd : rest[d]? = some spec') (t : String) :
            (cellsAt t (fetched spec')).length ≤ 1 := by
          obtain ⟨hp, hl⟩ := h (d + 1) spec' (by simpa using hd)
          rw [(perm_iff_cellsAt.mp hp t).length_eq]
          exact hl (Nat.succ_pos d) t
        rw [perm_iff_cellsAt]
        intro t
        rw [hsucc hk fun d _ spec' hd => hone d spec' hd t,
          List.take_of_length_le (hone k spec hk t)]
        exact perm_iff_cellsAt.mp (h (k + 1) spec hc).1 t

theorem column_perm {data data' : List DataRow} (h : data.Perm data') (c : Nat) :
    (column c data).Perm (column c data') :=
  h.filterMap _

theorem mem_pushLast (n : Nat) (v : Json) (L : List (List Json)) :
    ∃ r ∈ pushLast n v L, v ∈ r := by
  induction L with
  | nil => exact ⟨_, List.mem_singleton_self _, by simp⟩
  | cons r L ih =>
    cases L with
    | nil => exact ⟨_, List.mem_singleton_self _, by simp⟩
    | cons s L =>
      obtain ⟨r', hr', hv⟩ := ih
      exact ⟨r', List.mem_cons_of_mem _ hr', hv⟩

theorem mem_pushLast_of_mem {n : Nat} {v w : Json} {L : List (List Json)}
    (h : ∃ r ∈ L, v ∈ r) : ∃ r ∈ pushLast n w L, v ∈ r := by
  induction L with
  | nil => simp at h
  | cons r L ih =>
    cases L with
    | nil =>
      obtain ⟨r', hr', hv⟩ := h
      cases List.mem_singleton.mp hr'
      exact ⟨_, List.mem_singleton_self _, by simp [hv]⟩
    | cons s L =>
      obtain ⟨r', hr', hv⟩ := h
      rcases List.mem_cons.mp hr' with rfl | hr'
      · exact ⟨r', List.mem_cons_self, hv⟩
      · obtain ⟨r'', hr'', hv'⟩ := ih ⟨r', hr', hv⟩
        exact ⟨r'', List.mem_cons_of_mem _ hr'', hv'⟩

/-- A value is shown in a row of its timestamp. -/
def Shows (data : List DataRow) (e : String × Json) : Prop :=
  ∃ row ∈ data, row.timestamp = e.1 ∧ e.2 ∈ row.values

theorem shows_iff (data : List DataRow) (t : String) (v : Json) :
    Shows data (t, v) ↔ ∃ r ∈ rowsAt t data, v ∈ r := by
  simp [Shows, rowsAt, and_assoc]

theorem mem_pushAll {n : Nat} {v : Json} {vs : List Json} {L : List (List Json)}
    (h : v ∈ vs ∨ ∃ r ∈ L, v ∈ r) : ∃ r ∈ pushAll n vs L, v ∈ r := by
  induction vs generalizing L with
  | nil => simpa [pushAll] using h
  | cons w vs ih =>
    apply ih
    rcases h with h | h
    · rcases List.mem_cons.mp h with rfl | h
      · exact Or.inr (mem_pushLast n v L)
      · exact Or.inl h
    · exact Or.inr (mem_pushLast_of_mem h)

theorem shows_mergeColumn {n : Nat} (hn : 0 < n) {data : List DataRow}
    {rows : List (String × Json)} {e : String × Json} (h : e ∈ rows ∨ Shows data e) :
    Shows (mergeColumn (n + 1) data rows) e := by
  obtain ⟨t, v⟩ := e
  rw [shows_iff, rowsAt_mergeColumn hn]
  apply mem_pushAll
  rcases h with h | h
  · left
    exact List.mem_map.mpr ⟨(t, v), List.mem_filter.mpr ⟨h, by simp⟩, rfl⟩
  · right
    exact (shows_iff data t v).mp h

theorem shows_mergeAll_of_shows {n : Nat} (hn : 0 < n) (fetched : List (List (String × Json)))
    {data : List DataRow} {e : String × Json} (h : Shows data e) :
    Shows (mergeAll fetched n data) e := by
  induction fetched generalizing n data with
  | nil => exact h
  | cons rows rest ih => exact ih (Nat.succ_pos n) (shows_mergeColumn hn (Or.inr h))

/-- Merging drops no value. -/
theorem shows_mergeAll {n : Nat} {fetched : List (List (String × Json))}
    {rows : List (String × Json)} (hrows : rows ∈ fetched) {e : String × Json} (he : e ∈ rows)
    (data : List DataRow) : Shows (mergeAll fetched n data) e := by
  induction fetched generalizing n data with
  | nil => cases hrows
  | cons first rest ih =>
    rcases List.mem_cons.mp hrows with rfl | hrows
    · apply shows_mergeAll_of_shows (Nat.succ_pos n)
      rcases Nat.eq_zero_or_pos n with rfl | hn
      · obtain ⟨t, v⟩ := e
        rw [shows_iff, rowsAt_mergeColumn_one]
        refine ⟨[v], List.mem_map_of_mem (f := fun v => [v]) ?_, List.mem_singleton_self v⟩
        exact List.mem_map.mpr ⟨(t, v), List.mem_filter.mpr ⟨he, by simp⟩, rfl⟩
      · exact shows_mergeColumn hn (Or.inl he)
    · exact ih hrows _

end SignalK.Provider

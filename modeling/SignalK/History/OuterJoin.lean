import SignalK.History.Range

/-! The table of several paths as the outer join of their columns. A path adds to one row
of each of its timestamps, the last, and leaves the other rows as short as they are. -/
namespace SignalK.Provider

/-- The rows that a response makes of the paths' rows. -/
def table (fetched : List (List (String × Json))) : List DataRow :=
  Sqlite.orderBy DataRow.timestamp (mergeAll fetched 0 [])

/-- Sorted rows with one cell for each path, which hold the paths' rows and nothing else. -/
structure OuterJoin (fetched : List (List (String × Json))) (data : List DataRow) : Prop where
  sorted : data.Pairwise fun r s => Text.Le r.timestamp s.timestamp
  width : ∀ r ∈ data, r.values.length = fetched.length
  columns : ∀ c rows, fetched[c]? = some rows → (column c data).Perm rows

/-- From two paths on, none has a timestamp twice, and the last one has the timestamps of
all the others. -/
def Joinable (fetched : List (List (String × Json))) : Prop :=
  2 ≤ fetched.length → (∀ rows ∈ fetched, (rows.map Prod.fst).Nodup) ∧
    ∀ last, fetched.getLast? = some last →
      ∀ rows ∈ fetched, rows.map Prod.fst ⊆ last.map Prod.fst

theorem nodup_iff_cellsAt {rows : List (String × Json)} :
    (rows.map Prod.fst).Nodup ↔ ∀ t, (cellsAt t rows).length ≤ 1 := by
  have hcount : ∀ t, (rows.map Prod.fst).count t = (cellsAt t rows).length := by
    intro t
    induction rows with
    | nil => rfl
    | cons e rows ih =>
      simp only [cellsAt] at ih ⊢
      by_cases he : e.1 = t
      · simp [he, ih]
      · simp [he, ih]
  rw [List.nodup_iff_count_le_one]
  exact forall_congr' fun t => by rw [hcount]

theorem mem_timestamps {rows : List (String × Json)} {t : String} :
    t ∈ rows.map Prod.fst ↔ cellsAt t rows ≠ [] := by
  rw [List.mem_map, ne_eq, cellsAt, List.map_eq_nil_iff, List.filter_eq_nil_iff]
  push Not
  exact exists_congr fun e => and_congr_right fun _ => decide_eq_true_iff.symm

theorem mergeAll_append (xs ys : List (List (String × Json))) (n : Nat) (data : List DataRow) :
    mergeAll (xs ++ ys) n data = mergeAll ys (n + xs.length) (mergeAll xs n data) := by
  induction xs generalizing n data with
  | nil => rfl
  | cons rows xs ih =>
    have hlen : n + (rows :: xs).length = n + 1 + xs.length := by
      simp only [List.length_cons]
      omega
    rw [List.cons_append, mergeAll, mergeAll, ih, hlen]

/-- Of several rows of one timestamp the first is never added to. -/
theorem pushAll_cons (n : Nat) (vs r : List Json) {L : List (List Json)} (hL : L ≠ []) :
    ∃ L', L' ≠ [] ∧ pushAll n vs (r :: L) = r :: L' := by
  induction vs generalizing L with
  | nil => exact ⟨L, hL, rfl⟩
  | cons v vs ih =>
    have hne : pushLast n v L ≠ [] := by
      obtain ⟨s, hs, -⟩ := mem_pushLast n v L
      exact List.ne_nil_of_mem hs
    obtain ⟨L', hL', hrest⟩ := ih hne
    refine ⟨L', hL', ?_⟩
    rw [pushAll, List.foldl_cons, pushLast_cons r hL]
    exact hrest

theorem rowsAt_mergeAll_cons {t : String} {n : Nat} (hn : 0 < n) {r : List Json}
    (fetched : List (List (String × Json))) {L : List (List Json)} (hL : L ≠ [])
    {data : List DataRow} (hdata : rowsAt t data = r :: L) :
    ∃ L', L' ≠ [] ∧ rowsAt t (mergeAll fetched n data) = r :: L' := by
  induction fetched generalizing n L data with
  | nil => exact ⟨L, hL, hdata⟩
  | cons rows fetched ih =>
    obtain ⟨L', hL', hmerge⟩ := pushAll_cons n (cellsAt t rows) r hL
    refine ih (Nat.succ_pos n) hL' ?_
    rw [rowsAt_mergeColumn hn, hdata]
    exact hmerge

/-- No row is wider than the columns that have been merged, as long as the paths have one
value at the timestamp. -/
theorem rowsAt_mergeAll_le {t : String} {n : Nat} (hn : 0 < n)
    {fetched : List (List (String × Json))}
    (hone : ∀ rows ∈ fetched, (cellsAt t rows).length ≤ 1) {data : List DataRow}
    (hdata : ∀ r ∈ rowsAt t data, r.length ≤ n) :
    ∀ r ∈ rowsAt t (mergeAll fetched n data), r.length ≤ n + fetched.length := by
  induction fetched generalizing n data with
  | nil => exact hdata
  | cons rows fetched ih =>
    have hnext : ∀ r ∈ rowsAt t (mergeColumn (n + 1) data rows), r.length ≤ n + 1 := by
      rw [rowsAt_mergeColumn hn]
      exact length_pushAll (hone rows List.mem_cons_self) hdata
    have hrest := ih (Nat.succ_pos n) (fun s hs => hone s (List.mem_cons_of_mem rows hs)) hnext
    intro r hr
    have h := hrest r hr
    simp only [List.length_cons]
    omega

theorem length_pushAll_rows {n : Nat} {vs : List Json} {L : List (List Json)}
    (hL : L.length ≤ 1) : (pushAll n vs L).length ≤ 1 := by
  induction vs generalizing L with
  | nil => exact hL
  | cons v vs ih =>
    refine ih ?_
    match L, hL with
    | [], _ => simp [pushLast]
    | [r], _ => simp [pushLast]

/-- There is one row at most if the first path has one value at most. -/
theorem rowsAt_mergeAll_one {t : String} {n : Nat} (hn : 0 < n)
    (fetched : List (List (String × Json))) {data : List DataRow}
    (hdata : (rowsAt t data).length ≤ 1) : (rowsAt t (mergeAll fetched n data)).length ≤ 1 := by
  induction fetched generalizing n data with
  | nil => exact hdata
  | cons rows fetched ih =>
    refine ih (Nat.succ_pos n) ?_
    rw [rowsAt_mergeColumn hn]
    exact length_pushAll_rows hdata

/-- Some path has the timestamp if there is a row of it. -/
theorem rowsAt_mergeAll_nil {t : String} {n : Nat} (hn : 0 < n)
    {fetched : List (List (String × Json))} (hnone : ∀ rows ∈ fetched, cellsAt t rows = [])
    {data : List DataRow} (hdata : rowsAt t data = []) :
    rowsAt t (mergeAll fetched n data) = [] := by
  induction fetched generalizing n data with
  | nil => exact hdata
  | cons rows fetched ih =>
    refine ih (Nat.succ_pos n) (fun s hs => hnone s (List.mem_cons_of_mem rows hs)) ?_
    rw [rowsAt_mergeColumn hn, hnone rows List.mem_cons_self, hdata]
    rfl

section
variable {first last : List (String × Json)} {mid : List (List (String × Json))}

/-- The last of several paths adds its values to the rows of the others. -/
theorem rowsAt_last (t : String) :
    rowsAt t (mergeAll (first :: (mid ++ [last])) 0 []) =
      pushAll (mid.length + 1) (cellsAt t last)
        (rowsAt t (mergeAll mid 1 (mergeColumn 1 [] first))) := by
  have hcount : 0 + 1 + mid.length = mid.length + 1 := by omega
  rw [mergeAll, mergeAll_append, mergeAll, mergeAll, hcount, rowsAt_mergeColumn (Nat.succ_pos _)]
  rfl

/-- The rows before the last path is merged. -/
theorem rowsAt_before_le {t : String} (hone : ∀ rows ∈ mid, (cellsAt t rows).length ≤ 1) :
    ∀ r ∈ rowsAt t (mergeAll mid 1 (mergeColumn 1 [] first)), r.length ≤ mid.length + 1 := by
  have hstart : ∀ r ∈ rowsAt t (mergeColumn 1 [] first), r.length ≤ 1 := by
    rw [rowsAt_mergeColumn_one]
    intro r hr
    obtain ⟨v, -, rfl⟩ := List.mem_map.mp hr
    exact le_rfl
  intro r hr
  have h := rowsAt_mergeAll_le Nat.one_pos hone hstart r hr
  omega

/-- Full rows at a timestamp, when the paths have one value there at most. -/
theorem width_of_one {t : String} (hone : ∀ rows ∈ first :: mid, (cellsAt t rows).length ≤ 1)
    (hlast : (cellsAt t last).length = 1) :
    ∀ r ∈ rowsAt t (mergeAll (first :: (mid ++ [last])) 0 []), r.length = mid.length + 2 := by
  obtain ⟨v, hv⟩ := List.length_eq_one_iff.mp hlast
  have hwidth : ∀ r ∈ rowsAt t (mergeAll mid 1 (mergeColumn 1 [] first)),
      r.length ≤ mid.length + 1 :=
    rowsAt_before_le fun rows h => hone rows (List.mem_cons_of_mem first h)
  have hrows : (rowsAt t (mergeAll mid 1 (mergeColumn 1 [] first))).length ≤ 1 := by
    refine rowsAt_mergeAll_one Nat.one_pos mid ?_
    rw [rowsAt_mergeColumn_one, List.length_map]
    exact hone first List.mem_cons_self
  rw [rowsAt_last, hv]
  match rowsAt t (mergeAll mid 1 (mergeColumn 1 [] first)), hrows, hwidth with
  | [], _, _ =>
    intro r hr
    simp only [pushAll, List.foldl_cons, List.foldl_nil, pushLast, List.mem_singleton] at hr
    simp [hr]
  | [s], _, hwidth =>
    have hs := hwidth s List.mem_cons_self
    intro r hr
    simp only [pushAll, List.foldl_cons, List.foldl_nil, pushLast, List.mem_singleton] at hr
    simp only [hr, List.length_append, List.length_replicate, List.length_singleton]
    omega

/-- With more than one path no first value may be left behind in a row of its own. -/
theorem first_one_of_width {t : String}
    (h : ∀ r ∈ rowsAt t (mergeAll (first :: (mid ++ [last])) 0 []), r.length = mid.length + 2) :
    (cellsAt t first).length ≤ 1 := by
  by_contra hmany
  match hcells : cellsAt t first with
  | [] => simp [hcells] at hmany
  | [v] => simp [hcells] at hmany
  | v :: w :: vs =>
    have hstart : rowsAt t (mergeColumn 1 [] first) = [v] :: ([w] :: vs.map fun v => [v]) := by
      rw [rowsAt_mergeColumn_one, hcells]
      rfl
    obtain ⟨L, -, hrow⟩ := rowsAt_mergeAll_cons Nat.one_pos (mid ++ [last])
      (List.cons_ne_nil _ _) hstart
    have hshort := h [v] (by rw [mergeAll, hrow]; exact List.mem_cons_self)
    simp at hshort

/-- A later path shows all its values only if it has one at the timestamp at most. -/
theorem later_one_of_columns {rest : List (List (String × Json))}
    (hnull : ∀ rows ∈ rest, ∀ e ∈ rows, e.2 ≠ .null)
    (h : ∀ c rows, rest[c]? = some rows →
      (column (c + 1) (mergeAll (first :: rest) 0 [])).Perm rows) (t : String) (c : Nat) :
    ∀ rows, rest[c]? = some rows → (cellsAt t rows).length ≤ 1 := by
  induction c using Nat.strong_induction_on with
  | _ c ih =>
    intro rows hrows
    have hcells := perm_iff_cellsAt.mp (h c rows hrows) t
    rw [column_succ hrows ih (hnull rows (List.mem_of_getElem? hrows))] at hcells
    rw [← hcells.length_eq]
    exact List.length_take_le 1 _

/-- A timestamp that the last path lacks leaves its rows short. -/
theorem covered_of_width {t : String} (hone : ∀ rows ∈ mid, (cellsAt t rows).length ≤ 1)
    {rows : List (String × Json)} (hrows : rows ∈ first :: (mid ++ [last]))
    (hwidth : ∀ r ∈ rowsAt t (mergeAll (first :: (mid ++ [last])) 0 []),
      r.length = mid.length + 2)
    (ht : t ∈ rows.map Prod.fst) : t ∈ last.map Prod.fst := by
  by_contra hmissing
  have hnone : cellsAt t last = [] := not_not.mp (mt mem_timestamps.mpr hmissing)
  obtain ⟨e, he, rfl⟩ := List.mem_map.mp ht
  obtain ⟨r, hr, -⟩ := (shows_iff _ e.1 e.2).mp (shows_mergeAll (n := 0) hrows he [])
  have hfull := hwidth r hr
  rw [rowsAt_last, hnone] at hr
  have hshort := rowsAt_before_le hone r hr
  omega

/-- Rows are full where the last path has all the timestamps. -/
theorem width_of_covered {t : String}
    (hone : ∀ rows ∈ first :: (mid ++ [last]), (cellsAt t rows).length ≤ 1)
    (hcover : ∀ rows ∈ first :: mid, t ∈ rows.map Prod.fst → t ∈ last.map Prod.fst) :
    ∀ r ∈ rowsAt t (mergeAll (first :: (mid ++ [last])) 0 []), r.length = mid.length + 2 := by
  intro r hr
  by_cases hlast : cellsAt t last = []
  · have hempty : ∀ rows ∈ first :: mid, cellsAt t rows = [] := by
      intro rows hrows
      by_contra hne
      exact mem_timestamps.mp (hcover rows hrows (mem_timestamps.mpr hne)) hlast
    have hnil : rowsAt t (mergeAll mid 1 (mergeColumn 1 [] first)) = [] := by
      refine rowsAt_mergeAll_nil Nat.one_pos
        (fun rows h => hempty rows (List.mem_cons_of_mem first h)) ?_
      rw [rowsAt_mergeColumn_one, hempty first List.mem_cons_self, List.map_nil]
    rw [rowsAt_last, hlast, hnil] at hr
    cases hr
  · have hlast' : (cellsAt t last).length = 1 := by
      have hle := hone last (by simp)
      have hpos := List.length_pos_of_ne_nil hlast
      omega
    refine width_of_one (fun rows hrows => hone rows ?_) hlast' r hr
    rw [← List.cons_append]
    exact List.mem_append_left _ hrows

/-- Where no path has a timestamp twice every column holds its path's rows. -/
theorem columns_of_one {rest : List (List (String × Json))}
    (hnull : ∀ rows ∈ first :: rest, ∀ e ∈ rows, e.2 ≠ .null)
    (hone : ∀ rows ∈ rest, ∀ t, (cellsAt t rows).length ≤ 1) {c : Nat}
    {rows : List (String × Json)} (hc : (first :: rest)[c]? = some rows) :
    (column c (mergeAll (first :: rest) 0 [])).Perm rows := by
  rw [perm_iff_cellsAt]
  intro t
  cases c with
  | zero =>
    cases hc
    rw [column_zero (hnull first List.mem_cons_self)]
  | succ c =>
    have hc' : rest[c]? = some rows := hc
    rw [column_succ hc' (fun d _ rows' hd => hone rows' (List.mem_of_getElem? hd) t)
      (hnull rows (List.mem_of_getElem? hc)),
      List.take_of_length_le (hone rows (List.mem_of_getElem? hc') t)]

end

theorem outerJoin_table_iff {fetched : List (List (String × Json))} :
    OuterJoin fetched (table fetched) ↔
      (∀ t, ∀ r ∈ rowsAt t (mergeAll fetched 0 []), r.length = fetched.length) ∧
      ∀ c rows, fetched[c]? = some rows → (column c (mergeAll fetched 0 [])).Perm rows := by
  have hperm := orderBy_perm DataRow.timestamp (mergeAll fetched 0 [])
  have hrows : (∀ r ∈ table fetched, r.values.length = fetched.length) ↔
      ∀ t, ∀ r ∈ rowsAt t (mergeAll fetched 0 []), r.length = fetched.length := by
    constructor
    · intro h t r hr
      obtain ⟨row, hrow, rfl⟩ := List.mem_map.mp hr
      exact h row (hperm.mem_iff.mpr (List.mem_of_mem_filter hrow))
    · intro h row hrow
      refine h row.timestamp row.values (List.mem_map.mpr ⟨row, ?_, rfl⟩)
      exact List.mem_filter.mpr ⟨hperm.mem_iff.mp hrow, by simp⟩
  have hcolumns : ∀ c rows, (column c (table fetched)).Perm rows ↔
      (column c (mergeAll fetched 0 [])).Perm rows := fun c rows =>
    ⟨(column_perm hperm c).symm.trans, (column_perm hperm c).trans⟩
  constructor
  · intro h
    exact ⟨hrows.mp h.width, fun c rows hc => (hcolumns c rows).mp (h.columns c rows hc)⟩
  · rintro ⟨hwidth, hcols⟩
    exact ⟨orderBy_sorted _ _, hrows.mpr hwidth, fun c rows hc =>
      (hcolumns c rows).mpr (hcols c rows hc)⟩

/-- The table is the outer join of its columns exactly when they can be joined. -/
theorem outerJoin_iff {fetched : List (List (String × Json))}
    (hnull : ∀ rows ∈ fetched, ∀ e ∈ rows, e.2 ≠ .null) :
    OuterJoin fetched (table fetched) ↔ Joinable fetched := by
  rw [outerJoin_table_iff]
  cases fetched with
  | nil => simp [Joinable, mergeAll, rowsAt]
  | cons first later =>
  cases later with
  | nil =>
    refine iff_of_true ⟨fun t r hr => ?_, fun c rows' hc => ?_⟩ (fun h => absurd h (by simp))
    · rw [mergeAll, mergeAll, rowsAt_mergeColumn_one] at hr
      obtain ⟨v, -, rfl⟩ := List.mem_map.mp hr
      rfl
    · exact columns_of_one hnull (fun rows h => absurd h List.not_mem_nil) hc
  | cons second rest =>
    obtain ⟨mid, last, hsplit⟩ : ∃ mid last, second :: rest = mid ++ [last] :=
      ⟨_, _, (List.dropLast_append_getLast (List.cons_ne_nil second rest)).symm⟩
    rw [hsplit] at hnull ⊢
    have hlen : (first :: (mid ++ [last])).length = mid.length + 2 := by simp
    have hend : (first :: (mid ++ [last])).getLast? = some last := by
      rw [← List.cons_append, List.getLast?_concat]
    rw [hlen]
    constructor
    · rintro ⟨hwidth, hcolumns⟩ -
      have hlater : ∀ t c rows, (mid ++ [last])[c]? = some rows → (cellsAt t rows).length ≤ 1 :=
        later_one_of_columns (fun rows h => hnull rows (List.mem_cons_of_mem first h))
          fun c rows hc => hcolumns (c + 1) rows hc
      have hone : ∀ rows ∈ first :: (mid ++ [last]), ∀ t, (cellsAt t rows).length ≤ 1 := by
        intro rows hrows t
        cases List.mem_cons.mp hrows with
        | inl h => exact h ▸ first_one_of_width (hwidth t)
        | inr h =>
          obtain ⟨c, hc⟩ := List.mem_iff_getElem?.mp h
          exact hlater t c rows hc
      refine ⟨fun rows hrows => nodup_iff_cellsAt.mpr (hone rows hrows), ?_⟩
      intro last' hlast' rows hrows t ht
      cases Option.some.inj (hend.symm.trans hlast')
      have hmid : ∀ rows ∈ mid, (cellsAt t rows).length ≤ 1 := fun rows h =>
        hone rows (List.mem_cons_of_mem first (List.mem_append_left _ h)) t
      exact covered_of_width hmid hrows (hwidth t) ht
    · intro h
      obtain ⟨hnodup, hcover⟩ := h (by simp)
      have hone := fun rows hrows => nodup_iff_cellsAt.mp (hnodup rows hrows)
      constructor
      · intro t
        refine width_of_covered (fun rows hrows => hone rows hrows t) fun rows hrows ht => ?_
        refine hcover last hend rows ?_ ht
        rw [← List.cons_append]
        exact List.mem_append_left _ hrows
      · intro c rows hc
        exact columns_of_one hnull (fun rows h => hone rows (List.mem_cons_of_mem first h)) hc

section
variable [HistoryLibs]

theorem queryPathValues_ne_null {db : HistoryDb} {context path f t : String}
    {resolution : Option F64} {method : AggregateMethod} {rows : List (String × Json)}
    (h : queryPathValues db context path f t resolution method = .ok rows) :
    ∀ e ∈ rows, e.2 ≠ .null := by
  intro e he
  unfold queryPathValues at h
  split at h
  · cases h
    unfold queryRawValues at he
    dsimp only at he
    split at he
    · obtain ⟨r, -, rfl⟩ := List.mem_map.mp he
      exact ofF64_ne_null _
    · obtain ⟨ts, -, rfl⟩ := List.mem_map.mp he
      exact ofF64_ne_null _
  · unfold queryDailyValues at h
    cases hf : datePrefix f with
    | err x => rw [hf] at h; cases h
    | panic => rw [hf] at h; cases h
    | ok fromDate =>
      cases ht : datePrefix t with
      | err x => rw [hf, ht] at h; cases h
      | panic => rw [hf, ht] at h; cases h
      | ok toDate =>
        rw [hf, ht] at h
        cases h
        obtain ⟨r, -, rfl⟩ := List.mem_map.mp he
        exact ofF64_ne_null _

/-- What the paths of a request have, one after another. -/
def Fetched (db : HistoryDb) (context f t : String) (resolution : Option F64)
    (specs : List PathSpec) (fetched : List (List (String × Json))) : Prop :=
  List.Forall₂ (fun spec rows =>
    queryPathValues db context spec.path f t resolution spec.method = .ok rows) specs fetched

/-- The loop over the paths, when none of them fails. -/
theorem collectValues_ok {db : HistoryDb} {context f t : String} {resolution : Option F64}
    {specs : List PathSpec} {n : Nat} {data out : List DataRow}
    (h : collectValues db context f t resolution specs n data = .ok out) :
    ∃ fetched, Fetched db context f t resolution specs fetched ∧ out = mergeAll fetched n data := by
  induction specs generalizing n data with
  | nil =>
    cases h
    exact ⟨[], .nil, rfl⟩
  | cons spec specs ih =>
    rw [collectValues] at h
    cases hq : queryPathValues db context spec.path f t resolution spec.method with
    | err e => rw [hq] at h; cases h
    | panic => rw [hq] at h; cases h
    | ok rows =>
      rw [hq, Fallible.bind_ok] at h
      obtain ⟨fetched, hfetched, hout⟩ := ih h
      exact ⟨rows :: fetched, .cons hq hfetched, hout⟩

theorem Fetched.ne_null {db : HistoryDb} {context f t : String} {resolution : Option F64}
    {specs : List PathSpec} {fetched : List (List (String × Json))}
    (h : Fetched db context f t resolution specs fetched) :
    ∀ rows ∈ fetched, ∀ e ∈ rows, e.2 ≠ .null := by
  induction h with
  | nil => exact fun rows hrows => nomatch hrows
  | cons hq _ ih =>
    intro rows hrows
    cases List.mem_cons.mp hrows with
    | inl h => exact h ▸ queryPathValues_ne_null hq
    | inr h => exact ih rows h

variable [FloatMath] [FloatParse]

/-- A response is the table of what its paths have. -/
theorem getValues_table {now : Int} {db : HistoryDb} {req : ValuesRequest} {resp : ValuesResponse}
    (h : getValues now db req = .ok resp) :
    ∃ fetched, Fetched db req.context resp.fromTs resp.toTs
        (resolutionSecs req.resolution resp.fromTs resp.toTs) req.pathSpecs fetched ∧
      resp.data = table fetched := by
  unfold getValues at h
  cases hrange : resolveTimeRange now req.fromTs req.toTs req.duration with
  | err e => rw [hrange] at h; cases h
  | panic => rw [hrange] at h; cases h
  | ok range =>
    obtain ⟨f, t⟩ := range
    rw [hrange, Fallible.bind_ok] at h
    dsimp only at h
    cases hdata : collectValues db req.context f t (resolutionSecs req.resolution f t)
        req.pathSpecs 0 [] with
    | err e => rw [hdata] at h; cases h
    | panic => rw [hdata] at h; cases h
    | ok data =>
      rw [hdata, Fallible.bind_ok] at h
      cases h
      obtain ⟨fetched, hfetched, hout⟩ := collectValues_ok hdata
      exact ⟨fetched, hfetched, by rw [hout, table]⟩

/-- For any rows of any number of paths, and so for every response, the table is the
outer join of its columns exactly when they can be joined. -/
theorem getValues_outerJoin_iff :
    (∀ fetched : List (List (String × Json)), (∀ rows ∈ fetched, ∀ e ∈ rows, e.2 ≠ .null) →
      (OuterJoin fetched (table fetched) ↔ Joinable fetched)) ∧
    ∀ (now : Int) (db : HistoryDb) (req : ValuesRequest) (resp : ValuesResponse),
      getValues now db req = .ok resp →
      ∃ fetched, Fetched db req.context resp.fromTs resp.toTs
          (resolutionSecs req.resolution resp.fromTs resp.toTs) req.pathSpecs fetched ∧
        resp.data = table fetched ∧ (OuterJoin fetched resp.data ↔ Joinable fetched) := by
  refine ⟨fun fetched => outerJoin_iff, ?_⟩
  intro now db req resp h
  obtain ⟨fetched, hfetched, hdata⟩ := getValues_table h
  refine ⟨fetched, hfetched, hdata, ?_⟩
  rw [hdata]
  exact outerJoin_iff hfetched.ne_null

end

/-! Speed and depth at noon, and one more speed a second later. -/

section
attribute [local instance] FloatMath.exact FloatParse.digits HistoryLibs.unused

def speedAndDepth : HistoryDb where
  raw := [⟨"2026-03-02T12:00:00Z", "vessels.self", "navigation.speedOverGround", 5⟩,
    ⟨"2026-03-02T12:00:00Z", "vessels.self", "environment.depth.belowKeel", 9⟩,
    ⟨"2026-03-02T12:00:01Z", "vessels.self", "navigation.speedOverGround", 6⟩]
  daily := []

def requestOf (paths : List String) (toTs : String) : ValuesRequest where
  context := "vessels.self"
  pathSpecs := paths.map fun path => { path := path, method := .average }
  fromTs := some "2026-03-02T12:00:00Z"
  toTs := some toTs
  duration := none
  resolution := none

/-- The row of the later second has no cell for the depth. -/
theorem missing_cell :
    ∃ resp fetched, getValues 0 speedAndDepth (requestOf
        ["navigation.speedOverGround", "environment.depth.belowKeel"] "2026-03-02T12:00:05Z") =
          .ok resp ∧
      Fetched speedAndDepth "vessels.self" resp.fromTs resp.toTs
        (resolutionSecs none resp.fromTs resp.toTs) (requestOf
          ["navigation.speedOverGround", "environment.depth.belowKeel"] "").pathSpecs fetched ∧
      resp.data = [⟨"2026-03-02T12:00:00Z", [.ofF64 5, .ofF64 9]⟩,
        ⟨"2026-03-02T12:00:01Z", [.ofF64 6]⟩] ∧
      ¬ OuterJoin fetched resp.data := by
  refine ⟨{
      context := "vessels.self"
      fromTs := "2026-03-02T12:00:00Z"
      toTs := "2026-03-02T12:00:05Z"
      values := [("navigation.speedOverGround", "average"),
        ("environment.depth.belowKeel", "average")]
      data := [⟨"2026-03-02T12:00:00Z", [.ofF64 5, .ofF64 9]⟩,
        ⟨"2026-03-02T12:00:01Z", [.ofF64 6]⟩] },
    [[("2026-03-02T12:00:00Z", .ofF64 5), ("2026-03-02T12:00:01Z", .ofF64 6)],
      [("2026-03-02T12:00:00Z", .ofF64 9)]], by decide +kernel,
    .cons (by decide +kernel) (.cons (by decide +kernel) .nil), rfl, fun h => ?_⟩
  have hwidth := h.width ⟨"2026-03-02T12:00:01Z", [.ofF64 6]⟩ (by simp)
  simp at hwidth

/-- With the depth in front every row is full. -/
theorem getValues_outerJoin_full :
    ∃ resp fetched, getValues 0 speedAndDepth (requestOf
        ["environment.depth.belowKeel", "navigation.speedOverGround"] "2026-03-02T12:00:05Z") =
          .ok resp ∧ OuterJoin fetched resp.data := by
  have hresp : getValues 0 speedAndDepth (requestOf
      ["environment.depth.belowKeel", "navigation.speedOverGround"] "2026-03-02T12:00:05Z") = .ok {
        context := "vessels.self"
        fromTs := "2026-03-02T12:00:00Z"
        toTs := "2026-03-02T12:00:05Z"
        values := [("environment.depth.belowKeel", "average"),
          ("navigation.speedOverGround", "average")]
        data := [⟨"2026-03-02T12:00:00Z", [.ofF64 9, .ofF64 5]⟩,
          ⟨"2026-03-02T12:00:01Z", [.null, .ofF64 6]⟩] } := by decide +kernel
  obtain ⟨fetched, hfetched, -, hjoin⟩ := getValues_outerJoin_iff.2 _ _ _ _ hresp
  cases hfetched with
  | cons hdepth hrest =>
    cases hrest with
    | cons hspeed hnil =>
      cases hnil
      have hdepth' : queryPathValues speedAndDepth "vessels.self" "environment.depth.belowKeel"
          "2026-03-02T12:00:00Z" "2026-03-02T12:00:05Z"
          (resolutionSecs none "2026-03-02T12:00:00Z" "2026-03-02T12:00:05Z") .average =
          .ok [("2026-03-02T12:00:00Z", .ofF64 9)] := by decide +kernel
      have hspeed' : queryPathValues speedAndDepth "vessels.self" "navigation.speedOverGround"
          "2026-03-02T12:00:00Z" "2026-03-02T12:00:05Z"
          (resolutionSecs none "2026-03-02T12:00:00Z" "2026-03-02T12:00:05Z") .average =
          .ok [("2026-03-02T12:00:00Z", .ofF64 5), ("2026-03-02T12:00:01Z", .ofF64 6)] := by
        decide +kernel
      cases hdepth'.symm.trans hdepth
      cases hspeed'.symm.trans hspeed
      refine ⟨_, _, hresp, hjoin.mpr fun _ => ⟨by decide +kernel, ?_⟩⟩
      rintro last hlast
      cases hlast
      decide +kernel

end

end SignalK.Provider

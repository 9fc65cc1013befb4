import Mathlib.Algebra.BigOperators.Group.List.Basic
import Mathlib.Algebra.Order.Ring.Rat
import Mathlib.Tactic.FieldSimp
import SignalK.History.Columns
import SignalK.Lib.Machine

/-! What the two tables together say of the samples of a day. Summing up moves rows from
one table to the other, and it replaces a summary that is there already. -/
namespace SignalK
open Provider HistoryDb

inductive HistoryOp where
  | recordBatch (clock : Nat → Int) (batch : List (String × String × ℚ × Option String))
  | aggregateAndPrune (now : Int) (retentionRawDays retentionDailyDays : Nat)

namespace HistoryDb

/-- An operation and the rows that it records. -/
def step (db : HistoryDb) : HistoryOp → HistoryDb × List RawRow
  | .recordBatch clock batch => (db.recordBatch clock batch, (empty.recordBatch clock batch).raw)
  | .aggregateAndPrune now rawDays dailyDays => (aggregateAndPrune now rawDays dailyDays db, [])

/-- The date is not older than the daily retention. -/
def Retained (date : String) : HistoryOp → Prop
  | .recordBatch _ _ => True
  | .aggregateAndPrune now _ dailyDays =>
    Sqlite.below (Sqlite.dateBefore now dailyDays) date = false

/-- A group that is summed up has no summary yet: no sample of it has come late. -/
def NoneLate (key : String × String × String) (db : HistoryDb) : HistoryOp → Prop
  | .recordBatch _ _ => True
  | .aggregateAndPrune now rawDays _ =>
    (∀ r ∈ db.raw, r.key = key →
      Sqlite.below (Sqlite.datetimeBefore now rawDays) r.timestamp = false) ∨
    ∀ d ∈ db.daily, d.key ≠ key

end HistoryDb

/-- The summaries of a group. -/
def groupDaily (key : String × String × String) (db : HistoryDb) : List DailyRow :=
  db.daily.filter fun d => d.key = key

/-- The summaries of a group and its raw rows account for all that was recorded of it. -/
structure Accounted (key : String × String × String) (db : HistoryDb) (recorded : List RawRow) :
    Prop where
  count : ((groupDaily key db).map DailyRow.count).sum + (groupValues key db.raw).length =
    (groupValues key recorded).length
  min : minimum ((groupDaily key db).map DailyRow.minValue ++ groupValues key db.raw) =
    minimum (groupValues key recorded)
  max : maximum ((groupDaily key db).map DailyRow.maxValue ++ groupValues key db.raw) =
    maximum (groupValues key recorded)
  avg : (((groupDaily key db).map fun d => d.avgValue * (d.count : ℚ)).sum +
      (groupValues key db.raw).sum) /
    (((groupDaily key db).map DailyRow.count).sum + (groupValues key db.raw).length : Nat) =
      average (groupValues key recorded)

/-- The values of a group are those of its one summary, if it has any, and those of its
raw rows. -/
def Summed (key : String × String × String) (db : HistoryDb) (recorded : List RawRow) : Prop :=
  ∃ vals : List ℚ, (groupValues key recorded).Perm (vals ++ groupValues key db.raw) ∧
    groupDaily key db = if vals = [] then [] else [summary key vals]

theorem filter_insertOrReplace (table : List DailyRow) (row : DailyRow)
    (key : String × String × String) :
    ((Sqlite.insertOrReplace table row).filter fun d => d.key = key) =
      if row.key = key then [row] else table.filter fun d => d.key = key := by
  rw [Sqlite.insertOrReplace, List.filter_append, List.filter_filter]
  by_cases h : row.key = key
  · have hnone : (table.filter fun d => decide (d.key = key) && decide (d.key ≠ row.key)) = [] := by
      rw [List.filter_eq_nil_iff]
      intro d _
      simp [h]
    rw [hnone, if_pos h]
    simp [h]
  · have hall : (table.filter fun d => decide (d.key = key) && decide (d.key ≠ row.key)) =
        table.filter fun d => d.key = key := by
      apply List.filter_congr
      intro d _
      by_cases hd : d.key = key
      · simp [hd, Ne.symm h]
      · simp [hd]
    rw [hall, if_neg h]
    simp [h]

theorem filter_summaries (keys : List (String × String × String))
    (f : String × String × String → List ℚ) (table : List DailyRow)
    (key : String × String × String) :
    (((keys.map fun k => summary k (f k)).foldl Sqlite.insertOrReplace table).filter
        fun d => d.key = key) =
      if key ∈ keys then [summary key (f key)] else table.filter fun d => d.key = key := by
  induction keys generalizing table with
  | nil => simp
  | cons k keys ih =>
    rw [List.map_cons, List.foldl_cons, ih, filter_insertOrReplace]
    have hkey : (summary k (f k)).key = k := rfl
    rw [hkey]
    by_cases hk : k = key
    · subst hk
      simp
    · simp [hk, Ne.symm hk]

theorem groupValues_append (key : String × String × String) (rows rows' : List RawRow) :
    groupValues key (rows ++ rows') = groupValues key rows ++ groupValues key rows' := by
  simp [groupValues]

theorem groupValues_split (key : String × String × String) (p : RawRow → Bool)
    (rows : List RawRow) : (groupValues key rows).Perm
      (groupValues key (rows.filter p) ++ groupValues key (rows.filter fun r => !p r)) := by
  rw [← groupValues_append]
  exact ((List.filter_append_perm p rows).symm.filter _).map _

theorem groupValues_eq_nil {key : String × String × String} {rows : List RawRow} :
    groupValues key rows = [] ↔ key ∉ rows.map RawRow.key := by
  simp only [groupValues, List.map_eq_nil_iff, List.filter_eq_nil_iff, decide_eq_true_eq,
    List.mem_map, not_exists, not_and]

theorem summed_record {key : String × String × String} {db : HistoryDb} {recorded : List RawRow}
    (h : Summed key db recorded) (clock : Nat → Int)
    (batch : List (String × String × ℚ × Option String)) :
    Summed key (db.recordBatch clock batch)
      (recorded ++ (HistoryDb.empty.recordBatch clock batch).raw) := by
  obtain ⟨vals, hperm, hdaily⟩ := h
  refine ⟨vals, ?_, hdaily⟩
  have hraw : (db.recordBatch clock batch).raw =
      db.raw ++ (HistoryDb.empty.recordBatch clock batch).raw := rfl
  rw [hraw, groupValues_append, groupValues_append, ← List.append_assoc]
  exact hperm.append_right _

/-- The summaries of a group after a maintenance run that finds its date retained. -/
theorem groupDaily_maintain {key : String × String × String} (db : HistoryDb) (now : Int)
    (rawDays dailyDays : Nat) (hret : Retained key.1 (.aggregateAndPrune now rawDays dailyDays)) :
    groupDaily key (aggregateAndPrune now rawDays dailyDays db) =
      let old := db.raw.filter fun r =>
        Sqlite.below (Sqlite.datetimeBefore now rawDays) r.timestamp
      if groupValues key old = [] then groupDaily key db
      else [summary key (groupValues key old)] := by
  have hkeep (table : List DailyRow) :
      ((table.filter fun r => !Sqlite.below (Sqlite.dateBefore now dailyDays) r.date).filter
        fun d => d.key = key) = table.filter fun d => d.key = key := by
    rw [List.filter_filter]
    apply List.filter_congr
    intro d _
    by_cases hd : d.key = key
    · have hdate : d.date = key.1 := congrArg Prod.fst hd
      have hret' : Sqlite.below (Sqlite.dateBefore now dailyDays) key.1 = false := hret
      simp [hd, hdate, hret']
    · simp [hd]
  simp only [groupDaily, aggregateAndPrune, aggregate]
  rw [hkeep, filter_summaries]
  by_cases hold : groupValues key (db.raw.filter fun r =>
      Sqlite.below (Sqlite.datetimeBefore now rawDays) r.timestamp) = []
  · rw [if_pos hold, if_neg fun h => groupValues_eq_nil.mp hold (List.mem_dedup.mp h)]
  · have hmem := not_not.mp fun h => hold (groupValues_eq_nil.mpr h)
    rw [if_neg hold, if_pos (List.mem_dedup.mpr hmem)]

theorem noneLate_iff {key : String × String × String} {db : HistoryDb} {now : Int}
    {rawDays dailyDays : Nat} :
    NoneLate key db (.aggregateAndPrune now rawDays dailyDays) ↔
      groupValues key (db.raw.filter fun r =>
        Sqlite.below (Sqlite.datetimeBefore now rawDays) r.timestamp) = [] ∨
      groupDaily key db = [] := by
  simp only [NoneLate, groupValues, groupDaily, List.map_eq_nil_iff, List.filter_eq_nil_iff,
    List.mem_filter, decide_eq_true_eq, ne_eq]
  apply or_congr_left
  constructor
  · rintro h r ⟨hr, hold⟩ hkey
    simp [h r hr hkey] at hold
  · intro h r hr hkey
    by_contra hold
    exact h r ⟨hr, by simpa using hold⟩ hkey

theorem summed_maintain {key : String × String × String} {db : HistoryDb}
    {recorded : List RawRow} (h : Summed key db recorded) {now : Int} {rawDays dailyDays : Nat}
    (hret : Retained key.1 (.aggregateAndPrune now rawDays dailyDays))
    (hlate : NoneLate key db (.aggregateAndPrune now rawDays dailyDays)) :
    Summed key (aggregateAndPrune now rawDays dailyDays db) recorded := by
  obtain ⟨vals, hperm, hdaily⟩ := h
  have hnext := groupDaily_maintain db now rawDays dailyDays hret
  have hsplit := groupValues_split key
    (fun r => Sqlite.below (Sqlite.datetimeBefore now rawDays) r.timestamp) db.raw
  have hraw : (aggregateAndPrune now rawDays dailyDays db).raw =
      db.raw.filter fun r => !Sqlite.below (Sqlite.datetimeBefore now rawDays) r.timestamp := rfl
  by_cases hold : groupValues key (db.raw.filter fun r =>
      Sqlite.below (Sqlite.datetimeBefore now rawDays) r.timestamp) = []
  · simp only [if_pos hold] at hnext
    rw [hold, List.nil_append] at hsplit
    refine ⟨vals, ?_, hnext.trans hdaily⟩
    rw [hraw]
    exact hperm.trans (hsplit.append_left vals)
  · simp only [if_neg hold] at hnext
    have hnone : vals = [] := by
      by_contra hvals
      have := (noneLate_iff.mp hlate).resolve_left hold
      rw [hdaily, if_neg hvals] at this
      cases this
    refine ⟨_, ?_, by rw [hnext, if_neg hold]⟩
    rw [hraw]
    rw [hnone, List.nil_append] at hperm
    exact hperm.trans hsplit

theorem minimum_eq {l : List ℚ} {m : ℚ} (hmem : m ∈ l) (hle : ∀ x ∈ l, m ≤ x) :
    minimum l = m := by
  rw [minimum, List.min?_eq_some_iff.mpr ⟨hmem, hle⟩]
  rfl

theorem maximum_eq {l : List ℚ} {m : ℚ} (hmem : m ∈ l) (hle : ∀ x ∈ l, x ≤ m) :
    maximum l = m := by
  rw [maximum, List.max?_eq_some_iff.mpr ⟨hmem, hle⟩]
  rfl

theorem minimum_spec {l : List ℚ} (h : l ≠ []) : minimum l ∈ l ∧ ∀ x ∈ l, minimum l ≤ x := by
  obtain ⟨m, hm⟩ := Option.isSome_iff_exists.mp (List.isSome_min?_of_ne_nil h)
  have hspec := List.min?_eq_some_iff.mp hm
  rwa [minimum, hm]

theorem maximum_spec {l : List ℚ} (h : l ≠ []) : maximum l ∈ l ∧ ∀ x ∈ l, x ≤ maximum l := by
  obtain ⟨m, hm⟩ := Option.isSome_iff_exists.mp (List.isSome_max?_of_ne_nil h)
  have hspec := List.max?_eq_some_iff.mp hm
  rwa [maximum, hm]

theorem minimum_perm {l l' : List ℚ} (h : l.Perm l') : minimum l = minimum l' := by
  cases l with
  | nil => rw [h.symm.eq_nil]
  | cons x xs =>
    have hne : l' ≠ [] := fun e => by simp [e] at h
    obtain ⟨hmem, hle⟩ := minimum_spec hne
    exact minimum_eq (h.mem_iff.mpr hmem) fun x hx => hle x (h.mem_iff.mp hx)

theorem maximum_perm {l l' : List ℚ} (h : l.Perm l') : maximum l = maximum l' := by
  cases l with
  | nil => rw [h.symm.eq_nil]
  | cons x xs =>
    have hne : l' ≠ [] := fun e => by simp [e] at h
    obtain ⟨hmem, hle⟩ := maximum_spec hne
    exact maximum_eq (h.mem_iff.mpr hmem) fun x hx => hle x (h.mem_iff.mp hx)

/-- Some of the values may be given by their minimum alone. -/
theorem minimum_cons_minimum {vals : List ℚ} (h : vals ≠ []) (rest : List ℚ) :
    minimum (minimum vals :: rest) = minimum (vals ++ rest) := by
  obtain ⟨hmem, hle⟩ := minimum_spec (l := vals ++ rest) (by simp [h])
  obtain ⟨hmem', hle'⟩ := minimum_spec h
  have hvals := hle _ (List.mem_append_left rest hmem')
  apply minimum_eq
  · rcases List.mem_append.mp hmem with hm | hm
    · have heq : minimum (vals ++ rest) = minimum vals := le_antisymm hvals (hle' _ hm)
      rw [heq]
      exact List.mem_cons_self
    · exact List.mem_cons_of_mem _ hm
  · intro x hx
    rcases List.mem_cons.mp hx with rfl | hx
    · exact hvals
    · exact hle x (List.mem_append_right vals hx)

theorem maximum_cons_maximum {vals : List ℚ} (h : vals ≠ []) (rest : List ℚ) :
    maximum (maximum vals :: rest) = maximum (vals ++ rest) := by
  obtain ⟨hmem, hle⟩ := maximum_spec (l := vals ++ rest) (by simp [h])
  obtain ⟨hmem', hle'⟩ := maximum_spec h
  have hvals := hle _ (List.mem_append_left rest hmem')
  apply maximum_eq
  · rcases List.mem_append.mp hmem with hm | hm
    · have heq : maximum (vals ++ rest) = maximum vals := le_antisymm (hle' _ hm) hvals
      rw [heq]
      exact List.mem_cons_self
    · exact List.mem_cons_of_mem _ hm
  · intro x hx
    rcases List.mem_cons.mp hx with rfl | hx
    · exact hvals
    · exact hle x (List.mem_append_right vals hx)

theorem average_mul_length {vals : List ℚ} (h : vals ≠ []) :
    average vals * (vals.length : ℚ) = vals.sum := by
  have hlen : (vals.length : ℚ) ≠ 0 := by
    have := List.length_pos_of_ne_nil h
    exact_mod_cast this.ne'
  rw [average, div_mul_cancel₀ _ hlen]

theorem accounted_of_summed {key : String × String × String} {db : HistoryDb}
    {recorded : List RawRow} (h : Summed key db recorded) : Accounted key db recorded := by
  obtain ⟨vals, hperm, hdaily⟩ := h
  have hlen := hperm.length_eq
  have hsum := hperm.sum_eq
  have hmin := minimum_perm hperm
  have hmax := maximum_perm hperm
  have havg : average (groupValues key recorded) =
      (vals.sum + (groupValues key db.raw).sum) /
        (vals.length + (groupValues key db.raw).length : Nat) := by
    rw [average, hlen, hsum, List.sum_append, List.length_append]
  by_cases hvals : vals = []
  · subst hvals
    rw [if_pos rfl] at hdaily
    constructor
    · rw [hdaily, hlen]
      simp
    · rw [hdaily, hmin]
      rfl
    · rw [hdaily, hmax]
      rfl
    · rw [hdaily, havg]
      simp
  · rw [if_neg hvals] at hdaily
    constructor
    · rw [hdaily, hlen]
      simp [summary]
    · rw [hdaily, hmin]
      exact minimum_cons_minimum hvals _
    · rw [hdaily, hmax]
      exact maximum_cons_maximum hvals _
    · rw [hdaily, havg]
      simp [summary, average_mul_length hvals]

/-- A late sample is lost: the union of the tables has fewer values than were recorded. -/
theorem noneLate_of_accounted {key : String × String × String} {db : HistoryDb}
    {recorded : List RawRow} (h : Summed key db recorded) {now : Int} {rawDays dailyDays : Nat}
    (hret : Retained key.1 (.aggregateAndPrune now rawDays dailyDays))
    (hnext : Accounted key (aggregateAndPrune now rawDays dailyDays db) recorded) :
    NoneLate key db (.aggregateAndPrune now rawDays dailyDays) := by
  obtain ⟨vals, hperm, hdaily⟩ := h
  rw [noneLate_iff]
  by_contra hlate
  obtain ⟨hold, hsummary⟩ := not_or.mp hlate
  have hvals : vals ≠ [] := fun hvals => hsummary (by rw [hdaily, if_pos hvals])
  have hcount := hnext.count
  have hraw : (aggregateAndPrune now rawDays dailyDays db).raw =
      db.raw.filter fun r => !Sqlite.below (Sqlite.datetimeBefore now rawDays) r.timestamp := rfl
  have hsplit := (groupValues_split key
    (fun r => Sqlite.below (Sqlite.datetimeBefore now rawDays) r.timestamp) db.raw).length_eq
  have htotal := hperm.length_eq
  rw [groupDaily_maintain db now rawDays dailyDays hret, hraw] at hcount
  simp only [if_neg hold, List.map_cons, List.map_nil, List.sum_cons, List.sum_nil, summary]
    at hcount
  have hpos := List.length_pos_of_ne_nil hvals
  rw [List.length_append] at hsplit htotal
  omega

/-- The tables together with all that has been recorded. -/
def track (s : HistoryDb × List RawRow) (op : HistoryOp) : (HistoryDb × List RawRow) × List Unit :=
  (((s.1.step op).1, s.2 ++ (s.1.step op).2), [])

/-- The tables after a run, and what it has recorded. -/
def tracked (ops : List HistoryOp) : HistoryDb × List RawRow :=
  Machine.run track (HistoryDb.empty, []) ops

theorem summed_track {key : String × String × String} {s : HistoryDb × List RawRow}
    {op : HistoryOp} (h : Summed key s.1 s.2) (hret : Retained key.1 op)
    (hlate : NoneLate key s.1 op) : Summed key (track s op).1.1 (track s op).1.2 := by
  cases op with
  | recordBatch clock batch => exact summed_record h clock batch
  | aggregateAndPrune now rawDays dailyDays =>
    have := summed_maintain h hret hlate
    simpa [track, step] using this

theorem noneLate_of_track {key : String × String × String} {s : HistoryDb × List RawRow}
    {op : HistoryOp} (h : Summed key s.1 s.2) (hret : Retained key.1 op)
    (hnext : Accounted key (track s op).1.1 (track s op).1.2) : NoneLate key s.1 op := by
  cases op with
  | recordBatch clock batch => trivial
  | aggregateAndPrune now rawDays dailyDays =>
    apply noneLate_of_accounted h hret
    simpa [track, step] using hnext

/-- A raw row is shown as it is or, in a coarser resolution, in the row of its bucket. -/
def ShowsRaw [HistoryLibs] (data : List DataRow) (resolution : Option F64) (r : RawRow) : Prop :=
  match bucketFormat resolution with
  | none => Shows data (r.timestamp, Json.ofF64 r.value)
  | some format => ∀ ts, HistoryLibs.strftime format r.timestamp = some ts →
      ∃ v, Shows data (ts, v)

def ShowsDaily (data : List DataRow) (method : AggregateMethod) (d : DailyRow) : Prop :=
  Shows data (d.date ++ "T00:00:00Z", Json.ofF64 (dailyColumn method d))

/-- Both tiers of a path in a range, one after the other. -/
def tierValues [HistoryLibs] (db : HistoryDb) (context f t fromDate toDate : String)
    (resolution : Option F64) (spec : PathSpec) : List (String × Json) :=
  queryRawValues db context spec.path f t resolution spec.method ++
    (Sqlite.orderBy DailyRow.date (dailyRows db context spec.path fromDate toDate)).map fun d =>
      (d.date ++ "T00:00:00Z", Json.ofF64 (dailyColumn spec.method d))

/-- Where only one of the tiers has rows in the range, a query reads both. -/
theorem queryPathValues_tiers [HistoryLibs] {db : HistoryDb} {context f t fromDate toDate : String}
    (hf : datePrefix f = .ok fromDate) (ht : datePrefix t = .ok toDate) {spec : PathSpec}
    (hone : rangeRows db context spec.path f t = [] ∨
      dailyRows db context spec.path fromDate toDate = []) (resolution : Option F64) :
    queryPathValues db context spec.path f t resolution spec.method =
      .ok (tierValues db context f t fromDate toDate resolution spec) := by
  rw [queryPathValues, tierValues]
  split
  · next h =>
    have hraw : rangeRows db context spec.path f t ≠ [] := List.ne_nil_of_length_pos h
    rw [hone.resolve_left hraw]
    simp [Sqlite.orderBy]
  · next h =>
    have hnil : rangeRows db context spec.path f t = [] :=
      List.eq_nil_of_length_eq_zero (by omega)
    have hraw : queryRawValues db context spec.path f t resolution spec.method = [] := by
      rw [queryRawValues, hnil]
      cases bucketFormat resolution with
      | none => rfl
      | some format => rfl
    rw [hraw, queryDailyValues, hf, ht]
    rfl

theorem showsRaw_of_values [HistoryLibs] {db : HistoryDb} {context f t : String}
    {resolution : Option F64} {spec : PathSpec} {data : List DataRow}
    (h : ∀ e ∈ queryRawValues db context spec.path f t resolution spec.method, Shows data e)
    {r : RawRow} (hr : r ∈ rangeRows db context spec.path f t) : ShowsRaw data resolution r := by
  have hsorted : r ∈ Sqlite.orderBy RawRow.timestamp (rangeRows db context spec.path f t) :=
    (orderBy_perm _ _).mem_iff.mpr hr
  rw [queryRawValues] at h
  unfold ShowsRaw
  cases hformat : bucketFormat resolution with
  | none =>
    rw [hformat] at h
    exact h _ (List.mem_map_of_mem (f := fun r : RawRow => (r.timestamp, Json.ofF64 r.value)) hsorted)
  | some format =>
    rw [hformat] at h
    intro ts hts
    refine ⟨_, h _ (List.mem_map.mpr ⟨ts, ?_, rfl⟩)⟩
    apply (orderBy_perm _ _).mem_iff.mpr
    rw [List.mem_dedup, List.mem_map]
    exact ⟨(ts, r.value), List.mem_filterMap.mpr ⟨r, hsorted, by rw [hts]; rfl⟩, rfl⟩

theorem accounted_iff_noneLate {key : String × String × String} {ops : List HistoryOp}
    (hret : ∀ op ∈ ops, Retained key.1 op) :
    (∀ fs, fs <+: ops → Accounted key (tracked fs).1 (tracked fs).2) ↔
      Machine.Meets track (fun s op => NoneLate key s.1 op) (HistoryDb.empty, []) ops := by
  have hstart : Summed key HistoryDb.empty [] := ⟨[], List.Perm.refl _, rfl⟩
  have hinv (s : HistoryDb × List RawRow) (op : HistoryOp) (hs : Summed key s.1 s.2)
      (hop : Retained key.1 op) (_ : Accounted key s.1 s.2)
      (hnext : Accounted key (track s op).1.1 (track s op).1.2) :
      Summed key (track s op).1.1 (track s op).1.2 :=
    summed_track hs hop (noneLate_of_track hs hop hnext)
  have hgood (s : HistoryDb × List RawRow) (op : HistoryOp) (hs : Summed key s.1 s.2)
      (hop : Retained key.1 op) (_ : Accounted key s.1 s.2) :
      Accounted key (track s op).1.1 (track s op).1.2 ↔ NoneLate key s.1 op :=
    ⟨noneLate_of_track hs hop, fun hlate => accounted_of_summed (summed_track hs hop hlate)⟩
  exact Machine.always_iff_meets hinv hgood hstart (accounted_of_summed hstart) hret

theorem values_show_tiers [FloatMath] [FloatParse] [HistoryLibs] {now : Int} {db : HistoryDb}
    {req : ValuesRequest} {resp : ValuesResponse} {f t fromDate toDate : String}
    (hrange : resolveTimeRange now req.fromTs req.toTs req.duration = .ok (f, t))
    (hf : datePrefix f = .ok fromDate) (ht : datePrefix t = .ok toDate)
    (hresp : getValues now db req = .ok resp)
    (hone : ∀ spec ∈ req.pathSpecs, rangeRows db req.context spec.path f t = [] ∨
      dailyRows db req.context spec.path fromDate toDate = []) :
    ∀ spec ∈ req.pathSpecs,
      (∀ r ∈ rangeRows db req.context spec.path f t,
        ShowsRaw resp.data (resolutionSecs req.resolution f t) r) ∧
      ∀ d ∈ dailyRows db req.context spec.path fromDate toDate,
        ShowsDaily resp.data spec.method d := by
  set resolution := resolutionSecs req.resolution f t with hres
  set tiers := tierValues db req.context f t fromDate toDate resolution with htiers
  have hdata : resp.data =
      Sqlite.orderBy DataRow.timestamp (mergeAll (req.pathSpecs.map tiers) 0 []) := by
    rw [getValues, hrange, Fallible.bind_ok] at hresp
    simp only [← hres] at hresp
    rw [collectValues_eq fun spec hspec => queryPathValues_tiers hf ht (hone spec hspec) resolution]
      at hresp
    cases hresp
    rfl
  intro spec hspec
  have hshows (e : String × Json) (he : e ∈ tiers spec) : Shows resp.data e := by
    obtain ⟨row, hrow, h⟩ :=
      shows_mergeAll (n := 0) (List.mem_map_of_mem (f := tiers) hspec) he []
    rw [hdata]
    exact ⟨row, (orderBy_perm _ _).mem_iff.mpr hrow, h⟩
  constructor
  · intro r hr
    exact showsRaw_of_values (fun e he => hshows e (List.mem_append_left _ he)) hr
  · intro d hd
    apply hshows
    apply List.mem_append_right
    rw [List.mem_map]
    exact ⟨d, (orderBy_perm _ _).mem_iff.mpr hd, rfl⟩

section
attribute [local instance] FloatMath.exact FloatParse.digits HistoryLibs.unused

abbrev speedKey : String × String × String :=
  ("2026-03-01", "vessels.self", "navigation.speedOverGround")

/-- A speed recorded in March 2026. -/
abbrev speedAt (time : String) (value : ℚ) : HistoryOp :=
  .recordBatch (fun _ => 0)
    [("vessels.self", "navigation.speedOverGround", value, some ("2026-03-" ++ time ++ ":00+00:00"))]

/-- Maintenance on 10 March 2026. -/
abbrev maintenance : HistoryOp :=
  .aggregateAndPrune (Calendar.Date.number ⟨2026, 3, 10⟩ * 1440 * Rfc3339.minute) 3 90

abbrev speedRequest (t : String) : ValuesRequest where
  context := "vessels.self"
  pathSpecs := [{ path := "navigation.speedOverGround", method := .average }]
  fromTs := some "2026-03-01T00:00:00Z"
  toTs := some t
  duration := none
  resolution := some "1000"

abbrev speedResponse (t : String) (rows : List DataRow) : ValuesResponse where
  context := "vessels.self"
  fromTs := "2026-03-01T00:00:00Z"
  toTs := t
  values := [("navigation.speedOverGround", "average")]
  data := rows

end

end SignalK

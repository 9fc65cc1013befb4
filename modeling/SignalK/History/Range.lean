import Mathlib.Data.Rat.Floor
import SignalK.History.Columns

/-! The time range of a query. The provider compares the texts of a request with the
texts that ingestion has written; the texts of ingestion are in the order of their
instants, those of a request need not be. -/
namespace SignalK
open Rfc3339 (utc boundText instantOf FourDigit)
open Provider

/-- A value with its time, which is written in UTC. -/
structure Sample where
  context : String
  path : String
  value : ℚ
  instant : Int
  fourDigit : FourDigit instant

namespace Sample

def entry (s : Sample) : String × String × ℚ × Option String :=
  (s.context, s.path, s.value, some (utc s.instant))

def rawRow (s : Sample) : RawRow where
  timestamp := utc s.instant
  context := s.context
  path := s.path
  value := s.value

def row (s : Sample) : String × Json :=
  (utc s.instant, Json.ofF64 s.value)

/-- It lies in a range of instants. -/
def In (a b : ℚ) (s : Sample) : Prop :=
  a ≤ (s.instant : ℚ) ∧ (s.instant : ℚ) ≤ b

instance (a b : ℚ) (s : Sample) : Decidable (s.In a b) := by
  unfold In
  infer_instance

/-- Its text lies in a range of texts. -/
def TextIn (f t : String) (s : Sample) : Prop :=
  Text.Le f (utc s.instant) ∧ Text.Le (utc s.instant) t

instance (f t : String) (s : Sample) : Decidable (s.TextIn f t) := by
  unfold TextIn
  infer_instance

end Sample

/-- The tables after batches of samples, in whatever order they arrive. -/
def recorded (clock : Nat → Int) (batches : List (List Sample)) : HistoryDb :=
  batches.foldl (fun db batch => db.recordBatch clock (batch.map Sample.entry)) HistoryDb.empty

/-- The samples of a path, in the order of their arrival. -/
def series (batches : List (List Sample)) (context path : String) : List Sample :=
  batches.flatten.filter fun s => s.context = context ∧ s.path = path

/-- A column shows exactly the samples of a range of instants, in the order of time. -/
def Chronological (samples : List Sample) (a b : ℚ) (c : Nat) (data : List DataRow) : Prop :=
  ∃ shown : List Sample, shown.Perm (samples.filter fun s => s.In a b) ∧
    shown.Pairwise (fun s s' => s.instant ≤ s'.instant) ∧ column c data = shown.map Sample.row

/-- The first text of a range of instants, and the last one. -/
def lowerText (a : ℚ) : String := boundText ⌈a⌉
def upperText (b : ℚ) : String := boundText ⌊b⌋

theorem textIn_iff (a b : ℚ) (s : Sample) :
    s.TextIn (lowerText a) (upperText b) ↔ s.In a b := by
  have hlow : Text.Le (lowerText a) (utc s.instant) ↔ a ≤ (s.instant : ℚ) :=
    (Rfc3339.boundText_le_iff s.fourDigit _).trans Int.ceil_le
  have hup : Text.Le (utc s.instant) (upperText b) ↔ (s.instant : ℚ) ≤ b :=
    (Rfc3339.le_boundText_iff s.fourDigit _).trans Int.le_floor
  exact and_congr hlow hup

theorem recordBatch_samples (clock : Nat → Int) (db : HistoryDb) (batch : List Sample) :
    db.recordBatch clock (batch.map Sample.entry) =
      { db with raw := db.raw ++ batch.map Sample.rawRow } := by
  rw [HistoryDb.recordBatch]
  congr 2
  apply List.ext_getElem?
  intro k
  rw [List.getElem?_mapIdx, List.getElem?_map, List.getElem?_map]
  cases batch[k]? with
  | none => rfl
  | some s => simp [Sample.entry, Sample.rawRow, Rfc3339.utc_ne_empty s.fourDigit]

theorem recorded_eq (clock : Nat → Int) (batches : List (List Sample)) :
    recorded clock batches = { raw := batches.flatten.map Sample.rawRow, daily := [] } := by
  have hfold (db : HistoryDb) :
      batches.foldl (fun db batch => db.recordBatch clock (batch.map Sample.entry)) db =
        { db with raw := db.raw ++ batches.flatten.map Sample.rawRow } := by
    induction batches generalizing db with
    | nil => simp
    | cons batch batches ih =>
      rw [List.foldl_cons, recordBatch_samples, ih]
      simp
  rw [recorded, hfold]
  rfl

theorem rangeRows_recorded (clock : Nat → Int) (batches : List (List Sample))
    (context path f t : String) :
    rangeRows (recorded clock batches) context path f t =
      ((series batches context path).filter fun s => s.TextIn f t).map Sample.rawRow := by
  rw [recorded_eq, rangeRows, List.filter_map, series, List.filter_filter]
  congr 1
  apply List.filter_congr
  intro s _
  rw [Bool.eq_iff_iff]
  simp only [Function.comp, Bool.and_eq_true, decide_eq_true_eq]
  constructor
  · rintro ⟨hcontext, hpath, hf, ht⟩
    exact ⟨⟨hf, ht⟩, hcontext, hpath⟩
  · rintro ⟨⟨hf, ht⟩, hcontext, hpath⟩
    exact ⟨hcontext, hpath, hf, ht⟩

/-- The rows of a path in a range of texts, as they are fetched. -/
def fetched (db : HistoryDb) (context f t : String) (spec : PathSpec) : List (String × Json) :=
  (Sqlite.orderBy RawRow.timestamp (rangeRows db context spec.path f t)).map fun r =>
    (r.timestamp, Json.ofF64 r.value)

theorem orderBy_sorted {α : Type} (f : α → String) (rows : List α) :
    (Sqlite.orderBy f rows).Pairwise fun a b => Text.Le (f a) (f b) := by
  have : Std.Total fun a b : α => Text.Le (f a) (f b) := ⟨fun a b => le_total _ _⟩
  have : IsTrans α fun a b => Text.Le (f a) (f b) := ⟨fun a b c => le_trans⟩
  exact List.pairwise_insertionSort _ rows

theorem fetched_perm (clock : Nat → Int) (batches : List (List Sample)) (context f t : String)
    (spec : PathSpec) : (fetched (recorded clock batches) context f t spec).Perm
      (((series batches context spec.path).filter fun s => s.TextIn f t).map Sample.row) := by
  rw [fetched, rangeRows_recorded]
  refine ((orderBy_perm _ _).map _).trans ?_
  rw [List.map_map]
  rfl

theorem ofF64_ne_null (x : ℚ) : Json.ofF64 x ≠ .null := by
  intro h
  cases h

theorem fetched_ne_null (db : HistoryDb) (context f t : String) (spec : PathSpec) :
    ∀ e ∈ fetched db context f t spec, e.2 ≠ .null := by
  intro e he
  obtain ⟨r, _, rfl⟩ := List.mem_map.mp he
  exact ofF64_ne_null r.value

theorem datePrefix_valid {s : String} {i : ℚ} (h : instantOf s = some i) :
    ∃ d, datePrefix s = .ok d := by
  obtain ⟨fields, hfields, _⟩ := Option.map_eq_some_iff.mp h
  obtain ⟨hlen, hascii⟩ := Rfc3339.ascii_of_fieldsOf hfields
  exact ⟨_, datePrefix_of_ascii hlen hascii⟩

section
variable [HistoryLibs]

theorem queryPathValues_recorded (clock : Nat → Int) (batches : List (List Sample))
    (context : String) {f t : String} {a b : ℚ} (hf : instantOf f = some a)
    (ht : instantOf t = some b) {resolution : Option F64} (hfull : bucketFormat resolution = none)
    (spec : PathSpec) :
    queryPathValues (recorded clock batches) context spec.path f t resolution spec.method =
      .ok (fetched (recorded clock batches) context f t spec) := by
  rw [queryPathValues]
  split
  · rw [queryRawValues, hfull]
    rfl
  · next hlen =>
    have hnil : rangeRows (recorded clock batches) context spec.path f t = [] :=
      List.eq_nil_of_length_eq_zero (by omega)
    have hdaily (d d' : String) :
        dailyRows (recorded clock batches) context spec.path d d' = [] := by
      rw [dailyRows, recorded_eq]
      rfl
    obtain ⟨d, hd⟩ := datePrefix_valid hf
    obtain ⟨d', hd'⟩ := datePrefix_valid ht
    simp only [queryDailyValues, hd, hd', Fallible.bind_ok, hdaily, fetched, hnil]
    rfl

end

theorem cellsAt_row_filter (samples : List Sample) (p : Sample → Bool) (t : String)
    (hp : ∀ s ∈ samples, ∀ s' ∈ samples, s.instant = s'.instant → p s = p s') :
    cellsAt t ((samples.filter p).map Sample.row) = [] ∨
      cellsAt t ((samples.filter p).map Sample.row) = cellsAt t (samples.map Sample.row) := by
  have hcells (l : List Sample) : cellsAt t (l.map Sample.row) =
      (l.filter fun s => utc s.instant = t).map fun s => Json.ofF64 s.value := by
    induction l with
    | nil => rfl
    | cons s l ih =>
      simp only [cellsAt] at ih ⊢
      by_cases hs : utc s.instant = t
      · simp [Sample.row, hs, ih]
      · simp [Sample.row, hs, ih]
  rw [hcells, hcells, List.filter_filter]
  by_cases h : ∃ s ∈ samples, utc s.instant = t ∧ p s = true
  · right
    obtain ⟨s, hs, hst, hps⟩ := h
    apply congrArg
    apply List.filter_congr
    intro s' hs'
    by_cases ht : utc s'.instant = t
    · have hsame := Rfc3339.utc_injective s.fourDigit s'.fourDigit (hst.trans ht.symm)
      rw [← hp s hs s' hs' hsame, hps, Bool.and_true]
    · simp [ht]
  · left
    rw [List.map_eq_nil_iff, List.filter_eq_nil_iff]
    intro s hs
    simp only [Bool.and_eq_true, decide_eq_true_eq]
    intro hboth
    exact h ⟨s, hs, hboth⟩

/-- In rows sorted by their texts a column is chronological when it holds the samples. -/
theorem chronological_iff {data : List DataRow}
    (hsorted : data.Pairwise fun r r' => Text.Le r.timestamp r'.timestamp)
    (samples : List Sample) (a b : ℚ) (c : Nat) :
    Chronological samples a b c data ↔
      (column c data).Perm ((samples.filter fun s => s.In a b).map Sample.row) := by
  constructor
  · rintro ⟨shown, hperm, _, hcol⟩
    rw [hcol]
    exact hperm.map _
  · intro h
    have hcomp : Relation.Comp (fun l l' => l = List.map Sample.row l') List.Perm
        (column c data) (samples.filter fun s => s.In a b) := by
      rw [List.eq_map_comp_perm]
      exact h
    obtain ⟨shown, hcol, hperm⟩ := hcomp
    have hcolumn : (column c data).Pairwise fun e e' => Text.Le e.1 e'.1 := by
      apply List.Pairwise.filterMap _ _ hsorted
      intro r r' hrr e he e' he'
      obtain ⟨v, _, rfl⟩ := Option.map_eq_some_iff.mp he
      obtain ⟨v', _, rfl⟩ := Option.map_eq_some_iff.mp he'
      exact hrr
    rw [hcol, List.pairwise_map] at hcolumn
    refine ⟨shown, hperm, ?_, hcol⟩
    exact hcolumn.imp fun {s s'} hle => (Rfc3339.utc_le_iff s.fourDigit s'.fourDigit).mp hle

theorem row_filter_perm_iff {samples : List Sample} {p q : Sample → Bool}
    (hp : ∀ s s' : Sample, s.instant = s'.instant → p s = p s')
    (hq : ∀ s s' : Sample, s.instant = s'.instant → q s = q s') :
    ((samples.filter p).map Sample.row).Perm ((samples.filter q).map Sample.row) ↔
      ∀ s ∈ samples, p s = q s := by
  have honly {p q : Sample → Bool} (hq : ∀ s s' : Sample, s.instant = s'.instant → q s = q s')
      (h : ((samples.filter p).map Sample.row).Perm ((samples.filter q).map Sample.row))
      {s : Sample} (hs : s ∈ samples) (hps : p s = true) : q s = true := by
    have hrow : s.row ∈ (samples.filter q).map Sample.row :=
      h.mem_iff.mp (List.mem_map_of_mem (List.mem_filter.mpr ⟨hs, hps⟩))
    obtain ⟨s', hs', heq⟩ := List.mem_map.mp hrow
    have hinst := Rfc3339.utc_injective s'.fourDigit s.fourDigit (congrArg Prod.fst heq)
    rw [← hq s' s hinst]
    exact (List.mem_filter.mp hs').2
  constructor
  · intro h s hs
    rw [Bool.eq_iff_iff]
    exact ⟨honly hq h hs, honly hp h.symm hs⟩
  · intro h
    rw [List.filter_congr h]

theorem nodup_instants_iff (samples : List Sample) :
    (∀ t, (cellsAt t (samples.map Sample.row)).length ≤ 1) ↔
      (samples.map Sample.instant).Nodup := by
  have hcount (t : String) : (cellsAt t (samples.map Sample.row)).length =
      (samples.map fun s => utc s.instant).count t := by
    rw [cellsAt, List.length_map, List.filter_map, List.length_map, List.count,
      List.countP_map, List.countP_eq_length_filter]
    congr 1
  have htexts : (samples.map fun s => utc s.instant).Nodup ↔
      (samples.map Sample.instant).Nodup := by
    simp only [List.Nodup, List.pairwise_map]
    constructor
    · intro h
      exact h.imp fun hne heq => hne (congrArg utc heq)
    · intro h
      exact h.imp fun {s s'} hne heq => hne (Rfc3339.utc_injective s.fourDigit s'.fourDigit heq)
  rw [← htexts, List.nodup_iff_count_le_one]
  exact forall_congr' fun t => by rw [hcount]

/-- A query shows the samples of its range exactly if the texts of its bounds take the same
samples as the texts of their instants in UTC do. Where several paths are merged, the later
ones must not have two samples at one instant either. -/
theorem ranges_chronological_iff [FloatMath] [FloatParse] [HistoryLibs] (clock : Nat → Int)
    (now : Int) (batches : List (List Sample)) (req : ValuesRequest) (f t : String) (a b : ℚ)
    (hrange : resolveTimeRange now req.fromTs req.toTs req.duration = .ok (f, t))
    (hf : instantOf f = some a) (ht : instantOf t = some b)
    (hfull : bucketFormat (resolutionSecs req.resolution f t) = none) :
    (∃ resp, getValues now (recorded clock batches) req = .ok resp ∧
      ∀ c spec, req.pathSpecs[c]? = some spec →
        Chronological (series batches req.context spec.path) a b c resp.data) ↔
    ∀ c spec, req.pathSpecs[c]? = some spec →
      (∀ s ∈ series batches req.context spec.path,
        s.TextIn f t ↔ s.TextIn (lowerText a) (upperText b)) ∧
      (0 < c → (((series batches req.context spec.path).filter
        fun s => s.In a b).map Sample.instant).Nodup) := by
  set db := recorded clock batches with hdb
  set merged := mergeAll (req.pathSpecs.map (fetched db req.context f t)) 0 [] with hmerged
  have hvalues : getValues now db req = .ok {
      context := req.context
      fromTs := f
      toTs := t
      values := req.pathSpecs.map fun spec => (spec.path, spec.method.asStr)
      data := Sqlite.orderBy DataRow.timestamp merged } := by
    rw [getValues, hrange, Fallible.bind_ok]
    simp only
    rw [collectValues_eq fun spec _ =>
      queryPathValues_recorded clock batches req.context hf ht hfull spec]
    rfl
  have hcolumns (c : Nat) (spec : PathSpec) :
      Chronological (series batches req.context spec.path) a b c
          (Sqlite.orderBy DataRow.timestamp merged) ↔
        (column c merged).Perm
          (((series batches req.context spec.path).filter fun s => s.In a b).map Sample.row) := by
    rw [chronological_iff (orderBy_sorted DataRow.timestamp merged)]
    have hperm := column_perm (orderBy_perm DataRow.timestamp merged) c
    exact ⟨hperm.symm.trans, hperm.trans⟩
  have hexact : (∃ resp, getValues now db req = .ok resp ∧
      ∀ c spec, req.pathSpecs[c]? = some spec →
        Chronological (series batches req.context spec.path) a b c resp.data) ↔
      ∀ c spec, req.pathSpecs[c]? = some spec → (column c merged).Perm
        (((series batches req.context spec.path).filter fun s => s.In a b).map Sample.row) := by
    rw [hvalues]
    constructor
    · rintro ⟨resp, hresp, h⟩ c spec hc
      cases hresp
      exact (hcolumns c spec).mp (h c spec hc)
    · intro h
      exact ⟨_, rfl, fun c spec hc => (hcolumns c spec).mpr (h c spec hc)⟩
  have hIn (s s' : Sample) (h : s.instant = s'.instant) :
      decide (s.In a b) = decide (s'.In a b) := by simp only [Sample.In, h]
  have hTextIn (s s' : Sample) (h : s.instant = s'.instant) :
      decide (s.TextIn f t) = decide (s'.TextIn f t) := by simp only [Sample.TextIn, h]
  have hfetched (spec : PathSpec) := fetched_perm clock batches req.context f t spec
  rw [hexact, columns_iff
    (fun spec t => cellsAt t ((series batches req.context spec.path).map Sample.row))
    (fetched_ne_null db req.context f t)]
  · apply forall_congr'; intro c
    apply forall_congr'; intro spec
    apply forall_congr'; intro _
    apply and_congr
    · rw [(hfetched spec).congr_left, row_filter_perm_iff hTextIn hIn]
      apply forall_congr'; intro s
      apply forall_congr'; intro _
      rw [textIn_iff, decide_eq_decide]
    · rw [nodup_instants_iff]
  · intro spec t'
    have hperm := perm_iff_cellsAt.mp (hfetched spec) t'
    rcases cellsAt_row_filter (series batches req.context spec.path)
      (fun s => s.TextIn f t) t' fun s _ s' _ => hTextIn s s' with h | h
    · left
      rwa [h, List.perm_nil] at hperm
    · right
      rwa [h] at hperm
  · intro spec t'
    rcases cellsAt_row_filter (series batches req.context spec.path)
      (fun s => s.In a b) t' fun s _ s' _ => hIn s s' with h | h
    · exact Or.inl h
    · exact Or.inr (List.Perm.of_eq h)

/-- Bounds that the server itself has written are always right. -/
theorem textIn_utc {i k : Int} (hi : FourDigit i) (hk : FourDigit k) (s : Sample) :
    s.TextIn (utc i) (utc k) ↔ s.TextIn (lowerText i) (upperText k) := by
  rw [textIn_iff]
  refine and_congr ?_ ?_
  · exact (Rfc3339.utc_le_iff hi s.fourDigit).trans (by simp)
  · exact (Rfc3339.utc_le_iff s.fourDigit hk).trans (by simp)

section
attribute [local instance] FloatMath.exact FloatParse.digits HistoryLibs.unused

/-- 2026-03-02, twelve o'clock -/
abbrev noon : Int :=
  (Calendar.Date.number ⟨2026, 3, 2⟩ * 1440 + 720) * Rfc3339.minute

abbrev noonSample : Sample where
  context := "vessels.self"
  path := "navigation.speedOverGround"
  value := 5
  instant := noon
  fourDigit := by decide

abbrev noonRequest (f t : String) : ValuesRequest where
  context := "vessels.self"
  pathSpecs := [{ path := "navigation.speedOverGround", method := .average }]
  fromTs := some f
  toTs := some t
  duration := none
  resolution := none

/-- With bounds in the form of ingestion the sample is found. -/
theorem ranges_chronological_offset :
    ∃ resp, getValues 0 (recorded (fun _ => 0) [[noonSample]])
        (noonRequest "2026-03-02T12:00:00+00:00" "2026-03-02T13:00:00+00:00") = .ok resp ∧
      ∀ c spec, (noonRequest "" "").pathSpecs[c]? = some spec →
        Chronological (series [[noonSample]] "vessels.self" spec.path) noon
          (noon + 60 * Rfc3339.minute : Int) c resp.data :=
  (ranges_chronological_iff (fun _ => 0) 0 [[noonSample]]
    (noonRequest "2026-03-02T12:00:00+00:00" "2026-03-02T13:00:00+00:00")
    "2026-03-02T12:00:00+00:00" "2026-03-02T13:00:00+00:00" noon
    (noon + 60 * Rfc3339.minute : Int) rfl (by decide +kernel) (by decide +kernel)
    (by decide +kernel)).mpr (by
      intro c spec hc
      match c with
      | 0 => cases hc; exact ⟨by decide +kernel, by decide⟩
      | c + 1 => cases hc)

/-- The sample of the very second in which a range begins is missed when the bound is
written with a `Z`. -/
theorem zulu_bound_misses_sample :
    ¬ ∃ resp, getValues 0 (recorded (fun _ => 0) [[noonSample]])
        (noonRequest "2026-03-02T12:00:00Z" "2026-03-02T13:00:00Z") = .ok resp ∧
      ∀ c spec, (noonRequest "" "").pathSpecs[c]? = some spec →
        Chronological (series [[noonSample]] "vessels.self" spec.path) noon
          (noon + 60 * Rfc3339.minute : Int) c resp.data := by
  rintro ⟨resp, hresp, h⟩
  have hempty : getValues 0 (recorded (fun _ => 0) [[noonSample]])
      (noonRequest "2026-03-02T12:00:00Z" "2026-03-02T13:00:00Z") = .ok {
        context := "vessels.self"
        fromTs := "2026-03-02T12:00:00Z"
        toTs := "2026-03-02T13:00:00Z"
        values := [("navigation.speedOverGround", "average")]
        data := [] } := by decide +kernel
  rw [hempty] at hresp
  cases hresp
  obtain ⟨shown, hperm, _, hcol⟩ := h 0 _ rfl
  have hnil : shown = [] := by simpa [column] using hcol.symm
  rw [hnil, List.nil_perm] at hperm
  revert hperm
  decide +kernel

end

end SignalK

import SignalK.History.Aggregation
import SignalK.History.Range
import SignalK.Lib.Groups

/-! What a bucketed answer says of the samples of a path. The resolution is rounded down to
a minute, an hour or a day, below a minute nothing is summed up at all, and the first and
the last value are approximated by the smallest and the largest. -/
namespace SignalK.Buckets
open Rfc3339 (utc FourDigit)
open Provider Groups

inductive Bucket where
  | minute
  | hour
  | day
  deriving DecidableEq

namespace Bucket

def format : Bucket → String
  | minute => "%Y-%m-%dT%H:%M:00Z"
  | hour => "%Y-%m-%dT%H:00:00Z"
  | day => "%Y-%m-%dT00:00:00Z"

def minutes : Bucket → Int
  | minute => 1
  | hour => 60
  | day => 1440

/-- Which bucket an instant is in, counted from the start of year 0. -/
def index (b : Bucket) (t : Int) : Int :=
  Rfc3339.Instant.minutes t / b.minutes

/-- The first instant of the bucket. -/
def start (b : Bucket) (t : Int) : Int :=
  b.index t * b.minutes * Rfc3339.minute

/-- The start of the bucket as SQLite writes it. -/
def text (b : Bucket) (t : Int) : String :=
  String.ofList (Rfc3339.dateText (Calendar.date (Rfc3339.Instant.day (b.start t))) ++
    'T' :: Rfc3339.clockText (b.start t) ++ ['Z'])

theorem fourDigit_start (b : Bucket) {t : Int} (h : FourDigit t) : FourDigit (b.start t) := by
  have hzero : Rfc3339.startOfYear 0 = 0 := by decide
  obtain ⟨hlow, hhigh⟩ := h
  rw [hzero] at hlow
  rw [FourDigit, hzero]
  have hle : 0 ≤ b.start t ∧ b.start t ≤ t := by
    cases b
    all_goals
      simp only [start, index, minutes, Rfc3339.Instant.minutes, Rfc3339.minute]
      omega
  omega

/-- Two buckets are the same when their starts are written alike. -/
theorem text_eq_iff (b : Bucket) {s t : Int} (hs : FourDigit s) (ht : FourDigit t) :
    b.text s = b.text t ↔ b.index s = b.index t := by
  have hutc (t : Int) : ∃ cs, b.text t = String.ofList (cs ++ ['Z']) ∧
      utc (b.start t) = String.ofList (cs ++ Rfc3339.offsetText 0) := by
    have hnano : Rfc3339.Instant.nano (b.start t) = 0 := by
      simp only [Rfc3339.Instant.nano, start, Rfc3339.minute]
      omega
    refine ⟨_, rfl, ?_⟩
    simp [utc, Rfc3339.toRfc3339, Rfc3339.text, hnano, Rfc3339.fraction]
  constructor
  · intro h
    obtain ⟨cs, hcs, hutcs⟩ := hutc s
    obtain ⟨ds, hds, hutcd⟩ := hutc t
    have hlist : cs = ds := by
      rw [hcs, hds, String.ofList_inj] at h
      exact List.append_cancel_right h
    have hstart : b.start s = b.start t := by
      apply Rfc3339.utc_injective (b.fourDigit_start hs) (b.fourDigit_start ht)
      rw [hutcs, hutcd, hlist]
    cases b
    all_goals
      simp only [start, minutes, Rfc3339.minute] at hstart
      omega
  · intro h
    simp only [text, start, h]

end Bucket

/-- What SQLite's `strftime` makes of the texts of samples: it knows no leap seconds. -/
def SqliteTimes [HistoryLibs] (samples : List Sample) : Prop :=
  ∀ b : Bucket, ∀ s ∈ samples, HistoryLibs.strftime b.format (utc s.instant) =
    if Rfc3339.Instant.second s.instant < 60 then some (b.text s.instant) else none

/-- The bucket that a resolution comes to. -/
def bucketOf (res : F64) : Option Bucket :=
  if (F64.finite 86400).le res then some .day
  else if (F64.finite 3600).le res then some .hour
  else if (F64.finite 60).le res then some .minute
  else none

theorem bucketFormat_some (res : F64) :
    bucketFormat (some res) = (bucketOf res).map Bucket.format := by
  simp only [bucketFormat, bucketOf]
  split_ifs <;> rfl

/-- The samples that a query of the table finds. -/
def selected (batches : List (List Sample)) (context path f t : String) : List Sample :=
  (series batches context path).filter fun s => s.TextIn f t

/-- The samples in the order of their texts, which is that of time. -/
def inOrder (samples : List Sample) : List Sample :=
  Sqlite.orderBy (fun s => utc s.instant) samples

theorem inOrder_perm (samples : List Sample) : (inOrder samples).Perm samples :=
  orderBy_perm _ _

theorem inOrder_sorted (samples : List Sample) :
    (inOrder samples).Pairwise fun s s' => s.instant ≤ s'.instant := by
  apply (orderBy_sorted (fun s : Sample => utc s.instant) samples).imp
  intro s s' h
  exact (Rfc3339.utc_le_iff s.fourDigit s'.fourDigit).mp h

deriving instance DecidableEq for Sample

/-- A row of an answer with the samples that it is made of. -/
structure Row where
  text : String
  samples : List Sample
  value : ℚ
  deriving DecidableEq

def Row.shown (r : Row) : String × Json :=
  (r.text, Json.ofF64 r.value)

/-- The `ts` that a sample is grouped by, NULL for a text that is no time. -/
def tsOf [HistoryLibs] (b : Bucket) (s : Sample) : Option String :=
  HistoryLibs.strftime b.format (utc s.instant)

/-- The rows that the provider makes of samples. -/
def answer [HistoryLibs] (bucket : Option Bucket) (method : AggregateMethod)
    (samples : List Sample) : List Row :=
  match bucket with
  | none => (inOrder samples).map fun s =>
      { text := utc s.instant, samples := [s], value := s.value }
  | some b =>
    (Sqlite.orderBy id ((inOrder samples).filterMap (tsOf b)).dedup).map fun ts =>
      let members := having (tsOf b) (inOrder samples) (some ts)
      { text := ts, samples := members, value := aggregateOf method (members.map Sample.value) }

theorem orderBy_map {α β : Type} (f : α → β) (column : β → String) (rows : List α) :
    Sqlite.orderBy column (rows.map f) =
      (Sqlite.orderBy (fun a => column (f a)) rows).map f := by
  have hinsert (a : α) (rows : List α) :
      (rows.map f).orderedInsert (fun x y => Text.Le (column x) (column y)) (f a) =
        (rows.orderedInsert (fun x y => Text.Le (column (f x)) (column (f y))) a).map f := by
    induction rows with
    | nil => rfl
    | cons b rows ih =>
      rw [List.map_cons, List.orderedInsert_cons, List.orderedInsert_cons]
      split_ifs
      · rfl
      · rw [List.map_cons, ih]
  induction rows with
  | nil => rfl
  | cons a rows ih =>
    simp only [Sqlite.orderBy, List.map_cons, List.insertionSort_cons] at ih ⊢
    rw [ih, hinsert]

/-- Grouping pairs of a key and a value is grouping what they are made from. -/
theorem filterMap_pairs {α : Type} (key : α → Option String) (value : α → ℚ) (l : List α) :
    (l.filterMap fun a => (key a).map fun ts => (ts, value a)).map Prod.fst = l.filterMap key ∧
    ∀ ts, ((l.filterMap fun a => (key a).map fun ts => (ts, value a)).filter
      fun b => b.1 = ts).map Prod.snd = (having key l (some ts)).map value := by
  induction l with
  | nil => exact ⟨rfl, fun _ => rfl⟩
  | cons a l ih =>
    obtain ⟨ihkeys, ihvalues⟩ := ih
    simp only [having] at ihvalues ⊢
    cases hkey : key a with
    | none => simpa [hkey] using ⟨ihkeys, ihvalues⟩
    | some k =>
      constructor
      · simp [hkey, ihkeys]
      · intro ts
        by_cases hk : k = ts
        · simp [hkey, hk, ihvalues]
        · simp [hkey, hk, ihvalues]

theorem queryRawValues_answer [HistoryLibs] (clock : Nat → Int) (batches : List (List Sample))
    (context path f t : String) (res : F64) (method : AggregateMethod) :
    queryRawValues (recorded clock batches) context path f t (some res) method =
      (answer (bucketOf res) method (selected batches context path f t)).map Row.shown := by
  have hrows : Sqlite.orderBy RawRow.timestamp
      (rangeRows (recorded clock batches) context path f t) =
      (inOrder (selected batches context path f t)).map Sample.rawRow := by
    rw [rangeRows_recorded, orderBy_map]
    rfl
  simp only [queryRawValues, bucketFormat_some, hrows]
  cases bucketOf res with
  | none => simp [answer, Row.shown, Sample.rawRow, Function.comp_def]
  | some b =>
    have hpairs := filterMap_pairs (tsOf b) Sample.value
      (inOrder (selected batches context path f t))
    simp only [tsOf] at hpairs
    simp only [Option.map_some, answer, List.map_map, List.filterMap_map]
    simp only [Function.comp_def, Sample.rawRow, tsOf, hpairs.1, hpairs.2, Row.shown]

/-- Which interval of the length of a resolution a sample is in, counted from `origin` in
seconds since year 0. One of infinite length has no end. -/
def interval (origin : ℚ) (res : F64) (s : Sample) : Int :=
  match res with
  | .finite q => ⌊((Chrono.elapsed s.instant : ℚ) / 1000000000 - origin) / q⌋
  | _ => 0

/-- A value is the aggregate that a method names. -/
def Named (method : AggregateMethod) (samples : List Sample) (v : ℚ) : Prop :=
  match method with
  | .average => v = (samples.map Sample.value).sum / samples.length
  | .min => (∃ s ∈ samples, v = s.value) ∧ ∀ s ∈ samples, v ≤ s.value
  | .max => (∃ s ∈ samples, v = s.value) ∧ ∀ s ∈ samples, s.value ≤ v
  | .count => v = samples.length
  | .first => ∃ s ∈ samples, (∀ s' ∈ samples, s.instant ≤ s'.instant) ∧ v = s.value
  | .last => ∃ s ∈ samples, (∀ s' ∈ samples, s'.instant ≤ s.instant) ∧ v = s.value
  | .mid => ∃ sorted : List ℚ, sorted.Perm (samples.map Sample.value) ∧
      sorted.Pairwise (· ≤ ·) ∧
      if sorted.length % 2 = 0 then
        ∃ a b, sorted[sorted.length / 2 - 1]? = some a ∧ sorted[sorted.length / 2]? = some b ∧
          v = (a + b) / 2
      else sorted[sorted.length / 2]? = some v
  | .middleIndex => ∃ inTime : List Sample, inTime.Perm samples ∧
      inTime.Pairwise (fun s s' => s.instant ≤ s'.instant) ∧
      inTime[inTime.length / 2]?.map Sample.value = some v

/-- Rows mean what a request says. -/
structure Means (origin : ℚ) (res : F64) (method : AggregateMethod) (samples : List Sample)
    (rows : List Row) : Prop where
  grouped : Grouped (interval origin res) samples (rows.map Row.samples)
  value : ∀ r ∈ rows, Named method r.samples r.value

/-- The approximation of a method is right at `e`: no value of its row goes beyond it. -/
def Extreme (method : AggregateMethod) (e s : Sample) : Prop :=
  match method with
  | .first => e.instant ≤ s.instant ∧ e.value ≤ s.value
  | .last => s.instant ≤ e.instant ∧ s.value ≤ e.value
  | _ => True

/-- When the rows mean what the request says: at a minute and more the buckets tell the
samples apart as the intervals do, there is no leap second, and the first value of an
interval is its smallest or the last one its largest, where it is asked for. Below a minute
no two samples share an interval, and counting them shows values of one. -/
def Fits (origin : ℚ) (res : F64) (method : AggregateMethod) (samples : List Sample) : Prop :=
  match bucketOf res with
  | none => samples.Pairwise (fun s s' => interval origin res s ≠ interval origin res s') ∧
      (method = .count → ∀ s ∈ samples, s.value = 1)
  | some b => (∀ s ∈ samples, Rfc3339.Instant.second s.instant < 60) ∧
      (∀ s ∈ samples, ∀ s' ∈ samples, b.index s.instant = b.index s'.instant ↔
        interval origin res s = interval origin res s') ∧
      ∀ s ∈ samples, ∃ e ∈ samples, interval origin res e = interval origin res s ∧
        ∀ s' ∈ samples, interval origin res s' = interval origin res s → Extreme method e s'

/-- At a minute, an hour or a day the buckets are the intervals of the resolution. -/
theorem interval_whole (b : Bucket) (s : Sample) (h : Rfc3339.Instant.second s.instant < 60) :
    interval 0 (.finite (60 * b.minutes)) s = b.index s.instant := by
  obtain ⟨d, hd⟩ : ∃ d : Nat, b.minutes = d := by
    cases b
    · exact ⟨1, rfl⟩
    · exact ⟨60, rfl⟩
    · exact ⟨1440, rfl⟩
  have hminutes : Chrono.elapsed s.instant / 60000000000 =
      Rfc3339.Instant.minutes s.instant := by
    simp only [Rfc3339.Instant.second, Rfc3339.minute] at h
    simp only [Chrono.elapsed, Rfc3339.minute]
    omega
  have hscale : ((Chrono.elapsed s.instant : ℚ) / 1000000000 - 0) / (60 * (d : ℚ)) =
      (Chrono.elapsed s.instant : ℚ) / ((60000000000 * d : Nat) : ℚ) := by
    rw [sub_zero, div_div]
    push_cast
    ring_nf
  rw [interval, Bucket.index, hd, Int.cast_natCast, hscale, Rat.floor_intCast_div_natCast,
    ← hminutes, Int.ediv_ediv_of_nonneg (by omega)]
  push_cast
  rfl

/-- There every method but the two approximated ones means what it says. -/
theorem fits_whole (b : Bucket) {samples : List Sample}
    (hleap : ∀ s ∈ samples, Rfc3339.Instant.second s.instant < 60) {method : AggregateMethod}
    (hfirst : method ≠ .first) (hlast : method ≠ .last) :
    Fits 0 (.finite (60 * b.minutes)) method samples := by
  have hbucket : bucketOf (.finite (60 * b.minutes)) = some b := by
    cases b
    all_goals decide +kernel
  rw [Fits, hbucket]
  refine ⟨hleap, ?_, ?_⟩
  · intro s hs s' hs'
    rw [interval_whole b s (hleap s hs), interval_whole b s' (hleap s' hs')]
  · intro s hs
    refine ⟨s, hs, rfl, fun s' _ _ => ?_⟩
    cases method with
    | first => exact absurd rfl hfirst
    | last => exact absurd rfl hlast
    | average | min | max | count | mid | middleIndex => trivial

theorem named_singleton_iff (method : AggregateMethod) (s : Sample) :
    Named method [s] s.value ↔ (method = .count → s.value = 1) := by
  cases method with
  | mid =>
    refine iff_of_true ⟨[s.value], .refl _, List.pairwise_singleton _ _, by simp⟩ ?_
    simp
  | middleIndex =>
    refine iff_of_true ⟨[s], .refl _, List.pairwise_singleton _ _, by simp⟩ ?_
    simp
  | average | min | max | first | last | count => simp [Named]

theorem named_first_iff {g : List Sample} (hne : g ≠ []) :
    Named .first g (minimum (g.map Sample.value)) ↔ ∃ e ∈ g, ∀ s ∈ g, Extreme .first e s := by
  constructor
  · rintro ⟨e, he, hearliest, hvalue⟩
    refine ⟨e, he, fun s hs => ⟨hearliest s hs, ?_⟩⟩
    rw [← hvalue]
    exact (minimum_spec (by simpa using hne)).2 _ (List.mem_map_of_mem hs)
  · rintro ⟨e, he, h⟩
    refine ⟨e, he, fun s hs => (h s hs).1, ?_⟩
    apply minimum_eq (List.mem_map_of_mem he)
    intro v hv
    obtain ⟨s, hs, rfl⟩ := List.mem_map.mp hv
    exact (h s hs).2

theorem named_last_iff {g : List Sample} (hne : g ≠ []) :
    Named .last g (maximum (g.map Sample.value)) ↔ ∃ e ∈ g, ∀ s ∈ g, Extreme .last e s := by
  constructor
  · rintro ⟨e, he, hlatest, hvalue⟩
    refine ⟨e, he, fun s hs => ⟨hlatest s hs, ?_⟩⟩
    rw [← hvalue]
    exact (maximum_spec (by simpa using hne)).2 _ (List.mem_map_of_mem hs)
  · rintro ⟨e, he, h⟩
    refine ⟨e, he, fun s hs => (h s hs).1, ?_⟩
    apply maximum_eq (List.mem_map_of_mem he)
    intro v hv
    obtain ⟨s, hs, rfl⟩ := List.mem_map.mp hv
    exact (h s hs).2

theorem named_mid {g : List Sample} (hne : g ≠ []) :
    Named .mid g (aggregateOf .mid (g.map Sample.value)) := by
  set sorted := (g.map Sample.value).insertionSort (· ≤ ·) with hsorted
  have hperm : sorted.Perm (g.map Sample.value) := List.perm_insertionSort _ _
  have hpos : 0 < sorted.length := by
    rw [hperm.length_eq, List.length_map]
    exact List.length_pos_iff.mpr hne
  have hget {i : Nat} (hi : i < sorted.length) : sorted[i]? = some (sorted.getD i 0) := by
    rw [List.getD_eq_getElem?_getD, List.getElem?_eq_getElem hi, Option.getD_some]
  refine ⟨sorted, hperm, List.pairwise_insertionSort _ _, ?_⟩
  simp only [aggregateOf, ← hsorted]
  by_cases heven : sorted.length % 2 = 0
  · rw [if_pos heven, if_pos ⟨heven, by omega⟩]
    exact ⟨_, _, hget (by omega), hget (by omega), rfl⟩
  · rw [if_neg heven, if_neg fun h => heven h.1]
    exact hget (by omega)

/-- What the provider computes of the samples of a row in the order of time is what the
method names, but for the approximations. -/
theorem named_aggregate_iff (method : AggregateMethod) {g : List Sample} (hne : g ≠ [])
    (hsorted : g.Pairwise fun s s' => s.instant ≤ s'.instant) :
    Named method g (aggregateOf method (g.map Sample.value)) ↔
      ∃ e ∈ g, ∀ s ∈ g, Extreme method e s := by
  have hvalues : g.map Sample.value ≠ [] := by simpa using hne
  obtain ⟨e, he⟩ := List.exists_mem_of_ne_nil g hne
  cases method with
  | first => exact named_first_iff hne
  | last => exact named_last_iff hne
  | mid => exact iff_of_true (named_mid hne) ⟨e, he, fun _ _ => trivial⟩
  | average => exact iff_of_true (by simp [Named, aggregateOf, average]) ⟨e, he, fun _ _ => trivial⟩
  | count => exact iff_of_true (by simp [Named, aggregateOf]) ⟨e, he, fun _ _ => trivial⟩
  | min =>
    refine iff_of_true ?_ ⟨e, he, fun _ _ => trivial⟩
    obtain ⟨hmem, hle⟩ := minimum_spec hvalues
    obtain ⟨s, hs, hvalue⟩ := List.mem_map.mp hmem
    exact ⟨⟨s, hs, hvalue.symm⟩, fun s' hs' => hle _ (List.mem_map_of_mem hs')⟩
  | max =>
    refine iff_of_true ?_ ⟨e, he, fun _ _ => trivial⟩
    obtain ⟨hmem, hle⟩ := maximum_spec hvalues
    obtain ⟨s, hs, hvalue⟩ := List.mem_map.mp hmem
    exact ⟨⟨s, hs, hvalue.symm⟩, fun s' hs' => hle _ (List.mem_map_of_mem hs')⟩
  | middleIndex =>
    refine iff_of_true ?_ ⟨e, he, fun _ _ => trivial⟩
    have hpos : g.length / 2 < (g.map Sample.value).length := by
      have := List.length_pos_iff.mpr hne
      rw [List.length_map]
      omega
    refine ⟨g, .refl _, hsorted, ?_⟩
    rw [aggregateOf, ← List.getElem?_map, List.length_map, List.getD_eq_getElem?_getD,
      List.getElem?_eq_getElem hpos, Option.getD_some]

theorem means_singletons_iff (origin : ℚ) (res : F64) (method : AggregateMethod)
    (samples : List Sample) :
    Means origin res method samples ((inOrder samples).map fun s =>
        { text := utc s.instant, samples := [s], value := s.value }) ↔
      samples.Pairwise (fun s s' => interval origin res s ≠ interval origin res s') ∧
        (method = .count → ∀ s ∈ samples, s.value = 1) := by
  have hperm := inOrder_perm samples
  have hgrouped : Grouped (interval origin res) samples ((inOrder samples).map fun s => [s]) ↔
      samples.Pairwise fun s s' => interval origin res s ≠ interval origin res s' := by
    rw [← hperm.pairwise_iff fun h => h.symm, ← grouped_singletons_iff]
    exact grouped_congr hperm.symm _
  have hvalues : (∀ s ∈ inOrder samples, Named method [s] s.value) ↔
      (method = .count → ∀ s ∈ samples, s.value = 1) := by
    simp only [named_singleton_iff, hperm.mem_iff]
    exact ⟨fun h hm s hs => h s hs hm, fun h s hs hm => h hm s hs⟩
  rw [← hgrouped, ← hvalues]
  constructor
  · intro h
    constructor
    · simpa [Function.comp_def] using h.grouped
    · intro s hs
      exact h.value _ (List.mem_map_of_mem hs)
  · rintro ⟨hgroups, hvalue⟩
    constructor
    · simpa [Function.comp_def] using hgroups
    · intro r hr
      obtain ⟨s, hs, rfl⟩ := List.mem_map.mp hr
      exact hvalue s hs

section
variable [HistoryLibs] {samples : List Sample}

theorem mem_answer {b : Bucket} {method : AggregateMethod} {r : Row} :
    r ∈ answer (some b) method samples ↔ ∃ ts, (∃ s ∈ samples, tsOf b s = some ts) ∧
      r = { text := ts
            samples := having (tsOf b) (inOrder samples) (some ts)
            value := aggregateOf method
              ((having (tsOf b) (inOrder samples) (some ts)).map Sample.value) } := by
  simp only [answer, List.mem_map, (orderBy_perm _ _).mem_iff, List.mem_dedup,
    List.mem_filterMap, (inOrder_perm samples).mem_iff, eq_comm]

/-- A sample in a leap second is in no row. -/
theorem second_of_cover (htimes : SqliteTimes samples) {b : Bucket} {method : AggregateMethod}
    (h : ((answer (some b) method samples).map Row.samples).flatten.Perm samples) :
    ∀ s ∈ samples, Rfc3339.Instant.second s.instant < 60 := by
  intro s hs
  by_contra hleap
  obtain ⟨g, hg, hsg⟩ := List.mem_flatten.mp (h.mem_iff.mpr hs)
  obtain ⟨r, hr, rfl⟩ := List.mem_map.mp hg
  obtain ⟨ts, _, rfl⟩ := mem_answer.mp hr
  have hts := (mem_having.mp hsg).2
  rw [tsOf, htimes b s hs, if_neg hleap] at hts
  cases hts

theorem tsOf_eq (htimes : SqliteTimes samples) (b : Bucket) {s : Sample} (hs : s ∈ samples)
    (hleap : Rfc3339.Instant.second s.instant < 60) : tsOf b s = some (b.text s.instant) := by
  rw [tsOf, htimes b s hs, if_pos hleap]

theorem tsOf_eq_iff (htimes : SqliteTimes samples) (b : Bucket)
    (hleap : ∀ s ∈ samples, Rfc3339.Instant.second s.instant < 60) {s s' : Sample}
    (hs : s ∈ samples) (hs' : s' ∈ samples) :
    tsOf b s = tsOf b s' ↔ b.index s.instant = b.index s'.instant := by
  rw [tsOf_eq htimes b hs (hleap s hs), tsOf_eq htimes b hs' (hleap s' hs'), Option.some_inj,
    b.text_eq_iff s.fourDigit s'.fourDigit]

/-- Without leap seconds the rows are the groups of the buckets. -/
theorem grouped_answer_iff (htimes : SqliteTimes samples) (b : Bucket)
    (hleap : ∀ s ∈ samples, Rfc3339.Instant.second s.instant < 60) (method : AggregateMethod)
    (origin : ℚ) (res : F64) :
    Grouped (interval origin res) samples ((answer (some b) method samples).map Row.samples) ↔
      ∀ s ∈ samples, ∀ s' ∈ samples, b.index s.instant = b.index s'.instant ↔
        interval origin res s = interval origin res s' := by
  have hperm := inOrder_perm samples
  have hkeysperm := orderBy_perm id ((inOrder samples).filterMap (tsOf b)).dedup
  set keys := Sqlite.orderBy id ((inOrder samples).filterMap (tsOf b)).dedup with hkeysdef
  have hnodup : (keys.map some).Nodup := by
    apply List.Nodup.map (Option.some_injective _)
    exact hkeysperm.nodup_iff.mpr (List.nodup_dedup _)
  have hkeys (k : Option String) : k ∈ keys.map some ↔ ∃ s ∈ inOrder samples, tsOf b s = k := by
    rw [List.mem_map]
    simp only [hkeysperm.mem_iff, List.mem_dedup, List.mem_filterMap]
    constructor
    · rintro ⟨ts, hts, rfl⟩
      exact hts
    · rintro ⟨s, hs, rfl⟩
      have hs' := hperm.mem_iff.mp hs
      have hts := tsOf_eq htimes b hs' (hleap s hs')
      exact ⟨_, ⟨s, hs, hts⟩, hts.symm⟩
  have hrows : (answer (some b) method samples).map Row.samples =
      (keys.map some).map (having (tsOf b) (inOrder samples)) := by
    simp only [answer, List.map_map, Function.comp_def]
    rfl
  have hgroups := grouped_having_iff hnodup hkeys (interval origin res)
  rw [← hrows] at hgroups
  rw [grouped_congr hperm.symm, hgroups]
  simp only [hperm.mem_iff]
  refine forall₄_congr fun s hs s' hs' => ?_
  rw [tsOf_eq_iff htimes b hleap hs hs']

theorem values_answer_iff (htimes : SqliteTimes samples) (b : Bucket)
    (hleap : ∀ s ∈ samples, Rfc3339.Instant.second s.instant < 60) (method : AggregateMethod) :
    (∀ r ∈ answer (some b) method samples, Named method r.samples r.value) ↔
      ∀ s ∈ samples, ∃ e ∈ samples, b.index e.instant = b.index s.instant ∧
        ∀ s' ∈ samples, b.index s'.instant = b.index s.instant → Extreme method e s' := by
  have hperm := inOrder_perm samples
  have hmem {s : Sample} (hs : s ∈ samples) {s' : Sample} :
      s' ∈ having (tsOf b) (inOrder samples) (tsOf b s) ↔
        s' ∈ samples ∧ b.index s'.instant = b.index s.instant := by
    rw [mem_having, hperm.mem_iff]
    exact and_congr_right fun hs' => tsOf_eq_iff htimes b hleap hs' hs
  have hrow {s : Sample} (hs : s ∈ samples) :
      Named method (having (tsOf b) (inOrder samples) (tsOf b s)) (aggregateOf method
          ((having (tsOf b) (inOrder samples) (tsOf b s)).map Sample.value)) ↔
        ∃ e ∈ samples, b.index e.instant = b.index s.instant ∧
          ∀ s' ∈ samples, b.index s'.instant = b.index s.instant → Extreme method e s' := by
    have hne : having (tsOf b) (inOrder samples) (tsOf b s) ≠ [] :=
      List.ne_nil_of_mem ((hmem hs).mpr ⟨hs, rfl⟩)
    have hsorted : (having (tsOf b) (inOrder samples) (tsOf b s)).Pairwise
        fun s s' => s.instant ≤ s'.instant := (inOrder_sorted samples).filter _
    rw [named_aggregate_iff method hne hsorted]
    simp only [hmem hs, and_imp, and_assoc]
  constructor
  · intro h s hs
    rw [← hrow hs]
    have hts := tsOf_eq htimes b hs (hleap s hs)
    have hr := h _ (mem_answer.mpr ⟨_, ⟨s, hs, hts⟩, rfl⟩)
    rwa [hts]
  · intro h r hr
    obtain ⟨ts, ⟨s, hs, hts⟩, rfl⟩ := mem_answer.mp hr
    have hs' := (hrow hs).mpr (h s hs)
    rwa [hts] at hs'

/-- What a query answers means what it asks for exactly if the samples fit. -/
theorem buckets_iff (clock : Nat → Int) (batches : List (List Sample))
    (context path f t : String) (origin : ℚ) (res : F64) (method : AggregateMethod)
    (htimes : SqliteTimes (selected batches context path f t))
    (hne : selected batches context path f t ≠ []) :
    queryPathValues (recorded clock batches) context path f t (some res) method =
        .ok ((answer (bucketOf res) method (selected batches context path f t)).map Row.shown) ∧
      (Means origin res method (selected batches context path f t)
          (answer (bucketOf res) method (selected batches context path f t)) ↔
        Fits origin res method (selected batches context path f t)) := by
  constructor
  · have hpos : 0 < (rangeRows (recorded clock batches) context path f t).length := by
      rw [rangeRows_recorded, List.length_map]
      exact List.length_pos_iff.mpr hne
    rw [queryPathValues, if_pos hpos, queryRawValues_answer]
  · generalize selected batches context path f t = samples at htimes
    unfold Fits
    cases bucketOf res with
    | none => exact means_singletons_iff origin res method samples
    | some b =>
      constructor
      · rintro ⟨hgrouped, hvalue⟩
        have hleap := second_of_cover htimes hgrouped.cover
        have hindex := (grouped_answer_iff htimes b hleap method origin res).mp hgrouped
        refine ⟨hleap, hindex, ?_⟩
        intro s hs
        obtain ⟨e, he, hes, hextreme⟩ := (values_answer_iff htimes b hleap method).mp hvalue s hs
        refine ⟨e, he, (hindex e he s hs).mp hes, ?_⟩
        intro s' hs' hss
        exact hextreme s' hs' ((hindex s' hs' s hs).mpr hss)
      · rintro ⟨hleap, hindex, hextreme⟩
        constructor
        · exact (grouped_answer_iff htimes b hleap method origin res).mpr hindex
        · rw [values_answer_iff htimes b hleap method]
          intro s hs
          obtain ⟨e, he, hes, hextreme⟩ := hextreme s hs
          refine ⟨e, he, (hindex e he s hs).mpr hes, ?_⟩
          intro s' hs' hss
          exact hextreme s' hs' ((hindex s' hs' s hs).mp hss)

end

/-- `strftime` of the texts that ingestion writes. -/
@[reducible] def HistoryLibs.stamps : HistoryLibs where
  strftime format text :=
    let cs := text.toList
    if (cs.drop 17).take 2 = ['6', '0'] then none
    else if format = Bucket.day.format then
      some (String.ofList (cs.take 11 ++ "00:00:00Z".toList))
    else if format = Bucket.hour.format then
      some (String.ofList (cs.take 14 ++ "00:00Z".toList))
    else some (String.ofList (cs.take 17 ++ "00Z".toList))
  parseError _ := ""

section
attribute [local instance] HistoryLibs.stamps

abbrev halfPastNoonSample : Sample where
  context := "vessels.self"
  path := "navigation.speedOverGround"
  value := 3
  instant := noon + 30000000000
  fourDigit := by decide

abbrev speeds : List Sample := [noonSample, halfPastNoonSample]

/-- The smallest speed of a minute is the smallest speed. -/
theorem buckets_iff_min : Means 0 (.finite (60 * Bucket.minute.minutes)) .min
    (selected [speeds] "vessels.self" "navigation.speedOverGround" "2026" "2027")
    (answer (bucketOf (.finite (60 * Bucket.minute.minutes))) .min
      (selected [speeds] "vessels.self" "navigation.speedOverGround" "2026" "2027")) := by
  have htimes : SqliteTimes
      (selected [speeds] "vessels.self" "navigation.speedOverGround" "2026" "2027") := by
    intro b
    cases b
    all_goals decide +kernel
  apply (buckets_iff (fun _ => 0) [speeds] "vessels.self" "navigation.speedOverGround" "2026"
    "2027" 0 (.finite (60 * Bucket.minute.minutes)) .min htimes (by decide +kernel)).2.mpr
  exact fits_whole .minute (by decide +kernel) (by decide) (by decide)

/-- The first speed of a minute is not the first speed, whatever the intervals are counted
from. -/
theorem first_of_minute :
    queryPathValues (recorded (fun _ => 0) [speeds]) "vessels.self"
        "navigation.speedOverGround" "2026" "2027" (some (.finite 60)) .first =
      .ok [("2026-03-02T12:00:00Z", .ofF64 3)] ∧
    ∀ origin, ¬ Means origin (.finite 60) .first
      (selected [speeds] "vessels.self" "navigation.speedOverGround" "2026" "2027")
      (answer (bucketOf (.finite 60)) .first
        (selected [speeds] "vessels.self" "navigation.speedOverGround" "2026" "2027")) := by
  refine ⟨by decide +kernel, ?_⟩
  intro origin h
  have hanswer : answer (bucketOf (.finite 60)) .first
      (selected [speeds] "vessels.self" "navigation.speedOverGround" "2026" "2027") =
      [{ text := "2026-03-02T12:00:00Z", samples := speeds, value := 3 }] := by
    decide +kernel
  rw [hanswer] at h
  obtain ⟨s, hs, hearliest, hvalue⟩ := h.value _ (List.mem_singleton_self _)
  rcases List.mem_pair.mp hs with rfl | rfl
  · exact absurd hvalue (by decide)
  · exact absurd (hearliest noonSample List.mem_cons_self) (by decide)

end

end SignalK.Buckets

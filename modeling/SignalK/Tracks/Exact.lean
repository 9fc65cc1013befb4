import SignalK.History.Range
import SignalK.Lib.ReadBack
import SignalK.Tracks.Requests

/-! What a query returns against the points that were recorded, and what pruning leaves. -/
namespace SignalK.Tracks
open Rfc3339 (utc FourDigit startOfYear)

/-- `record` -/
def StoredRow.record (context : String) (point : QueriedPoint) : StoredRow where
  context := context
  lat := point.lat
  lon := point.lon
  timestamp := utc point.timestamp
  sog := point.sog
  cog := point.cog
  depth := point.depth

/-- The table after the points have been recorded one after the other. -/
def table (recorded : List (String × QueriedPoint)) : List StoredRow :=
  recorded.map fun e => .record e.1 e.2

/-- `now + age`, where both may have nanoseconds; the place of a leap second is left by one
second if it is left. -/
def addDelta (t age : Int) : Int :=
  if Rfc3339.Instant.second t = 60 ∧ -1000000000 < age ∧
      Rfc3339.Instant.nano t + age < 1000000000 then t + age
  else
    let s := if Rfc3339.Instant.second t = 60 ∧ 0 < age then 59 else Rfc3339.Instant.second t
    let total := (Rfc3339.Instant.minutes t * 60 + s) * 1000000000 +
      Rfc3339.Instant.nano t + age
    total / 60000000000 * Rfc3339.minute + total % 60000000000

/-- From any time but a leap second the age is added on the time line without these. -/
theorem elapsed_addDelta {t : Int} (h : Rfc3339.Instant.second t ≠ 60) (age : Int) :
    Chrono.elapsed (addDelta t age) = Chrono.elapsed t + age := by
  rw [addDelta, if_neg (fun hleap => h hleap.1), if_neg (fun hleap => h hleap.1)]
  simp only [Chrono.elapsed, Rfc3339.Instant.minutes, Rfc3339.Instant.second,
    Rfc3339.Instant.nano, Rfc3339.minute] at *
  omega

/-- `Utc::now() - max_age` -/
def cutoff (now maxAge : Int) : Fallible String Int :=
  let t := addDelta now (-maxAge)
  .unwrap (if Chrono.InRange t then some t else none)

/-- `prune` -/
def prune (now maxAge : Int) (rows : List StoredRow) : Fallible String (List StoredRow) := do
  let t ← cutoff now maxAge
  .ok (rows.filter fun row => decide (Text.Le (utc t) row.timestamp))

/-- One window of the loop in `segment_by_gap`. -/
def segmentStep (acc : List (List QueriedPoint) × List QueriedPoint)
    (window : QueriedPoint × QueriedPoint) : List (List QueriedPoint) × List QueriedPoint :=
  if 300000000000 < gap window.1.timestamp window.2.timestamp then
    (acc.1 ++ [acc.2], [window.2])
  else (acc.1, acc.2 ++ [window.2])

/-- The loop itself. -/
def segmentLoop : List QueriedPoint → List (List QueriedPoint)
  | [] => []
  | p :: points =>
    let acc := ((p :: points).zip points).foldl segmentStep ([], [p])
    if acc.2 = [] then acc.1 else acc.1 ++ [acc.2]

theorem segmentByGap_loop (points : List QueriedPoint) :
    segmentByGap points = segmentLoop points := by
  have hloop : ∀ (points : List QueriedPoint) p (g : List QueriedPoint) segments,
      List.splitBy.loop (fun a b : QueriedPoint =>
        decide (gap a.timestamp b.timestamp ≤ 300000000000)) points p g segments =
      (((p :: points).zip points).foldl segmentStep (segments.reverse, (p :: g).reverse)).1 ++
        [(((p :: points).zip points).foldl segmentStep
          (segments.reverse, (p :: g).reverse)).2] ∧
      (((p :: points).zip points).foldl segmentStep
        (segments.reverse, (p :: g).reverse)).2 ≠ [] := by
    intro points
    induction points with
    | nil =>
      intro p g segments
      simp [List.splitBy.loop]
    | cons q points ih =>
      intro p g segments
      rw [List.splitBy.loop, List.zip_cons_cons, List.foldl_cons, segmentStep]
      by_cases hgap : gap p.timestamp q.timestamp ≤ 300000000000
      · rw [decide_eq_true hgap, if_neg (not_lt.mpr hgap)]
        have h := ih q (p :: g) segments
        rwa [List.reverse_cons (a := q)] at h
      · rw [decide_eq_false hgap, if_pos (not_le.mp hgap)]
        have h := ih q [] ((p :: g).reverse :: segments)
        rwa [List.reverse_cons (a := (p :: g).reverse)] at h
  cases points with
  | nil => rfl
  | cons p points =>
    obtain ⟨hsplit, hne⟩ := hloop points p [] []
    rw [segmentByGap, List.splitBy, hsplit]
    exact (if_neg hne).symm

/-! What is asked for. -/

def InBox (box : F64 × F64 × F64 × F64) (p : QueriedPoint) : Prop :=
  box.1.le (.finite p.lon) = true ∧ (F64.finite p.lon).le box.2.2.1 = true ∧
    box.2.1.le (.finite p.lat) = true ∧ (F64.finite p.lat).le box.2.2.2 = true

instance (box : F64 × F64 × F64 × F64) (p : QueriedPoint) : Decidable (InBox box p) :=
  inferInstanceAs (Decidable (_ ∧ _))

section
variable [Haversine]

/-- Not farther from the centre than the radius. -/
def InCircle (circle : F64 × F64 × F64) (p : QueriedPoint) : Prop :=
  circle.2.2.lt (Haversine.meters circle.1 circle.2.1 (.finite p.lat) (.finite p.lon)) = false

instance (circle : F64 × F64 × F64) (p : QueriedPoint) : Decidable (InCircle circle p) :=
  inferInstanceAs (Decidable (_ = _))

/-- All filters of the query. -/
def TrackQuery.Asks (q : TrackQuery) (context : String) (p : QueriedPoint) : Prop :=
  (∀ c ∈ q.context, context = c) ∧ (∀ t ∈ q.after, t ≤ p.timestamp) ∧
    (∀ t ∈ q.before, p.timestamp ≤ t) ∧ (∀ box ∈ q.bbox, InBox box p) ∧
    ∀ circle ∈ q.radius, InCircle circle p

instance (q : TrackQuery) (context : String) (p : QueriedPoint) : Decidable (q.Asks context p) :=
  inferInstanceAs (Decidable ((∀ c ∈ q.context, _) ∧ (∀ t ∈ q.after, _) ∧ (∀ t ∈ q.before, _) ∧
    (∀ box ∈ q.bbox, _) ∧ ∀ circle ∈ q.radius, _))

/-- The points of a context that are asked for, as they were recorded. -/
def asked (q : TrackQuery) (recorded : List (String × QueriedPoint)) (context : String) :
    List QueriedPoint :=
  (recorded.filter fun r => decide (r.1 = context ∧ q.Asks r.1 r.2)).map Prod.snd

/-- A track shows the points of its context that are asked for in order, the last ones when
there are more than the limit, cut where two are more than five minutes apart. -/
structure Shows (q : TrackQuery) (recorded : List (String × QueriedPoint)) (track : VesselTrack) :
    Prop where
  points : ∃ all front : List QueriedPoint, all.Perm (asked q recorded track.context) ∧
    all.Pairwise (fun a b => a.timestamp ≤ b.timestamp) ∧ all = front ++ track.segments.flatten ∧
    (q.limit = none → front = []) ∧
    ∀ n ∈ q.limit, track.segments.flatten.length = min n all.length
  nonempty : [] ∉ track.segments
  together : ∀ s ∈ track.segments, s.IsChain fun a b => gap a.timestamp b.timestamp ≤ 300000000000
  apart : track.segments.IsChain fun s t => ∀ a ∈ s.getLast?, ∀ b ∈ t.head?,
    300000000000 < gap a.timestamp b.timestamp

/-- One track for every context with points that are asked for. -/
structure Exact (visit : HashMap.Iteration String (List QueriedPoint)) (q : TrackQuery)
    (recorded : List (String × QueriedPoint)) : Prop where
  once : ((query visit q (table recorded)).map (·.context)).Nodup
  contexts : ∀ context, (∃ track ∈ query visit q (table recorded), track.context = context) ↔
    asked q recorded context ≠ []
  shows : ∀ track ∈ query visit q (table recorded), Shows q recorded track

/-! A row is selected when its point is asked for. -/

omit [Haversine] in
theorem record_point {context : String} {p : QueriedPoint} (h : FourDigit p.timestamp) :
    (StoredRow.record context p).point = p := by
  rw [StoredRow.point, StoredRow.record, Rfc3339.parse_utc h]
  rfl

theorem record_passes {q : TrackQuery} {context : String} {p : QueriedPoint}
    (h : FourDigit p.timestamp) (hafter : ∀ t ∈ q.after, t < startOfYear 10000)
    (hbefore : ∀ t ∈ q.before, t < startOfYear 10000) :
    (q.wants (.record context p) = true ∧ q.passes (.record context p) = true) ↔
      q.Asks context p := by
  have hctx : q.wants (.record context p) = true ↔ ∀ c ∈ q.context, context = c := by
    cases hc : q.context with
    | none => simp [TrackQuery.wants, hc]
    | some c =>
      rw [TrackQuery.wants, hc]
      simp only [Option.all_some, Option.mem_some, forall_eq']
      exact decide_eq_true_iff
  have hmin : (q.after.all fun t => decide (Text.Le (utc t) (utc p.timestamp))) = true ↔
      ∀ t ∈ q.after, t ≤ p.timestamp := by
    cases ht : q.after with
    | none => simp
    | some t =>
      simp only [Option.all_some, decide_eq_true_eq, Option.mem_some, forall_eq']
      exact Rfc3339.utc_le_iff_of_lt (hafter t ht) h
  have hmax : (q.before.all fun t => decide (Text.Le (utc p.timestamp) (utc t))) = true ↔
      ∀ t ∈ q.before, p.timestamp ≤ t := by
    cases ht : q.before with
    | none => simp
    | some t =>
      simp only [Option.all_some, decide_eq_true_eq, Option.mem_some, forall_eq']
      exact Rfc3339.le_utc_iff_of_lt (hbefore t ht) h
  have hbox : (q.bbox.all fun box => box.1.le (.finite p.lon) &&
      (F64.finite p.lon).le box.2.2.1 && box.2.1.le (.finite p.lat) &&
        (F64.finite p.lat).le box.2.2.2) = true ↔
      ∀ box ∈ q.bbox, InBox box p := by
    cases hb : q.bbox <;> simp [InBox, and_assoc]
  have hcircle : q.inRadius (.record context p) = true ↔
      ∀ circle ∈ q.radius, InCircle circle p := by
    cases hr : q.radius <;> simp [TrackQuery.inRadius, InCircle, StoredRow.record, hr]
  have hrange : q.inRange (.record context p) =
      ((q.after.all fun t => decide (Text.Le (utc t) (utc p.timestamp))) &&
        (q.before.all fun t => decide (Text.Le (utc p.timestamp) (utc t))) &&
        q.bbox.all fun box => box.1.le (.finite p.lon) &&
          (F64.finite p.lon).le box.2.2.1 && box.2.1.le (.finite p.lat) &&
            (F64.finite p.lat).le box.2.2.2) := rfl
  rw [TrackQuery.passes, TrackQuery.Asks, hctx, hrange, Bool.and_eq_true, Bool.and_eq_true,
    Bool.and_eq_true, hmin, hmax, hbox, hcircle]
  simp only [and_assoc]

/-- Rows with one context stay in the order of their times. -/
theorem selected_sorted (q : TrackQuery) (rows : List StoredRow) (context : String) :
    ((selected q rows).filter (·.context = context)).Pairwise fun a b =>
      Text.Le a.timestamp b.timestamp := by
  have htotal : Std.Total fun a b : StoredRow => Text.Le a.context b.context :=
    ⟨fun a b => le_total _ _⟩
  have htrans : IsTrans StoredRow fun a b => Text.Le a.context b.context :=
    ⟨fun a b c => le_trans⟩
  have hsorted := orderBy_sorted StoredRow.timestamp
    (rows.filter fun row => q.wants row && q.inRange row)
  rw [selected, List.filter_filter]
  generalize Sqlite.orderBy StoredRow.timestamp
    (rows.filter fun row => q.wants row && q.inRange row) = inner at hsorted ⊢
  have hkeep : (inner.filter (·.context = context)).Sublist
      ((Sqlite.orderBy StoredRow.context inner).filter (·.context = context)) := by
    have hone : (inner.filter (·.context = context)).Pairwise fun a b =>
        Text.Le a.context b.context := by
      refine List.pairwise_of_forall_mem_list fun a ha b hb => ?_
      have hca := of_decide_eq_true (List.mem_filter.mp ha).2
      have hcb := of_decide_eq_true (List.mem_filter.mp hb).2
      rw [hca, hcb]
      exact le_refl context.toList
    have hsub := (List.sublist_insertionSort hone List.filter_sublist).filter
      (fun row : StoredRow => decide (row.context = context))
    simp only [List.filter_filter, Bool.and_self] at hsub
    exact hsub
  have heq : inner.filter (·.context = context) =
      (Sqlite.orderBy StoredRow.context inner).filter (·.context = context) := by
    refine hkeep.eq_of_length ?_
    exact ((Provider.orderBy_perm StoredRow.context inner).filter _).length_eq.symm
  have hmore : (Sqlite.orderBy StoredRow.context inner).filter
      (fun row => decide (row.context = context) && q.inRadius row) =
      (inner.filter (·.context = context)).filter q.inRadius := by
    rw [heq, List.filter_filter]
    simp only [Bool.and_comm]
  rw [hmore]
  exact (hsorted.sublist List.filter_sublist).sublist List.filter_sublist

theorem selected_perm (q : TrackQuery) (rows : List StoredRow) (context : String) :
    ((selected q rows).filter (·.context = context)).Perm
      (rows.filter fun row => decide (row.context = context) && (q.wants row && q.passes row)) := by
  have horder := (Provider.orderBy_perm StoredRow.context (Sqlite.orderBy StoredRow.timestamp
    (rows.filter fun row => q.wants row && q.inRange row))).trans
    (Provider.orderBy_perm StoredRow.timestamp
      (rows.filter fun row => q.wants row && q.inRange row))
  have hperm := (horder.filter q.inRadius).filter (fun row => decide (row.context = context))
  refine hperm.trans (List.Perm.of_eq ?_)
  rw [List.filter_filter, List.filter_filter]
  refine List.filter_congr fun row _ => ?_
  simp only [TrackQuery.passes]
  cases q.wants row <;> cases q.inRange row <;> cases q.inRadius row <;> simp

theorem asked_rows {q : TrackQuery} {recorded : List (String × QueriedPoint)}
    (hpoints : ∀ r ∈ recorded, FourDigit r.2.timestamp)
    (hafter : ∀ t ∈ q.after, t < startOfYear 10000)
    (hbefore : ∀ t ∈ q.before, t < startOfYear 10000) (context : String) :
    ((table recorded).filter fun row =>
      decide (row.context = context) && (q.wants row && q.passes row)).map StoredRow.point =
      asked q recorded context := by
  rw [table, asked, List.filter_map, List.map_map]
  have hfilter : recorded.filter ((fun row : StoredRow =>
      decide (row.context = context) && (q.wants row && q.passes row)) ∘
        fun e => StoredRow.record e.1 e.2) =
      recorded.filter fun r => decide (r.1 = context ∧ q.Asks r.1 r.2) := by
    refine List.filter_congr fun r hr => ?_
    rw [Bool.eq_iff_iff, decide_eq_true_iff, ← record_passes (hpoints r hr) hafter hbefore]
    simp [StoredRow.record]
  rw [hfilter]
  refine List.map_congr_left fun r hr => ?_
  exact record_point (hpoints r (List.mem_filter.mp hr).1)

omit [Haversine] in
theorem limited_suffix (limit : Option Nat) (points : List QueriedPoint) :
    ∃ front, points = front ++ limited limit points ∧ (limit = none → front = []) ∧
      ∀ n ∈ limit, (limited limit points).length = min n points.length := by
  cases limit with
  | none => exact ⟨[], rfl, fun _ => rfl, fun n hn => by cases hn⟩
  | some n =>
    refine ⟨points.take (points.length - n), (List.take_append_drop _ points).symm,
      (fun h => by cases h), fun k hk => ?_⟩
    cases hk
    rw [limited, List.length_drop]
    omega

omit [Haversine] in
theorem segmentByGap_apart (points : List QueriedPoint) :
    (segmentByGap points).IsChain fun s t => ∀ a ∈ s.getLast?, ∀ b ∈ t.head?,
      300000000000 < gap a.timestamp b.timestamp := by
  refine (List.isChain_getLast_head_splitBy _ points).imp ?_
  rintro s t ⟨hs, ht, h⟩ a ha b hb
  rw [List.getLast?_eq_getLast_of_ne_nil hs] at ha
  rw [List.head?_eq_some_head ht] at hb
  cases ha
  cases hb
  exact not_le.mp (of_decide_eq_false h)

/-- Where all years have four digits the answer is exact. -/
theorem query_exact (visit : HashMap.Iteration String (List QueriedPoint)) (q : TrackQuery)
    (recorded : List (String × QueriedPoint))
    (hpoints : ∀ r ∈ recorded, FourDigit r.2.timestamp)
    (hafter : ∀ t ∈ q.after, t < startOfYear 10000)
    (hbefore : ∀ t ∈ q.before, t < startOfYear 10000) : Exact visit q recorded := by
  have hperm : ∀ context, (((selected q (table recorded)).filter
      (·.context = context)).map StoredRow.point).Perm (asked q recorded context) :=
    fun context => ((selected_perm q (table recorded) context).map StoredRow.point).trans
      (List.Perm.of_eq (asked_rows hpoints hafter hbefore context))
  constructor
  case once =>
    have hkeys := (visit.order ((selected q (table recorded)).foldl groupPoint ∅)).nodup
    refine hkeys.sublist ?_
    rw [query]
    generalize visit.entries ((selected q (table recorded)).foldl groupPoint ∅) = entries
    induction entries with
    | nil => exact List.Sublist.refl []
    | cons e entries ih =>
      obtain ⟨context, points⟩ := e
      by_cases hempty : points = []
      · simp only [List.filterMap_cons, if_pos hempty]
        exact ih.cons context
      · simp only [List.filterMap_cons, if_neg hempty]
        exact ih.cons_cons context
  case contexts =>
    intro context
    have hempty : (selected q (table recorded)).filter (·.context = context) = [] ↔
        asked q recorded context = [] := by
      rw [← List.map_eq_nil_iff (f := StoredRow.point), ← List.length_eq_zero_iff,
        ← List.length_eq_zero_iff, (hperm context).length_eq]
    refine Iff.trans ?_ hempty.not
    constructor
    · rintro ⟨track, htrack, rfl⟩
      exact (mem_query.mp htrack).1
    · intro hne
      let points := ((selected q (table recorded)).filter (·.context = context)).map
        StoredRow.point
      exact ⟨⟨context, segmentByGap (limited q.limit points)⟩, mem_query.mpr ⟨hne, rfl⟩, rfl⟩
  case shows =>
    intro track htrack
    obtain ⟨-, hsegments⟩ := mem_query.mp htrack
    constructor
    case points =>
      obtain ⟨front, hfront, hnone, hlimit⟩ := limited_suffix q.limit
        (((selected q (table recorded)).filter (·.context = track.context)).map StoredRow.point)
      have hflat : track.segments.flatten = limited q.limit (((selected q (table recorded)).filter
          (·.context = track.context)).map StoredRow.point) := by
        rw [hsegments, segmentByGap, List.flatten_splitBy]
      rw [hflat]
      refine ⟨_, front, hperm track.context, ?_, hfront, hnone, hlimit⟩
      rw [List.pairwise_map]
      have hrow : ∀ row ∈ (selected q (table recorded)).filter (·.context = track.context),
          FourDigit row.point.timestamp ∧ row.timestamp = utc row.point.timestamp := by
        intro row hrow
        obtain ⟨r, hr, rfl⟩ := List.mem_map.mp (mem_selected.mp (List.mem_filter.mp hrow).1).1
        rw [record_point (hpoints r hr)]
        exact ⟨hpoints r hr, rfl⟩
      refine (selected_sorted q (table recorded) track.context).imp_of_mem fun {a b} ha hb h => ?_
      obtain ⟨hya, hta⟩ := hrow a ha
      obtain ⟨hyb, htb⟩ := hrow b hb
      rw [hta, htb] at h
      exact (Rfc3339.utc_le_iff hya hyb).mp h
    case nonempty =>
      rw [hsegments]
      exact List.nil_notMem_splitBy _ _
    case together =>
      intro s hs
      rw [hsegments] at hs
      exact (List.isChain_of_mem_splitBy hs).imp fun a b h => of_decide_eq_true h
    case apart =>
      rw [hsegments]
      exact segmentByGap_apart _

omit [Haversine] in
/-- Pruning removes the points before the cutoff. -/
theorem prune_table {recorded : List (String × QueriedPoint)}
    (hpoints : ∀ r ∈ recorded, FourDigit r.2.timestamp) {now maxAge t : Int}
    (hcutoff : cutoff now maxAge = .ok t) (ht : t < startOfYear 10000) :
    prune now maxAge (table recorded) =
      .ok (table (recorded.filter fun r => decide (t ≤ r.2.timestamp))) := by
  have hfilter : recorded.filter ((fun row : StoredRow => decide (Text.Le (utc t) row.timestamp)) ∘
      fun e => StoredRow.record e.1 e.2) =
      recorded.filter fun r => decide (t ≤ r.2.timestamp) := by
    refine List.filter_congr fun r hr => ?_
    have hle : Text.Le (utc t) (utc r.2.timestamp) ↔ t ≤ r.2.timestamp :=
      Rfc3339.utc_le_iff_of_lt ht (hpoints r hr)
    rw [Function.comp_apply, StoredRow.record, decide_eq_decide]
    exact hle
  rw [prune, hcutoff, Fallible.bind_ok, table, List.filter_map, hfilter, table]

/-- Queries and pruning are exact on points whose years have four digits. -/
theorem tracks_exact (visit : HashMap.Iteration String (List QueriedPoint)) (q : TrackQuery)
    (recorded : List (String × QueriedPoint))
    (hpoints : ∀ r ∈ recorded, FourDigit r.2.timestamp)
    (hafter : ∀ t ∈ q.after, t < startOfYear 10000)
    (hbefore : ∀ t ∈ q.before, t < startOfYear 10000) :
    Exact visit q recorded ∧
      ∀ now maxAge t, cutoff now maxAge = .ok t → t < startOfYear 10000 →
        prune now maxAge (table recorded) =
          .ok (table (recorded.filter fun r => decide (t ≤ r.2.timestamp))) :=
  ⟨query_exact visit q recorded hpoints hafter hbefore,
    fun _ _ _ hcutoff ht => prune_table hpoints hcutoff ht⟩

end

section
attribute [local instance] Haversine.unused

def pointAt (timestamp : Int) : QueriedPoint :=
  ⟨54, 10, timestamp, none, none, none⟩

def everything : TrackQuery :=
  ⟨none, none, none, none, none, none, none, .geoJson⟩

/-- Two points six minutes apart, the later one recorded first. -/
abbrev harbour : List (String × QueriedPoint) :=
  [("vessels.a", pointAt (epoch + 366000000000)), ("vessels.a", pointAt epoch)]

theorem tracks_exact_harbour :
    (∀ visit, Exact visit everything harbour) ∧
      prune (epoch + 366000000000) 60000000000 (table harbour) =
        .ok (table [("vessels.a", pointAt (epoch + 366000000000))]) := by
  have hpoints : ∀ r ∈ harbour, FourDigit r.2.timestamp := by decide +kernel
  have hafter : ∀ t ∈ everything.after, t < startOfYear 10000 := by decide
  have hbefore : ∀ t ∈ everything.before, t < startOfYear 10000 := by decide
  have hcutoff : cutoff (epoch + 366000000000) 60000000000 = .ok (epoch + 305000000000) := by
    decide +kernel
  refine ⟨fun visit => (tracks_exact visit everything harbour hpoints hafter hbefore).1, ?_⟩
  exact (tracks_exact .some everything harbour hpoints hafter hbefore).2 _ _ _ hcutoff
    (by decide +kernel)

/-- A point of the year 10000 comes back with another time, and before one of 9999. -/
theorem far_future_astray :
    (∀ visit, ¬ Exact visit everything [("vessels.a", pointAt (startOfYear 10000))]) ∧
      (utc (startOfYear 10000)).toList < (utc (startOfYear 9999)).toList := by
  refine ⟨fun visit h => ?_, by decide +kernel⟩
  have hasked : asked everything [("vessels.a", pointAt (startOfYear 10000))] "vessels.a" =
      [pointAt (startOfYear 10000)] := by decide +kernel
  have hread : ((selected everything (table [("vessels.a", pointAt (startOfYear 10000))])).filter
      (·.context = "vessels.a")).map StoredRow.point = [pointAt epoch] := by decide +kernel
  have hne : asked everything [("vessels.a", pointAt (startOfYear 10000))] "vessels.a" ≠ [] := by
    rw [hasked]
    exact List.cons_ne_nil _ _
  obtain ⟨track, htrack, hcontext⟩ := (h.contexts "vessels.a").mpr hne
  obtain ⟨all, front, hperm, -, hall, hnone, -⟩ := (h.shows track htrack).points
  obtain ⟨-, hsegments⟩ := mem_query.mp htrack
  rw [hcontext, hread] at hsegments
  rw [hcontext, hasked, hall, hnone rfl, List.nil_append, hsegments, segmentByGap,
    List.flatten_splitBy] at hperm
  have hsame : [pointAt epoch] = [pointAt (startOfYear 10000)] := List.perm_singleton.mp hperm
  exact absurd hsame (by decide +kernel)

end

end SignalK.Tracks

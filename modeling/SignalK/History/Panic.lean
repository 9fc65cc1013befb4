import SignalK.History.Provider

/-! Queries that panic. The shared connection is locked for the whole of a query, so a
panic poisons it, and every later call finds it poisoned. -/
namespace SignalK
open Rfc3339 (toRfc3339 utc)
open Provider

/-- The connection behind its mutex. -/
structure SharedConnection where
  db : HistoryDb
  poisoned : Bool

namespace SharedConnection

/-- A call with the lock held. -/
def withLock {α : Type} (st : SharedConnection) (f : HistoryDb → Fallible String α) :
    Fallible String α × SharedConnection :=
  if st.poisoned then (.err "lock: poisoned lock: another task failed inside", st)
  else
    match f st.db with
    | .panic => (.panic, { st with poisoned := true })
    | r => (r, st)

end SharedConnection

inductive HistoryQuery where
  | values (req : ValuesRequest)
  | contexts (req : ContextsRequest)
  | paths (req : PathsRequest)

inductive HistoryAnswer where
  | values (resp : ValuesResponse)
  | names (names : List String)

section
variable [FloatMath] [FloatParse] [HistoryLibs]

namespace HistoryQuery

/-- The bounds of a query and its duration. -/
def bounds : HistoryQuery → Option String × Option String × Option String
  | values req => (req.fromTs, req.toTs, req.duration)
  | contexts req => (req.fromTs, req.toTs, req.duration)
  | paths req => (req.fromTs, req.toTs, req.duration)

def answer (now : Int) (query : HistoryQuery) (db : HistoryDb) : Fallible String HistoryAnswer :=
  match query with
  | values req => do .ok (.values (← getValues now db req))
  | contexts req => do .ok (.names (← getContexts now db req))
  | paths req => do .ok (.names (← getPaths now db req))

def run (now : Int) (query : HistoryQuery) (st : SharedConnection) :
    Fallible String HistoryAnswer × SharedConnection :=
  st.withLock (query.answer now)

end HistoryQuery

/-- The whole seconds of a duration, if it is one. -/
def durationSecs (dur : String) : Option Int :=
  match Query.parseDurationSecs dur with
  | .ok (some secs) => some secs.toI64
  | _ => none

/-- The bound from which the other one of a range is computed, and by how many seconds. -/
def shift (now : Int) (fromTs toTs duration : Option String) : Option (Int × Int) :=
  match fromTs, toTs, duration with
  | none, none, some dur => do some (now, -(← durationSecs dur))
  | some f, none, some dur => do
    let secs ← durationSecs dur
    some ((← Rfc3339.parse f).instant, secs)
  | none, some t, some dur => do
    let secs ← durationSecs dur
    some ((← Rfc3339.parse t).instant, -secs)
  | none, none, none => some (now, -3600)
  | none, some t, none => do some ((← Rfc3339.parse t).instant, -3600)
  | some _, _, _ => none

/-- The shift is a duration, and it stays in the years that dates have. -/
def ShiftSafe (now : Int) (fromTs toTs duration : Option String) : Prop :=
  ∀ base secs, shift now fromTs toTs duration = some (base, secs) →
    secs.natAbs ≤ 9223372036854775 ∧ Chrono.InRange (Rfc3339.Instant.addSeconds base secs)

/-- The bounds that are taken as they stand and never read as date-times. -/
def verbatim (fromTs toTs duration : Option String) : List String :=
  match fromTs, toTs, duration with
  | some f, some t, _ => [f, t]
  | some f, none, none => [f]
  | _, _, _ => []

/-- Byte ten, or the end of a shorter text, is not inside of a character. -/
def Sliceable (s : String) : Prop :=
  (Text.takeBytes (min 10 (Text.byteLen s.toList)) s.toList).isSome = true

instance (s : String) : Decidable (Sliceable s) := by
  unfold Sliceable
  infer_instance

/-- For a query of values every path has raw rows in the range, so that no bound is cut
to a date. -/
def RawOnly (now : Int) (db : HistoryDb) : HistoryQuery → Prop
  | .values req => ∀ spec ∈ req.pathSpecs,
      rangeRows db req.context spec.path (req.fromTs.getD "") (req.toTs.getD (utc now)) ≠ []
  | .contexts _ => False
  | .paths _ => False

/-- The shift of a bound is safe, and no bound is cut inside of a character. -/
def HistoryQuery.Safe (now : Int) (db : HistoryDb) (query : HistoryQuery) : Prop :=
  let (fromTs, toTs, duration) := query.bounds
  ShiftSafe now fromTs toTs duration ∧
    ((∀ s ∈ verbatim fromTs toTs duration, Sliceable s) ∨ RawOnly now db query)

end

theorem sub_seconds_returns (d : Rfc3339.DateTime) (n : Int)
    (g : Rfc3339.DateTime → String × String) :
    (Chrono.seconds n >>= fun m => Chrono.sub d m >>= fun e => .ok (g e)).Returns ↔
      (-n).natAbs ≤ 9223372036854775 ∧
        Chrono.InRange (Rfc3339.Instant.addSeconds d.instant (-n)) := by
  rw [Int.natAbs_neg]
  unfold Chrono.seconds Chrono.sub Chrono.add
  by_cases hn : n.natAbs ≤ 9223372036854775
  · by_cases hr : Chrono.InRange (Rfc3339.Instant.addSeconds d.instant (-n))
    · simp [Fallible.unwrap, hn, hr]
    · simp [Fallible.unwrap, hn, hr]
  · simp [Fallible.unwrap, hn]

theorem add_seconds_returns (d : Rfc3339.DateTime) (n : Int)
    (g : Rfc3339.DateTime → String × String) :
    (Chrono.seconds n >>= fun m => Chrono.add d m >>= fun e => .ok (g e)).Returns ↔
      n.natAbs ≤ 9223372036854775 ∧
        Chrono.InRange (Rfc3339.Instant.addSeconds d.instant n) := by
  unfold Chrono.seconds Chrono.add
  by_cases hn : n.natAbs ≤ 9223372036854775
  · by_cases hr : Chrono.InRange (Rfc3339.Instant.addSeconds d.instant n)
    · simp [Fallible.unwrap, hn, hr]
    · simp [Fallible.unwrap, hn, hr]
  · simp [Fallible.unwrap, hn]

theorem sub_hour_returns (d : Rfc3339.DateTime) (g : Rfc3339.DateTime → String × String) :
    (Chrono.sub d 3600 >>= fun e => .ok (g e)).Returns ↔
      Chrono.InRange (Rfc3339.Instant.addSeconds d.instant (-3600)) := by
  unfold Chrono.sub Chrono.add
  by_cases hr : Chrono.InRange (Rfc3339.Instant.addSeconds d.instant (-3600))
  · simp [Fallible.unwrap, hr]
  · simp [Fallible.unwrap, hr]

theorem datePrefix_cases (s : String) :
    (Sliceable s ∧ ∃ d, datePrefix s = .ok d) ∨ (¬ Sliceable s ∧ datePrefix s = .panic) := by
  rw [datePrefix, Sliceable]
  cases Text.takeBytes (min 10 (Text.byteLen s.toList)) s.toList with
  | none => exact Or.inr ⟨by simp, rfl⟩
  | some cs => exact Or.inl ⟨rfl, _, rfl⟩

theorem sliceable_of_ascii {s : String} (hlen : 10 ≤ s.toList.length)
    (h : ∀ c ∈ s.toList.take 10, c.utf8Size = 1) : Sliceable s := by
  rcases datePrefix_cases s with ⟨hs, _⟩ | ⟨_, hpanic⟩
  · exact hs
  · rw [datePrefix_of_ascii hlen h] at hpanic
    cases hpanic

theorem sliceable_toRfc3339 (d : Rfc3339.DateTime) : Sliceable (toRfc3339 d) := by
  have hlist : (toRfc3339 d).toList = Rfc3339.text d := String.toList_ofList
  obtain ⟨hlen, hascii⟩ := Rfc3339.ascii_text d
  exact sliceable_of_ascii (by rwa [hlist]) (by rwa [hlist])

theorem sliceable_of_parse {s : String} {d : Rfc3339.DateTime} (h : Rfc3339.parse s = some d) :
    Sliceable s := by
  obtain ⟨fields, hfields, _⟩ := Option.map_eq_some_iff.mp h
  obtain ⟨hlen, hascii⟩ := Rfc3339.ascii_of_fieldsOf hfields
  exact sliceable_of_ascii hlen hascii

theorem datePrefixes_cases (f t : String) {α : Type} (k : String → String → α) :
    let x : Fallible String α := datePrefix f >>= fun a => datePrefix t >>= fun b => .ok (k a b)
    ((Sliceable f ∧ Sliceable t) ∧ ∃ a, x = .ok a) ∨
      (¬ (Sliceable f ∧ Sliceable t) ∧ x = .panic) := by
  rcases datePrefix_cases f with ⟨hf, d, hd⟩ | ⟨hf, hpanic⟩
  · rcases datePrefix_cases t with ⟨ht, d', hd'⟩ | ⟨ht, hpanic⟩
    · exact Or.inl ⟨⟨hf, ht⟩, k d d', by rw [hd, hd']; rfl⟩
    · exact Or.inr ⟨fun h => ht h.2, by rw [hd, hpanic]; rfl⟩
  · exact Or.inr ⟨fun h => hf h.1, by rw [hpanic]; rfl⟩

theorem datePrefixes_return (f t : String) {α : Type} (k : String → String → α) :
    (datePrefix f >>= fun a => datePrefix t >>= fun b =>
      (.ok (k a b) : Fallible String α)).Returns ↔ Sliceable f ∧ Sliceable t := by
  rcases datePrefixes_cases f t k with ⟨h, a, hx⟩ | ⟨h, hx⟩
  · rw [hx]
    exact iff_of_true trivial h
  · rw [hx]
    exact iff_of_false id h

theorem bind_both_returns {x : Fallible String (String × String)} {α : Type}
    {k : String × String → Fallible String α} {p : String → String → Prop}
    (h : ∀ f t, (k (f, t)).Returns ↔ p f t) :
    (x >>= k).Returns ↔ x.Returns ∧ ∀ f t, x = .ok (f, t) → p f t := by
  rw [Fallible.returns_bind, Prod.forall]
  simp only [h]

section
variable [FloatMath] [FloatParse]

/-- A duration is an error or a number of seconds, never a panic. -/
theorem requestedDuration_cases (dur : String) :
    ((∃ e, requestedDuration dur = .err e) ∧ durationSecs dur = none) ∨
      ∃ secs, requestedDuration dur = .ok secs ∧ durationSecs dur = some secs.toI64 := by
  have hret := Query.parseDurationSecs_returns dur
  unfold requestedDuration durationSecs
  cases h : Query.parseDurationSecs dur with
  | ok secs =>
    cases secs with
    | none => exact Or.inl ⟨⟨_, rfl⟩, rfl⟩
    | some secs => exact Or.inr ⟨secs, rfl, rfl⟩
  | err e => exact Or.inl ⟨⟨e, rfl⟩, rfl⟩
  | panic => simp [h] at hret

variable [HistoryLibs]

omit [FloatMath] [FloatParse] in
theorem parseFromRfc3339_cases (field s : String) :
    ((∃ e, Chrono.parseFromRfc3339 field s = .err e) ∧ Rfc3339.parse s = none) ∨
      ∃ d, Chrono.parseFromRfc3339 field s = .ok d ∧ Rfc3339.parse s = some d := by
  unfold Chrono.parseFromRfc3339
  cases h : Rfc3339.parse s with
  | none => exact Or.inl ⟨⟨_, rfl⟩, rfl⟩
  | some d => exact Or.inr ⟨d, rfl, rfl⟩

/-- The bounds are found, or refused, exactly if the shift is safe. -/
theorem resolveTimeRange_returns (now : Int) (fromTs toTs duration : Option String) :
    (resolveTimeRange now fromTs toTs duration).Returns ↔
      ShiftSafe now fromTs toTs duration := by
  match fromTs, toTs, duration with
  | none, none, some dur =>
    rcases requestedDuration_cases dur with ⟨⟨e, he⟩, hnone⟩ | ⟨secs, hok, hsome⟩
    · simp [resolveTimeRange, he, ShiftSafe, shift, hnone]
    · simp [resolveTimeRange, hok, ShiftSafe, shift, hsome, sub_seconds_returns]
  | some f, none, some dur =>
    rcases requestedDuration_cases dur with ⟨⟨e, he⟩, hnone⟩ | ⟨secs, hok, hsome⟩
    · simp [resolveTimeRange, he, ShiftSafe, shift, hnone]
    · rcases parseFromRfc3339_cases "from" f with ⟨⟨e, he⟩, hnone⟩ | ⟨d, hd, hparse⟩
      · simp [resolveTimeRange, hok, he, ShiftSafe, shift, hsome, hnone]
      · simp [resolveTimeRange, hok, hd, ShiftSafe, shift, hsome, hparse, add_seconds_returns]
  | none, some t, some dur =>
    rcases requestedDuration_cases dur with ⟨⟨e, he⟩, hnone⟩ | ⟨secs, hok, hsome⟩
    · simp [resolveTimeRange, he, ShiftSafe, shift, hnone]
    · rcases parseFromRfc3339_cases "to" t with ⟨⟨e, he⟩, hnone⟩ | ⟨d, hd, hparse⟩
      · simp [resolveTimeRange, hok, he, ShiftSafe, shift, hsome, hnone]
      · simp [resolveTimeRange, hok, hd, ShiftSafe, shift, hsome, hparse, sub_seconds_returns]
  | some f, none, none => simp [resolveTimeRange, ShiftSafe, shift]
  | some f, some t, _ => simp [resolveTimeRange, ShiftSafe, shift]
  | none, none, none => simp [resolveTimeRange, ShiftSafe, shift, sub_hour_returns]
  | none, some t, none =>
    rcases parseFromRfc3339_cases "to" t with ⟨⟨e, he⟩, hnone⟩ | ⟨d, hd, hparse⟩
    · simp [resolveTimeRange, he, ShiftSafe, shift, hnone]
    · simp [resolveTimeRange, hd, ShiftSafe, shift, hparse, sub_hour_returns]

/-- Bounds that are not taken as they stand can be cut. -/
theorem sliceable_of_ok {now : Int} {fromTs toTs duration : Option String} {f t : String}
    (h : resolveTimeRange now fromTs toTs duration = .ok (f, t))
    (hv : verbatim fromTs toTs duration = []) : Sliceable f ∧ Sliceable t := by
  have hsub {d : Rfc3339.DateTime} {n : Int} {g : Rfc3339.DateTime → String × String}
      (h : (Chrono.sub d n >>= fun e => .ok (g e)) = .ok (f, t)) : ∃ e, g e = (f, t) := by
    cases hd : Chrono.sub d n with
    | ok e => exact ⟨e, by simpa [hd] using h⟩
    | err e => simp [hd] at h
    | panic => simp [hd] at h
  have hseconds {n : Int} {k : Int → Fallible String (String × String)}
      (h : (Chrono.seconds n >>= k) = .ok (f, t)) : ∃ m, k m = .ok (f, t) := by
    cases hn : Chrono.seconds n with
    | ok m => exact ⟨m, by simpa [hn] using h⟩
    | err e => simp [hn] at h
    | panic => simp [hn] at h
  match fromTs, toTs, duration with
  | none, none, some dur =>
    rcases requestedDuration_cases dur with ⟨⟨e, he⟩, _⟩ | ⟨secs, hok, _⟩
    · simp [resolveTimeRange, he] at h
    · simp only [resolveTimeRange, hok, Fallible.bind_ok] at h
      obtain ⟨m, hm⟩ := hseconds h
      obtain ⟨e, he⟩ := hsub hm
      cases he
      exact ⟨sliceable_toRfc3339 e, sliceable_toRfc3339 _⟩
  | some f', none, some dur =>
    rcases requestedDuration_cases dur with ⟨⟨e, he⟩, _⟩ | ⟨secs, hok, _⟩
    · simp [resolveTimeRange, he] at h
    · rcases parseFromRfc3339_cases "from" f' with ⟨⟨e, he⟩, _⟩ | ⟨d, hd, hparse⟩
      · simp [resolveTimeRange, hok, he] at h
      · simp only [resolveTimeRange, hok, hd, Fallible.bind_ok] at h
        obtain ⟨m, hm⟩ := hseconds h
        obtain ⟨e, he⟩ := hsub (n := -m) (by simpa [Chrono.sub] using hm)
        cases he
        exact ⟨sliceable_of_parse hparse, sliceable_toRfc3339 e⟩
  | none, some t', some dur =>
    rcases requestedDuration_cases dur with ⟨⟨e, he⟩, _⟩ | ⟨secs, hok, _⟩
    · simp [resolveTimeRange, he] at h
    · rcases parseFromRfc3339_cases "to" t' with ⟨⟨e, he⟩, _⟩ | ⟨d, hd, hparse⟩
      · simp [resolveTimeRange, hok, he] at h
      · simp only [resolveTimeRange, hok, hd, Fallible.bind_ok] at h
        obtain ⟨m, hm⟩ := hseconds h
        obtain ⟨e, he⟩ := hsub hm
        cases he
        exact ⟨sliceable_toRfc3339 e, sliceable_of_parse hparse⟩
  | some f', none, none => simp [verbatim] at hv
  | some f', some t', _ => simp [verbatim] at hv
  | none, none, none =>
    obtain ⟨e, he⟩ := hsub h
    cases he
    exact ⟨sliceable_toRfc3339 e, sliceable_toRfc3339 _⟩
  | none, some t', none =>
    rcases parseFromRfc3339_cases "to" t' with ⟨⟨e, he⟩, _⟩ | ⟨d, hd, hparse⟩
    · simp [resolveTimeRange, he] at h
    · simp only [resolveTimeRange, hd, Fallible.bind_ok] at h
      obtain ⟨e, he⟩ := hsub h
      cases he
      exact ⟨sliceable_toRfc3339 e, sliceable_of_parse hparse⟩

/-- Bounds are either computed or read, or else taken as they stand. -/
theorem verbatim_cases (now : Int) (fromTs toTs duration : Option String) :
    verbatim fromTs toTs duration = [] ∨
      resolveTimeRange now fromTs toTs duration =
          .ok (fromTs.getD "", toTs.getD (utc now)) ∧
        ((∀ s ∈ verbatim fromTs toTs duration, Sliceable s) ↔
          Sliceable (fromTs.getD "") ∧ Sliceable (toTs.getD (utc now))) := by
  match fromTs, toTs, duration with
  | none, _, _ => exact Or.inl rfl
  | some _, none, some _ => exact Or.inl rfl
  | some f, none, none =>
    right
    refine ⟨rfl, ?_⟩
    have := sliceable_toRfc3339 { instant := now, offset := 0 }
    simp [verbatim, utc, this]
  | some f, some t, _ =>
    right
    refine ⟨rfl, ?_⟩
    simp [verbatim]

/-- What a query does with its bounds once it has them, in terms of the request. -/
theorem bounds_returns (now : Int) (fromTs toTs duration : Option String)
    {p : String → String → Prop} {q : Prop}
    (hp : ∀ f t, Sliceable f ∧ Sliceable t → p f t)
    (hq : p (fromTs.getD "") (toTs.getD (utc now)) ↔
      (Sliceable (fromTs.getD "") ∧ Sliceable (toTs.getD (utc now))) ∨ q) :
    ((resolveTimeRange now fromTs toTs duration).Returns ∧
        ∀ f t, resolveTimeRange now fromTs toTs duration = .ok (f, t) → p f t) ↔
      ShiftSafe now fromTs toTs duration ∧
        ((∀ s ∈ verbatim fromTs toTs duration, Sliceable s) ∨ q) := by
  rw [resolveTimeRange_returns]
  apply and_congr_right
  intro _
  rcases verbatim_cases now fromTs toTs duration with hv | ⟨hok, hv⟩
  · apply iff_of_true
    · intro f t h
      exact hp f t (sliceable_of_ok h hv)
    · left
      simp [hv]
  · rw [hok, hv, ← hq]
    constructor
    · intro h
      exact h _ _ rfl
    · intro h f t heq
      cases heq
      exact h

omit [FloatMath] [FloatParse] in
theorem queryPathValues_cases (db : HistoryDb) (context f t : String) (resolution : Option F64)
    (spec : PathSpec) :
    let x := queryPathValues db context spec.path f t resolution spec.method
    let p := rangeRows db context spec.path f t ≠ [] ∨ Sliceable f ∧ Sliceable t
    (p ∧ ∃ rows, x = .ok rows) ∨ (¬ p ∧ x = .panic) := by
  simp only [queryPathValues]
  split
  · next h => exact Or.inl ⟨Or.inl (List.ne_nil_of_length_pos h), _, rfl⟩
  · next h =>
    have hnil : rangeRows db context spec.path f t = [] :=
      List.eq_nil_of_length_eq_zero (by omega)
    simp only [hnil, ne_eq, not_true_eq_false, false_or]
    exact datePrefixes_cases f t _

omit [FloatMath] [FloatParse] in
theorem collectValues_returns (db : HistoryDb) (context f t : String) (resolution : Option F64)
    (specs : List PathSpec) (n : Nat) (data : List DataRow) :
    (collectValues db context f t resolution specs n data).Returns ↔
      ∀ spec ∈ specs, rangeRows db context spec.path f t ≠ [] ∨ Sliceable f ∧ Sliceable t := by
  induction specs generalizing n data with
  | nil => simp [collectValues]
  | cons spec specs ih =>
    rw [collectValues, List.forall_mem_cons]
    rcases queryPathValues_cases db context f t resolution spec with ⟨hp, rows, hrows⟩ | ⟨hp, hx⟩
    · rw [hrows, Fallible.bind_ok, ih]
      simp only [hp, true_and]
    · rw [hx, Fallible.bind_panic]
      simp only [hp, false_and, Fallible.not_returns_panic]

theorem getValues_returns (now : Int) (db : HistoryDb) (req : ValuesRequest) :
    (getValues now db req).Returns ↔ (HistoryQuery.values req).Safe now db := by
  have hbody (f t : String) : (do
      let data ← collectValues db req.context f t (resolutionSecs req.resolution f t)
        req.pathSpecs 0 []
      .ok ({ context := req.context
             fromTs := f
             toTs := t
             values := req.pathSpecs.map fun spec => (spec.path, spec.method.asStr)
             data := Sqlite.orderBy DataRow.timestamp data } : ValuesResponse) :
        Fallible String ValuesResponse).Returns ↔
      ∀ spec ∈ req.pathSpecs,
        rangeRows db req.context spec.path f t ≠ [] ∨ Sliceable f ∧ Sliceable t := by
    rw [Fallible.returns_bind, collectValues_returns]
    simp
  refine (bind_both_returns hbody).trans (bounds_returns now req.fromTs req.toTs req.duration ?_ ?_)
  · intro f t h spec _
    exact Or.inr h
  · constructor
    · intro h
      by_cases hs : Sliceable (req.fromTs.getD "") ∧ Sliceable (req.toTs.getD (utc now))
      · exact Or.inl hs
      · exact Or.inr fun spec hspec => (h spec hspec).resolve_right hs
    · rintro (h | h) spec hspec
      · exact Or.inr h
      · exact Or.inl (h spec hspec)

theorem getContexts_returns (now : Int) (db : HistoryDb) (req : ContextsRequest) :
    (getContexts now db req).Returns ↔ (HistoryQuery.contexts req).Safe now db :=
  (bind_both_returns fun f t => datePrefixes_return f t _).trans
    (bounds_returns now req.fromTs req.toTs req.duration (fun _ _ h => h) (or_false _).symm.to_iff)

theorem getPaths_returns (now : Int) (db : HistoryDb) (req : PathsRequest) :
    (getPaths now db req).Returns ↔ (HistoryQuery.paths req).Safe now db :=
  (bind_both_returns fun f t => datePrefixes_return f t _).trans
    (bounds_returns now req.fromTs req.toTs req.duration (fun _ _ h => h) (or_false _).symm.to_iff)

theorem answer_returns (now : Int) (db : HistoryDb) (query : HistoryQuery) :
    (query.answer now db).Returns ↔ query.Safe now db := by
  cases query with
  | values req =>
    rw [← getValues_returns, HistoryQuery.answer, Fallible.returns_bind]
    simp
  | contexts req =>
    rw [← getContexts_returns, HistoryQuery.answer, Fallible.returns_bind]
    simp
  | paths req =>
    rw [← getPaths_returns, HistoryQuery.answer, Fallible.returns_bind]
    simp

theorem run_poisoned (now : Int) {st : SharedConnection} (h : st.poisoned = true)
    (query : HistoryQuery) :
    query.run now st = (.err "lock: poisoned lock: another task failed inside", st) := by
  rw [HistoryQuery.run, SharedConnection.withLock, if_pos h]

/-- A query that gets the lock is safe and changes nothing, or it panics and poisons it. -/
theorem run_unpoisoned (now : Int) {st : SharedConnection} (h : st.poisoned = false)
    (query : HistoryQuery) :
    (query.Safe now st.db ∧ (query.run now st).1.Returns ∧ (query.run now st).2 = st) ∨
      (¬ query.Safe now st.db ∧ (query.run now st).1 = .panic ∧
        (query.run now st).2.poisoned = true) := by
  rw [HistoryQuery.run, SharedConnection.withLock, if_neg (by simp [h]), ← answer_returns]
  cases query.answer now st.db with
  | ok a => exact Or.inl ⟨trivial, trivial, rfl⟩
  | err e => exact Or.inl ⟨trivial, trivial, rfl⟩
  | panic => exact Or.inr ⟨id, rfl, rfl⟩

/-- A query returns, and leaves the lock as it was, exactly if it finds the lock poisoned
or is safe. -/
theorem history_query_returns_iff (now : Int) (st : SharedConnection) (query : HistoryQuery) :
    (query.run now st).1.Returns ∧ (query.run now st).2 = st ↔
      st.poisoned = true ∨ query.Safe now st.db := by
  by_cases hp : st.poisoned = true
  · rw [run_poisoned now hp]
    simp [hp]
  · rcases run_unpoisoned now (by simpa using hp) query with ⟨hs, hr⟩ | ⟨hs, hpanic, _⟩
    · exact iff_of_true hr (Or.inr hs)
    · rw [hpanic]
      simp [hp, hs]

/-- Queries one after the other on the same tables. -/
def runQueries (st : SharedConnection) (queries : List (Int × HistoryQuery)) : SharedConnection :=
  queries.foldl (fun st q => (q.2.run q.1 st).2) st

theorem runQueries_poisoned {st : SharedConnection} (h : st.poisoned = true)
    (queries : List (Int × HistoryQuery)) : (runQueries st queries).poisoned = true := by
  induction queries with
  | nil => exact h
  | cons q queries ih =>
    rw [runQueries, List.foldl_cons, run_poisoned q.1 h]
    exact ih

/-- The lock outlives a sequence of queries exactly if every one of them is safe. -/
theorem runQueries_unpoisoned {st : SharedConnection} (h : st.poisoned = false)
    (queries : List (Int × HistoryQuery)) :
    (runQueries st queries).poisoned = false ↔ ∀ q ∈ queries, q.2.Safe q.1 st.db := by
  induction queries with
  | nil => simpa [runQueries] using h
  | cons q queries ih =>
    rw [List.forall_mem_cons, runQueries, List.foldl_cons]
    rcases run_unpoisoned q.1 h q.2 with ⟨hs, _, hst⟩ | ⟨hs, _, hpoisoned⟩
    · rw [hst]
      simp only [hs, true_and]
      exact ih
    · have hlast := runQueries_poisoned hpoisoned queries
      rw [runQueries] at hlast
      simp [hlast, hs]

end

section
attribute [local instance] FloatMath.exact FloatParse.digits HistoryLibs.unused

/-- A duration of more milliseconds than dates have, and a bound whose tenth byte is in the
middle of a character. -/
theorem history_query_panics :
    (¬ ((HistoryQuery.values {
            context := "vessels.self"
            pathSpecs := []
            fromTs := none
            toTs := none
            duration := some "1000000000000000000000"
            resolution := none }).run
          (Rfc3339.startOfYear 2026) { db := HistoryDb.empty, poisoned := false }).1.Returns) ∧
    ((HistoryQuery.contexts {
          fromTs := some "2026-03-0é"
          toTs := some "2026-03-02T13:00:00Z"
          duration := none }).run
        (Rfc3339.startOfYear 2026) { db := HistoryDb.empty, poisoned := false }).2.poisoned = true := by
  decide +kernel

end

end SignalK

import SignalK.Ws.Connection
import Mathlib.Algebra.Order.BigOperators.Group.List

/-! Which vessels' values reach a client. The filter asks a subscription for its
path pattern and never for its context, so a value is let through whenever some
pattern matches it. -/
namespace SignalK.Isolation

def isWildcard (context : String) : Prop :=
  "*" ∈ segments context ∨ "**" ∈ segments context

instance (context : String) : Decidable (isWildcard context) :=
  inferInstanceAs (Decidable (_ ∨ _))

/-- A subscription's context covers a delta's: it is a wildcard, or both name the
same vessel once the spellings of the self vessel are resolved. -/
def coversContext (selfUri : String) (context : String) (deltaContext : Option String) : Prop :=
  isWildcard context ∨ resolveContext selfUri (some context) = resolveContext selfUri deltaContext

/-- What a client has asked for: key → context and path pattern. -/
def asks (subscriptions : Subscriptions) (key : String) : Option (String × String) :=
  (subscriptions.lookup key).map fun sub => (sub.context, sub.path)

/-- Some active subscription's pattern matches the path. -/
def Matched (subscriptions : Subscriptions) (path : String) : Prop :=
  ∃ key context pattern, asks subscriptions key = some (context, pattern) ∧
    matchesPattern pattern path = true

/-- Some active subscription matches the path and covers the context. -/
def Entitled (selfUri : String) (subscriptions : Subscriptions) (path : String)
    (deltaContext : Option String) : Prop :=
  ∃ key context pattern, asks subscriptions key = some (context, pattern) ∧
    matchesPattern pattern path = true ∧ coversContext selfUri context deltaContext

/-- Whatever the clock reads and in whatever order the subscriptions are visited,
every value the filter delivers is one the client is entitled to. -/
def Isolated (selfUri : String) (subscriptions : Subscriptions) (delta : Delta) : Prop :=
  ∀ order clock, KeyOrder order subscriptions →
    ∀ d ∈ (filterDelta order clock subscriptions delta).2, ∀ pv ∈ d.pathValues,
      Entitled selfUri subscriptions pv.path d.context

/-- Every value that some pattern matches is matched by a subscription that also
covers the delta's context. -/
def Covered (selfUri : String) (subscriptions : Subscriptions) (delta : Delta) : Prop :=
  ∀ pv ∈ delta.pathValues, Matched subscriptions pv.path →
    Entitled selfUri subscriptions pv.path delta.context

theorem asks_markSent {subscriptions : Subscriptions} {key : String} {sub : ActiveSubscription}
    (h : subscriptions.lookup key = some sub) (now : Instant) (value : Json) :
    asks (subscriptions.insert key (sub.markSent now value)) = asks subscriptions := by
  funext k
  rw [asks, HashMap.lookup_insert]
  by_cases hk : k = key
  · rw [hk, if_pos rfl, asks, h]
    rfl
  · rw [if_neg hk, asks]

theorem matched_of_shouldDeliver {subscriptions : Subscriptions} {key : String}
    {sub : ActiveSubscription} (h : subscriptions.lookup key = some sub) {now : Instant}
    {path : String} {value : Json} (hd : sub.shouldDeliver now path value = true) :
    Matched subscriptions path := by
  rw [ActiveSubscription.shouldDeliver_eq, Bool.and_eq_true] at hd
  exact ⟨key, sub.context, sub.path, by simp [asks, h], hd.1⟩

/-- Delivering a value changes no subscription's context or pattern, and only
matched values are delivered. -/
theorem filterStep_asks (order : List String) (subscriptions : Subscriptions)
    (e : Reading × PathValue) :
    asks (filterStep order subscriptions e).1 = asks subscriptions ∧
      ∀ pv ∈ (filterStep order subscriptions e).2, pv = e.2 ∧ Matched subscriptions pv.path := by
  cases filterValue_cases e.1 e.2 subscriptions order with
  | inl h =>
    obtain ⟨key, -, sub, hs, hd, hv⟩ := h
    rw [filterStep, hv]
    refine ⟨asks_markSent hs _ _, ?_⟩
    intro pv hpv
    have hpv' : pv = e.2 := List.mem_singleton.mp hpv
    rw [hpv']
    exact ⟨rfl, matched_of_shouldDeliver hs hd⟩
  | inr h =>
    rw [filterStep, h.1]
    exact ⟨rfl, by simp⟩

theorem matched_congr {s t : Subscriptions} (h : asks s = asks t) (path : String) :
    Matched s path ↔ Matched t path := by
  simp only [Matched, h]

/-- The filter lets through only values of the delta that some pattern matches. -/
theorem filterDelta_matched (order : List String) (clock : Nat → Reading)
    (subscriptions : Subscriptions) (delta : Delta) :
    ∀ pv ∈ (filterDelta order clock subscriptions delta).2.flatMap Delta.pathValues,
      pv ∈ delta.pathValues ∧ Matched subscriptions pv.path := by
  have hexec := congrArg Prod.snd (filterDelta_exec order clock subscriptions delta)
  have hmeets : Machine.Meets (filterStep order) (fun _ e => e.2 ∈ delta.pathValues)
      subscriptions (Machine.timed clock delta.pathValues) := by
    refine Machine.meets_of_forall fun e he _ => ?_
    rw [← Machine.timed_snd clock delta.pathValues]
    exact List.mem_map_of_mem he
  have hstep : ∀ s h e,
      (asks s = asks subscriptions ∧
        ∀ pv ∈ h, pv ∈ delta.pathValues ∧ Matched subscriptions pv.path) →
      e.2 ∈ delta.pathValues →
      asks (filterStep order s e).1 = asks subscriptions ∧
        ∀ pv ∈ h ++ (filterStep order s e).2,
          pv ∈ delta.pathValues ∧ Matched subscriptions pv.path := by
    intro s h e hs he
    obtain ⟨hasks, hout⟩ := filterStep_asks order s e
    refine ⟨hasks.trans hs.1, ?_⟩
    intro pv hpv
    cases List.mem_append.mp hpv with
    | inl hpv => exact hs.2 pv hpv
    | inr hpv =>
      obtain ⟨heq, hm⟩ := hout pv hpv
      exact ⟨heq ▸ he, (matched_congr hs.1 pv.path).mp hm⟩
  have hrun := Machine.exec_inv hstep (h := []) ⟨rfl, by simp⟩ hmeets
  rw [List.nil_append, ← hexec] at hrun
  exact hrun.2

/-! A clock under which no window holds a value back. -/

/-- Every last delivery lies at or before an instant. -/
def SentBy (bound : Instant) (subscriptions : Subscriptions) : Prop :=
  ∀ key sub, subscriptions.lookup key = some sub → ∀ last, sub.lastSent = some last → last ≤ bound

theorem exists_sentBy (subscriptions : Subscriptions) : ∃ bound, SentBy bound subscriptions := by
  obtain ⟨l, hl⟩ := HashMap.exists_iterOrder subscriptions
  refine ⟨(l.map fun e => e.2.lastSent.getD 0).sum, ?_⟩
  intro key sub hs last hlast
  have hmem := (hl.mem_iff key sub).mpr hs
  exact List.le_sum_of_mem (List.mem_map.mpr ⟨(key, sub), hmem, by simp [hlast]⟩)

/-- The readings that come later than every window after `bound`. -/
def lateReading (bound : Instant) : Reading where
  check := fun _ => bound + 2 ^ 64 * 1000000
  sent := 0

theorem elapsed_late {bound last : Nat} (h : last ≤ bound) (ms : UInt64) :
    elapsed (bound + 2 ^ 64 * 1000000) last ms = true := by
  have hms : ms.toNat < 2 ^ 64 := ms.toNat_lt
  have hle : ms.toNat * 1000000 ≤ bound + 2 ^ 64 * 1000000 - last := by omega
  exact decide_eq_true hle

theorem due_late {bound : Instant} {sub : ActiveSubscription}
    (h : ∀ last, sub.lastSent = some last → last ≤ bound) (ms : UInt64) (key : String) :
    sub.due ((lateReading bound).check key) ms = true := by
  cases hl : sub.lastSent with
  | none => exact ActiveSubscription.due_fresh hl _ _
  | some last =>
    simp only [ActiveSubscription.due, hl]
    exact elapsed_late (h last hl) ms

theorem sentBy_markSent {bound : Instant} {subscriptions : Subscriptions}
    (h : SentBy bound subscriptions) (key : String) (sub : ActiveSubscription) (value : Json) :
    SentBy bound (subscriptions.insert key (sub.markSent (lateReading bound).sent value)) := by
  intro k s hs last hlast
  rw [HashMap.lookup_insert] at hs
  by_cases hk : k = key
  · rw [if_pos hk] at hs
    cases hs
    cases hlast
    exact Nat.zero_le bound
  · rw [if_neg hk] at hs
    exact h k s hs last hlast

/-- Read that late, every matched value is delivered. -/
theorem exec_late {bound : Instant} {order : List String} (pvs : List PathValue)
    {subscriptions : Subscriptions} (hb : SentBy bound subscriptions)
    (ho : ∀ key, key ∈ order ↔ (asks subscriptions key).isSome) {pv : PathValue} (hpv : pv ∈ pvs)
    (hm : Matched subscriptions pv.path) :
    pv ∈ (Machine.exec (filterStep order) subscriptions
      (Machine.timed (fun _ => lateReading bound) pvs)).2 := by
  induction pvs generalizing subscriptions with
  | nil => cases hpv
  | cons w ws ih =>
    rw [Machine.timed, Machine.exec, List.mem_append]
    have hasks := (filterStep_asks order subscriptions (lateReading bound, w)).1
    by_cases hw : pv = w
    · left
      obtain ⟨key, context, pattern, hask, hpat⟩ := hm
      have hkey : key ∈ order := (ho key).mpr (by rw [hask]; rfl)
      cases filterValue_cases (lateReading bound) w subscriptions order with
      | inl h =>
        obtain ⟨_, _, _, _, _, hv⟩ := h
        rw [filterStep, hv, hw]
        exact List.mem_singleton.mpr rfl
      | inr h =>
        obtain ⟨sub, hs, hsub⟩ := Option.map_eq_some_iff.mp hask
        cases hsub
        have hno := h.2 key hkey sub hs
        rw [ActiveSubscription.shouldDeliver_eq, ← hw, hpat, due_late (hb key sub hs)] at hno
        cases hno
    · right
      have hpv' : pv ∈ ws := List.mem_of_ne_of_mem hw hpv
      have hb' : SentBy bound (filterStep order subscriptions (lateReading bound, w)).1 := by
        cases filterValue_cases (lateReading bound) w subscriptions order with
        | inl h =>
          obtain ⟨key, _, sub, _, _, hv⟩ := h
          rw [filterStep, hv]
          exact sentBy_markSent hb key sub w.value
        | inr h =>
          rw [filterStep, h.1]
          exact hb
      have ho' : ∀ key, key ∈ order ↔
          (asks (filterStep order subscriptions (lateReading bound, w)).1 key).isSome := by
        rw [hasks]
        exact ho
      exact ih hb' ho' hpv' ((matched_congr hasks pv.path).mpr hm)

theorem exists_keyOrder (subscriptions : Subscriptions) :
    ∃ order, KeyOrder order subscriptions := by
  obtain ⟨l, hl⟩ := HashMap.exists_iterOrder subscriptions
  refine ⟨l.map Prod.fst, hl.nodup, ?_⟩
  intro key
  rw [← Finmap.lookup_isSome, Option.isSome_iff_exists, List.mem_map]
  constructor
  · intro h
    obtain ⟨e, he, hk⟩ := h
    exact ⟨e.2, (hl.mem_iff key e.2).mp (hk ▸ he)⟩
  · intro h
    obtain ⟨sub, hs⟩ := h
    exact ⟨(key, sub), (hl.mem_iff key sub).mpr hs, rfl⟩

theorem KeyOrder.asks {order : List String} {subscriptions : Subscriptions}
    (h : KeyOrder order subscriptions) (key : String) :
    key ∈ order ↔ (Isolation.asks subscriptions key).isSome := by
  rw [h.2 key, ← Finmap.lookup_isSome, Isolation.asks, Option.isSome_map]

/-- One delta is delivered isolated exactly when it is covered. -/
theorem isolated_iff_covered (selfUri : String) (subscriptions : Subscriptions) (delta : Delta) :
    Isolated selfUri subscriptions delta ↔ Covered selfUri subscriptions delta := by
  constructor
  · intro h pv hpv hm
    obtain ⟨bound, hb⟩ := exists_sentBy subscriptions
    obtain ⟨order, ho⟩ := exists_keyOrder subscriptions
    have hlate := exec_late delta.pathValues hb (KeyOrder.asks ho) hpv hm
    rw [← congrArg Prod.snd (filterDelta_exec order _ subscriptions delta)] at hlate
    obtain ⟨d, hd, hpvd⟩ := List.mem_flatMap.mp hlate
    have hent := h order _ ho d hd pv hpvd
    rwa [filterDelta_context hd] at hent
  · intro h order clock _ d hd pv hpv
    obtain ⟨hmem, hm⟩ := filterDelta_matched order clock subscriptions delta pv
      (List.mem_flatMap.mpr ⟨d, hd, hpv⟩)
    rw [filterDelta_context hd]
    exact h pv hmem hm

theorem asks_self (key : String) (ask : String × String) :
    asks (initialSubscriptions .self_) key = some ask ↔
      key = "default-self" ∧ ask = ("vessels.self", "**") := by
  have hlookup : asks (initialSubscriptions .self_) key =
      if key = "default-self" then some ("vessels.self", "**") else none := by
    rw [asks, initialSubscriptions, HashMap.collect, List.foldl_cons, List.foldl_nil,
      HashMap.lookup_insert]
    by_cases h : key = "default-self" <;> simp [h, ActiveSubscription.new]
  rw [hlookup]
  by_cases h : key = "default-self" <;> simp [h, eq_comm]

/-- The client of the default mode is isolated on the self vessel's deltas, and
on no other delta that carries a value. -/
theorem self_isolated_iff (selfUri : String) (delta : Delta) :
    Isolated selfUri (initialSubscriptions .self_) delta ↔
      delta.pathValues = [] ∨ resolveContext selfUri delta.context = "vessels." ++ selfUri := by
  have hself : resolveContext selfUri (some "vessels.self") = "vessels." ++ selfUri := by
    simp [resolveContext]
  have hwild : ¬ isWildcard "vessels.self" := by decide
  rw [isolated_iff_covered]
  constructor
  · intro h
    cases hpvs : delta.pathValues with
    | nil => exact .inl rfl
    | cons pv pvs =>
      have hm : Matched (initialSubscriptions .self_) pv.path :=
        ⟨_, _, _, (asks_self _ _).mpr ⟨rfl, rfl⟩, matchesPattern_all _⟩
      obtain ⟨key, context, pattern, hask, -, hcov⟩ := h pv (by simp [hpvs]) hm
      have hctx : context = "vessels.self" := congrArg Prod.fst ((asks_self _ _).mp hask).2
      rw [hctx] at hcov
      cases hcov with
      | inl hw => exact absurd hw hwild
      | inr he => exact .inr (he.symm.trans hself)
  · intro h pv hpv _
    cases h with
    | inl hnil =>
      rw [hnil] at hpv
      cases hpv
    | inr he =>
      exact ⟨_, _, _, (asks_self _ _).mpr ⟨rfl, rfl⟩, matchesPattern_all _,
        .inr (hself.trans he.symm)⟩

/-- A client connected with `subscribe=self` is sent an AIS target's speed. -/
theorem self_client_receives_ais_target :
    let target := Delta.withContext "vessels.urn:mrn:imo:mmsi:230000001"
      [{ source := Source.nmea0183 "ttyUSB0" "AI"
         timestamp := 0
         values := [{ path := "navigation.speedOverGround", value := Json.ofF64 5 }] }]
    let subscriptions := initialSubscriptions .self_
    (filterDelta ["default-self"] (fun _ => lateReading 0) subscriptions target).2 = [target] ∧
      ¬ Isolated "urn:mrn:signalk:uuid:1" subscriptions target := by
  intro target subscriptions
  constructor
  · decide
  · intro h
    have hcases := (self_isolated_iff "urn:mrn:signalk:uuid:1" target).mp h
    revert hcases
    decide

/-- A condition on the deltas of a connection, at the subscriptions they meet. -/
def onBroadcast (cond : Subscriptions → Delta → Prop) (subscriptions : Subscriptions) :
    ClientEvent → Prop
  | .broadcast _ _ delta => cond subscriptions delta
  | .message _ => True

/-- In every run of a connection, from any subscriptions and through any client
messages, the deltas are delivered isolated exactly when each one is covered. -/
theorem run_isolated (selfUri : String) (subscriptions : Subscriptions)
    (events : List ClientEvent) :
    Machine.Meets clientStep (onBroadcast (Isolated selfUri)) subscriptions events ↔
      Machine.Meets clientStep (onBroadcast (Covered selfUri)) subscriptions events := by
  refine Machine.meets_congr ?_ subscriptions events
  intro s e
  cases e with
  | broadcast order clock delta => exact isolated_iff_covered selfUri s delta
  | message msg => exact Iff.rfl

end SignalK.Isolation

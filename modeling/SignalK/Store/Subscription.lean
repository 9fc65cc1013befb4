import SignalK.Lib.Machine
import SignalK.Types.Delta
import SignalK.Types.Path
import SignalK.Types.Ws

/-! The subscriptions of one client and the filter every broadcast delta passes
through. Each value sees its own clock readings, one for every subscription that
is asked and one for the subscription that sends it. -/
namespace SignalK

/-- A monotonic clock reading, in nanoseconds. -/
abbrev Instant := Nat

/-- `now.duration_since(last) >= Duration::from_millis(ms)`; an earlier `now`
counts as no time at all. -/
def elapsed (now last : Instant) (ms : UInt64) : Bool :=
  decide (ms.toNat * 1000000 ≤ now - last)

structure ActiveSubscription where
  context : String
  path : String
  periodMs : UInt64
  policy : SubscriptionPolicy
  minPeriodMs : UInt64
  lastSent : Option Instant
  lastValue : Option Json
  deriving DecidableEq

namespace ActiveSubscription

def new (context path : String) (periodMs : UInt64) (policy : SubscriptionPolicy)
    (minPeriodMs : UInt64) : ActiveSubscription where
  context := context
  path := path
  periodMs := periodMs
  policy := policy
  minPeriodMs := minPeriodMs
  lastSent := none
  lastValue := none

/-- Nothing sent yet, or the window since the last delivery is over. -/
def due (sub : ActiveSubscription) (now : Instant) (ms : UInt64) : Bool :=
  match sub.lastSent with
  | none => true
  | some last => elapsed now last ms

def shouldDeliver (sub : ActiveSubscription) (now : Instant) (path : String) (value : Json) :
    Bool :=
  if !matchesPattern sub.path path then false
  else
    match sub.policy with
    | .instant => sub.due now sub.minPeriodMs
    | .ideal =>
      if value ≠ sub.lastValue.getD .null then sub.due now sub.minPeriodMs
      else sub.due now sub.periodMs
    | .fixed => sub.due now sub.periodMs

def markSent (sub : ActiveSubscription) (now : Instant) (value : Json) : ActiveSubscription :=
  { sub with lastSent := some now, lastValue := some value }

/-- The window a value has to wait for. -/
def window (sub : ActiveSubscription) (value : Json) : UInt64 :=
  match sub.policy with
  | .instant => sub.minPeriodMs
  | .ideal => if value ≠ sub.lastValue.getD .null then sub.minPeriodMs else sub.periodMs
  | .fixed => sub.periodMs

theorem shouldDeliver_eq (sub : ActiveSubscription) (now : Instant) (path : String)
    (value : Json) :
    sub.shouldDeliver now path value =
      (matchesPattern sub.path path && sub.due now (sub.window value)) := by
  cases hm : matchesPattern sub.path path with
  | false => simp [shouldDeliver, hm]
  | true =>
    cases hp : sub.policy with
    | instant => simp [shouldDeliver, hm, hp, window]
    | fixed => simp [shouldDeliver, hm, hp, window]
    | ideal =>
      by_cases hv : value = sub.lastValue.getD .null <;>
        simp [shouldDeliver, hm, hp, window, hv]

theorem due_fresh {sub : ActiveSubscription} (h : sub.lastSent = none) (now : Instant)
    (ms : UInt64) : sub.due now ms = true := by
  simp [due, h]

theorem due_zero (sub : ActiveSubscription) (now : Instant) : sub.due now 0 = true := by
  cases h : sub.lastSent <;> simp [due, h, elapsed]

end ActiveSubscription

/-- The subscriptions of a client under their keys. -/
abbrev Subscriptions := HashMap String ActiveSubscription

/-- The readings one value sees: by each subscription asked, and at sending. -/
structure Reading where
  check : String → Instant
  sent : Instant

/-- An order in which the keys of a map may be visited. -/
def KeyOrder (order : List String) (subscriptions : Subscriptions) : Prop :=
  order.Nodup ∧ ∀ key, key ∈ order ↔ key ∈ subscriptions

/-- The loop over the subscriptions for one value: the first that delivers it is
marked, and the rest are not asked. -/
def filterValue (reading : Reading) (pv : PathValue) (subscriptions : Subscriptions) :
    List String → Subscriptions × List PathValue
  | [] => (subscriptions, [])
  | key :: keys =>
    match subscriptions.lookup key with
    | none => filterValue reading pv subscriptions keys
    | some sub =>
      if sub.shouldDeliver (reading.check key) pv.path pv.value then
        (subscriptions.insert key (sub.markSent reading.sent pv.value), [pv])
      else filterValue reading pv subscriptions keys

def filterValues (order : List String) :
    (Nat → Reading) → Subscriptions → List PathValue → Subscriptions × List PathValue
  | _, subscriptions, [] => (subscriptions, [])
  | clock, subscriptions, pv :: pvs =>
    let (subscriptions, matched) := filterValue (clock 0) pv subscriptions order
    let (subscriptions, rest) :=
      filterValues order (fun n => clock (n + 1)) subscriptions pvs
    (subscriptions, matched ++ rest)

def filterUpdates (order : List String) :
    (Nat → Reading) → Subscriptions → List Update → Subscriptions × List Update
  | _, subscriptions, [] => (subscriptions, [])
  | clock, subscriptions, update :: updates =>
    let (subscriptions, matched) := filterValues order clock subscriptions update.values
    let (subscriptions, rest) :=
      filterUpdates order (fun n => clock (n + update.values.length)) subscriptions updates
    (subscriptions, if matched = [] then rest else { update with values := matched } :: rest)

def filterDelta (order : List String) (clock : Nat → Reading) (subscriptions : Subscriptions)
    (delta : Delta) : Subscriptions × List Delta :=
  let (subscriptions, updates) := filterUpdates order clock subscriptions delta.updates
  (subscriptions,
    if updates = [] then [] else [{ context := delta.context, updates := updates }])

/-! The filter as a machine over single values. -/

/-- One value with its readings. -/
def filterStep (order : List String) (subscriptions : Subscriptions)
    (e : Reading × PathValue) : Subscriptions × List PathValue :=
  filterValue e.1 e.2 subscriptions order

theorem filterValues_exec (order : List String) (clock : Nat → Reading)
    (subscriptions : Subscriptions) (pvs : List PathValue) :
    filterValues order clock subscriptions pvs =
      Machine.exec (filterStep order) subscriptions (Machine.timed clock pvs) := by
  induction pvs generalizing clock subscriptions with
  | nil => rfl
  | cons pv pvs ih =>
    simp only [filterValues, ih]
    rfl

theorem filterUpdates_exec (order : List String) (clock : Nat → Reading)
    (subscriptions : Subscriptions) (updates : List Update) :
    ((filterUpdates order clock subscriptions updates).1,
        (filterUpdates order clock subscriptions updates).2.flatMap (·.values)) =
      Machine.exec (filterStep order) subscriptions
        (Machine.timed clock (updates.flatMap (·.values))) := by
  induction updates generalizing clock subscriptions with
  | nil => rfl
  | cons update updates ih =>
    have hn := ih (fun n => clock (n + update.values.length))
      (filterValues order clock subscriptions update.values).1
    have hkeep : ∀ (pvs : List PathValue) (rest : List Update),
        (if pvs = [] then rest else { update with values := pvs } :: rest).flatMap (·.values) =
          pvs ++ rest.flatMap (·.values) := by
      intro pvs rest
      by_cases hp : pvs = [] <;> simp [hp]
    rw [List.flatMap_cons, Machine.timed_append, Machine.exec_append,
      ← filterValues_exec order clock, ← hn]
    simp only [filterUpdates, hkeep]

/-- The filter delivers what the machine emits, value by value. -/
theorem filterDelta_exec (order : List String) (clock : Nat → Reading)
    (subscriptions : Subscriptions) (delta : Delta) :
    ((filterDelta order clock subscriptions delta).1,
        (filterDelta order clock subscriptions delta).2.flatMap Delta.pathValues) =
      Machine.exec (filterStep order) subscriptions (Machine.timed clock delta.pathValues) := by
  rw [Delta.pathValues, ← filterUpdates_exec]
  by_cases h : (filterUpdates order clock subscriptions delta.updates).2 = [] <;>
    simp [filterDelta, h, Delta.pathValues]

theorem filterDelta_context {order : List String} {clock : Nat → Reading}
    {subscriptions : Subscriptions} {delta d : Delta}
    (h : d ∈ (filterDelta order clock subscriptions delta).2) : d.context = delta.context := by
  by_cases hu : (filterUpdates order clock subscriptions delta.updates).2 = []
  · simp [filterDelta, hu] at h
  · simp only [filterDelta, hu, if_false, List.mem_singleton] at h
    rw [h]

/-- What one value does: either a subscription that wants it takes it, or
nothing happens and no subscription of the order wants it. -/
theorem filterValue_cases (reading : Reading) (pv : PathValue) (subscriptions : Subscriptions)
    (order : List String) :
    (∃ key ∈ order, ∃ sub, subscriptions.lookup key = some sub ∧
        sub.shouldDeliver (reading.check key) pv.path pv.value = true ∧
        filterValue reading pv subscriptions order =
          (subscriptions.insert key (sub.markSent reading.sent pv.value), [pv])) ∨
      (filterValue reading pv subscriptions order = (subscriptions, []) ∧
        ∀ key ∈ order, ∀ sub, subscriptions.lookup key = some sub →
          sub.shouldDeliver (reading.check key) pv.path pv.value = false) := by
  induction order with
  | nil => exact .inr ⟨rfl, by simp⟩
  | cons key keys ih =>
    cases hs : subscriptions.lookup key with
    | none =>
      have hv : filterValue reading pv subscriptions (key :: keys) =
          filterValue reading pv subscriptions keys := by simp [filterValue, hs]
      rw [hv]
      cases ih with
      | inl h =>
        obtain ⟨k, hk, h⟩ := h
        exact .inl ⟨k, List.mem_cons_of_mem _ hk, h⟩
      | inr h =>
        refine .inr ⟨h.1, ?_⟩
        intro k hk sub hsub
        by_cases hkey : k = key
        · rw [hkey, hs] at hsub
          cases hsub
        · exact h.2 k (List.mem_of_ne_of_mem hkey hk) sub hsub
    | some sub =>
      by_cases hd : sub.shouldDeliver (reading.check key) pv.path pv.value = true
      · exact .inl ⟨key, by simp, sub, hs, hd, by simp [filterValue, hs, hd]⟩
      · have hv : filterValue reading pv subscriptions (key :: keys) =
            filterValue reading pv subscriptions keys := by simp [filterValue, hs, hd]
        rw [hv]
        cases ih with
        | inl h =>
          obtain ⟨k, hk, h⟩ := h
          exact .inl ⟨k, List.mem_cons_of_mem _ hk, h⟩
        | inr h =>
          refine .inr ⟨h.1, ?_⟩
          intro k hk other hother
          by_cases hkey : k = key
          · rw [hkey, hs] at hother
            cases hother
            rw [hkey]
            exact Bool.eq_false_iff.mpr hd
          · exact h.2 k (List.mem_of_ne_of_mem hkey hk) other hother

end SignalK

import SignalK.Store.Subscription

/-! Throttling by a single subscription. Its last delivery is kept once for all
the paths its pattern matches, so one path's deliveries can hold another's back. -/
namespace SignalK.Throttle

/-- The subscriptions of a client that has only one. -/
def single (key : String) (sub : ActiveSubscription) : Subscriptions :=
  HashMap.collect [(key, sub)]

/-- A delta filtered at an instant, with what is delivered and when. -/
def deltaStep (key : String) (subscriptions : Subscriptions) (e : Instant × Delta) :
    Subscriptions × List (Instant × PathValue) :=
  let r := filterDelta [key] (fun _ => ⟨fun _ => e.1, e.1⟩) subscriptions e.2
  (r.1, (r.2.flatMap Delta.pathValues).map fun pv => (e.1, pv))

/-- The values of one path in a timed sequence. -/
def onPath (path : String) (tvs : List (Instant × PathValue)) : List (Instant × PathValue) :=
  tvs.filter fun tv => decide (tv.2.path = path)

def timedValues (run : List (Instant × Delta)) : List (Instant × PathValue) :=
  run.flatMap fun e => e.2.pathValues.map fun pv => (e.1, pv)

/-- What a run of timestamped deltas delivers through one fresh subscription. -/
def delivered (key : String) (sub : ActiveSubscription) (run : List (Instant × Delta)) :
    List (Instant × PathValue) :=
  (Machine.exec (deltaStep key) (single key sub) run).2

/-- Runs with the same values of a matched path at the same times deliver the
same values of it at the same times, whatever they say of other paths. -/
def PerPath (sub : ActiveSubscription) : Prop :=
  ∀ key path, matchesPattern sub.path path = true → ∀ run run' : List (Instant × Delta),
    onPath path (timedValues run) = onPath path (timedValues run') →
    onPath path (delivered key sub run) = onPath path (delivered key sub run')

/-- No two paths match the pattern. -/
def SinglePath (pattern : String) : Prop :=
  ∀ p q, matchesPattern pattern p = true → matchesPattern pattern q = true → p = q

/-- Every window that the policy reads is zero. -/
def Unthrottled (policy : SubscriptionPolicy) (periodMs minPeriodMs : UInt64) : Prop :=
  match policy with
  | .instant => minPeriodMs = 0
  | .ideal => periodMs = 0 ∧ minPeriodMs = 0
  | .fixed => periodMs = 0

/-! The filter of a single subscription, one timed value at a time. -/

def offer (sub : ActiveSubscription) (tv : Instant × PathValue) :
    ActiveSubscription × List (Instant × PathValue) :=
  if sub.shouldDeliver tv.1 tv.2.path tv.2.value then (sub.markSent tv.1 tv.2.value, [tv])
  else (sub, [])

theorem filterStep_single (key : String) (sub : ActiveSubscription) (t : Instant)
    (pv : PathValue) :
    ((filterStep [key] (single key sub) (⟨fun _ => t, t⟩, pv)).1,
        (filterStep [key] (single key sub) (⟨fun _ => t, t⟩, pv)).2.map fun pv => (t, pv)) =
      (single key (offer sub (t, pv)).1, (offer sub (t, pv)).2) := by
  have hs : (single key sub).lookup key = some sub := by
    rw [single, HashMap.collect, List.foldl_cons, List.foldl_nil, HashMap.lookup_insert]
    exact if_pos rfl
  by_cases hd : sub.shouldDeliver t pv.path pv.value = true
  · simp [filterStep, filterValue, offer, hd, single, HashMap.collect, Finmap.insert_insert]
  · simp [filterStep, filterValue, hs, offer, hd]

theorem exec_single (key : String) (sub : ActiveSubscription) (t : Instant)
    (pvs : List PathValue) :
    let r := Machine.exec (filterStep [key]) (single key sub)
      (Machine.timed (fun _ => ⟨fun _ => t, t⟩) pvs)
    let r' := Machine.exec offer sub (pvs.map fun pv => (t, pv))
    (r.1, r.2.map fun pv => (t, pv)) = (single key r'.1, r'.2) := by
  intro r r'
  induction pvs generalizing sub with
  | nil => rfl
  | cons pv pvs ih =>
    have hone := Prod.mk.inj (filterStep_single key sub t pv)
    have hrest := Prod.mk.inj (ih (offer sub (t, pv)).1)
    simp only [r, r', Machine.timed, List.map_cons, Machine.exec, List.map_append, hone.1, hone.2,
      hrest.1, hrest.2]

theorem deltaStep_single (key : String) (sub : ActiveSubscription) (e : Instant × Delta) :
    deltaStep key (single key sub) e =
      (single key (Machine.exec offer sub (e.2.pathValues.map fun pv => (e.1, pv))).1,
        (Machine.exec offer sub (e.2.pathValues.map fun pv => (e.1, pv))).2) := by
  have hf := Prod.mk.inj
    (filterDelta_exec [key] (fun _ => ⟨fun _ => e.1, e.1⟩) (single key sub) e.2)
  rw [deltaStep, ← exec_single, ← hf.1, ← hf.2]

theorem delivered_eq (key : String) (sub : ActiveSubscription) (run : List (Instant × Delta)) :
    delivered key sub run = (Machine.exec offer sub (timedValues run)).2 := by
  rw [delivered]
  induction run generalizing sub with
  | nil => rfl
  | cons e es ih =>
    rw [timedValues, List.flatMap_cons, Machine.exec_append, Machine.exec, deltaStep_single, ih]
    rfl

/-! What cannot be throttled, and what only one path uses. -/

theorem offer_path (sub : ActiveSubscription) (tv : Instant × PathValue) :
    (offer sub tv).1.path = sub.path := by
  by_cases hd : sub.shouldDeliver tv.1 tv.2.path tv.2.value = true <;>
    simp [offer, hd, ActiveSubscription.markSent]

theorem offer_unmatched {sub : ActiveSubscription} {tv : Instant × PathValue}
    (h : matchesPattern sub.path tv.2.path = false) : offer sub tv = (sub, []) := by
  simp [offer, ActiveSubscription.shouldDeliver, h]

theorem offer_unthrottled {sub : ActiveSubscription} {tv : Instant × PathValue}
    (hm : matchesPattern sub.path tv.2.path = true)
    (hu : Unthrottled sub.policy sub.periodMs sub.minPeriodMs) :
    offer sub tv = (sub.markSent tv.1 tv.2.value, [tv]) := by
  have hwindow : sub.window tv.2.value = 0 := by
    cases hp : sub.policy with
    | instant => simpa [ActiveSubscription.window, hp, Unthrottled] using hu
    | fixed => simpa [ActiveSubscription.window, hp, Unthrottled] using hu
    | ideal =>
      rw [hp] at hu
      simp [ActiveSubscription.window, hp, hu.1, hu.2]
  simp [offer, ActiveSubscription.shouldDeliver_eq, hm, hwindow, ActiveSubscription.due_zero]

theorem exec_unthrottled {path : String} (tvs : List (Instant × PathValue))
    {sub : ActiveSubscription} (hm : matchesPattern sub.path path = true)
    (hu : Unthrottled sub.policy sub.periodMs sub.minPeriodMs) :
    onPath path (Machine.exec offer sub tvs).2 = onPath path tvs := by
  induction tvs generalizing sub with
  | nil => rfl
  | cons tv tvs ih =>
    have hrest : onPath path (Machine.exec offer (offer sub tv).1 tvs).2 = onPath path tvs := by
      by_cases hd : sub.shouldDeliver tv.1 tv.2.path tv.2.value = true
      · exact ih (by simpa [offer, hd, ActiveSubscription.markSent] using hm)
          (by simpa [offer, hd, ActiveSubscription.markSent] using hu)
      · exact ih (by simpa [offer, hd] using hm) (by simpa [offer, hd] using hu)
    rw [Machine.exec, onPath, List.filter_append, ← onPath, ← onPath, hrest]
    by_cases hp : tv.2.path = path
    · rw [offer_unthrottled (hp ▸ hm) hu]
      simp [onPath, hp]
    · by_cases hd : sub.shouldDeliver tv.1 tv.2.path tv.2.value = true <;>
        simp [onPath, offer, hd, hp]

theorem exec_singlePath {path : String} (tvs : List (Instant × PathValue))
    {sub : ActiveSubscription} (hm : matchesPattern sub.path path = true)
    (hs : SinglePath sub.path) :
    (Machine.exec offer sub tvs).2 = (Machine.exec offer sub (onPath path tvs)).2 := by
  induction tvs generalizing sub with
  | nil => rfl
  | cons tv tvs ih =>
    have hpath := offer_path sub tv
    have hrest : (Machine.exec offer (offer sub tv).1 tvs).2 =
        (Machine.exec offer (offer sub tv).1 (onPath path tvs)).2 :=
      ih (by rw [hpath]; exact hm) (by rw [hpath]; exact hs)
    by_cases hp : tv.2.path = path
    · have hcons : onPath path (tv :: tvs) = tv :: onPath path tvs := by simp [onPath, hp]
      rw [hcons, Machine.exec, Machine.exec, hrest]
    · have hno : matchesPattern sub.path tv.2.path = false := by
        rw [Bool.eq_false_iff]
        exact fun hq => hp (hs _ _ hq hm)
      have hcons : onPath path (tv :: tvs) = onPath path tvs := by simp [onPath, hp]
      rw [offer_unmatched hno] at hrest
      rw [hcons, Machine.exec, offer_unmatched hno, List.nil_append, hrest]

/-- A policy with a window can hold a value back at the instant of a delivery. -/
theorem exists_window {sub : ActiveSubscription} (t : Instant)
    (h : ¬ Unthrottled sub.policy sub.periodMs sub.minPeriodMs) :
    ∃ v w, (sub.markSent t v).window w ≠ 0 := by
  cases hp : sub.policy with
  | instant =>
    have hmin : sub.minPeriodMs ≠ 0 := by simpa [hp, Unthrottled] using h
    exact ⟨.null, .null,
      by simpa [ActiveSubscription.window, ActiveSubscription.markSent, hp] using hmin⟩
  | fixed =>
    have hperiod : sub.periodMs ≠ 0 := by simpa [hp, Unthrottled] using h
    exact ⟨.null, .null,
      by simpa [ActiveSubscription.window, ActiveSubscription.markSent, hp] using hperiod⟩
  | ideal =>
    rw [hp] at h
    by_cases hz : sub.periodMs = 0
    · have hmin : sub.minPeriodMs ≠ 0 := fun hm => h ⟨hz, hm⟩
      exact ⟨.null, .bool true,
        by simpa [ActiveSubscription.window, ActiveSubscription.markSent, hp] using hmin⟩
    · exact ⟨.null, .null,
        by simpa [ActiveSubscription.window, ActiveSubscription.markSent, hp] using hz⟩

theorem offer_fresh {sub : ActiveSubscription} (hl : sub.lastSent = none) {t : Instant}
    {pv : PathValue} (hm : matchesPattern sub.path pv.path = true) :
    offer sub (t, pv) = (sub.markSent t pv.value, [(t, pv)]) := by
  simp [offer, ActiveSubscription.shouldDeliver_eq, hm, ActiveSubscription.due_fresh hl]

theorem offer_held {sub : ActiveSubscription} {t : Instant} {v : Json} {pv : PathValue}
    (hw : (sub.markSent t v).window pv.value ≠ 0) :
    offer (sub.markSent t v) (t, pv) = (sub.markSent t v, []) := by
  have hn : ((sub.markSent t v).window pv.value).toNat ≠ 0 := by
    intro h
    exact hw (UInt64.toNat_inj.mp h)
  have hdue : (sub.markSent t v).due t ((sub.markSent t v).window pv.value) = false := by
    simp only [ActiveSubscription.due, ActiveSubscription.markSent, elapsed, Nat.sub_self]
    refine decide_eq_false ?_
    simp only [ActiveSubscription.markSent] at hn
    omega
  simp [offer, ActiveSubscription.shouldDeliver_eq, hdue]

/-- The delta that carries the given values. -/
def carrying (pvs : List PathValue) : Delta :=
  Delta.selfVessel [{ source := Source.internal, timestamp := 0, values := pvs }]

theorem timedValues_carrying (t : Instant) (pvs : List PathValue) :
    timedValues [(t, carrying pvs)] = pvs.map fun pv => (t, pv) := by
  simp [timedValues, carrying, Delta.selfVessel, Delta.pathValues]

/-- With a window, the delivery of one path holds back the next. -/
theorem singlePath_of_perPath {sub : ActiveSubscription} (hl : sub.lastSent = none)
    (h : PerPath sub) (hu : ¬ Unthrottled sub.policy sub.periodMs sub.minPeriodMs) :
    SinglePath sub.path := by
  intro p q hp hq
  by_contra hpq
  obtain ⟨v, w, hw⟩ := exists_window 0 hu
  have hfirst : offer sub (0, ⟨p, v⟩) = (sub.markSent 0 v, [(0, ⟨p, v⟩)]) := offer_fresh hl hp
  have hheld : offer (sub.markSent 0 v) (0, ⟨q, w⟩) = (sub.markSent 0 v, []) := offer_held hw
  have halone : offer sub (0, ⟨q, w⟩) = (sub.markSent 0 w, [(0, ⟨q, w⟩)]) := offer_fresh hl hq
  have hsame := h "" q hq [(0, carrying [⟨p, v⟩, ⟨q, w⟩])] [(0, carrying [⟨q, w⟩])]
    (by simp [timedValues_carrying, onPath, hpq])
  rw [delivered_eq, delivered_eq, timedValues_carrying, timedValues_carrying] at hsame
  simp only [List.map_cons, List.map_nil, Machine.exec, hfirst, hheld, halone] at hsame
  simp [onPath, hpq] at hsame

/-- A subscription throttles per path exactly when it has no two paths to
confuse or no window to hold a value back with. -/
theorem perPath_iff (context pattern : String) (periodMs : UInt64)
    (policy : SubscriptionPolicy) (minPeriodMs : UInt64) :
    PerPath (ActiveSubscription.new context pattern periodMs policy minPeriodMs) ↔
      SinglePath pattern ∨ Unthrottled policy periodMs minPeriodMs := by
  constructor
  · intro h
    by_cases hu : Unthrottled policy periodMs minPeriodMs
    · exact .inr hu
    · exact .inl (singlePath_of_perPath rfl h hu)
  · intro h key path hm run run' hsame
    rw [delivered_eq, delivered_eq]
    cases h with
    | inl hs =>
      rw [exec_singlePath (timedValues run) hm hs, exec_singlePath (timedValues run') hm hs, hsame]
    | inr hu => rw [exec_unthrottled _ hm hu, exec_unthrottled _ hm hu, hsame]

/-- A heading that comes with a speed is lost to it for the whole period. -/
theorem fixed_wildcard_starves :
    let sub := ActiveSubscription.new "vessels.self" "navigation.*" 1000 .fixed 0
    let speed : PathValue := ⟨"navigation.speedOverGround", Json.ofF64 5⟩
    let heading : PathValue := ⟨"navigation.headingTrue", Json.ofF64 1⟩
    delivered "sub" sub [(0, carrying [speed, heading])] = [(0, speed)] ∧
      delivered "sub" sub [(0, carrying [heading])] = [(0, heading)] ∧
      ¬ PerPath sub := by
  intro sub speed heading
  refine ⟨by decide +kernel, by decide +kernel, ?_⟩
  intro h
  have hsame := h "sub" "navigation.headingTrue" (by decide) [(0, carrying [speed, heading])]
    [(0, carrying [heading])] (by decide +kernel)
  revert hsame
  decide +kernel

/-- A pattern without wildcards names a single path. -/
theorem singlePath_of_literal {pattern : String} (h : "*" ∉ segments pattern)
    (h' : "**" ∉ segments pattern) : SinglePath pattern := by
  have hparts : ∀ ps qs : List String, "*" ∉ ps → "**" ∉ ps → matchesParts ps qs = true →
      ps = qs := by
    intro ps
    induction ps with
    | nil =>
      intro qs _ _ hm
      cases qs with
      | nil => rfl
      | cons q qs => cases hm
    | cons p ps ih =>
      intro qs hs hss hm
      have hp : p ≠ "*" := fun he => hs (he ▸ List.mem_cons_self)
      have hpp : p ≠ "**" := fun he => hss (he ▸ List.mem_cons_self)
      cases qs with
      | nil => simp [matchesParts, hpp] at hm
      | cons q qs =>
        simp only [matchesParts, if_neg hp, if_neg hpp, Bool.and_eq_true, beq_iff_eq] at hm
        rw [hm.1, ih qs (fun hm' => hs (List.mem_cons_of_mem p hm'))
          (fun hm' => hss (List.mem_cons_of_mem p hm')) hm.2]
  intro p q hp hq
  have hp' := hparts _ _ h h' hp
  have hq' := hparts _ _ h h' hq
  exact Text.split_injective '.' (hp'.symm.trans hq')

end SignalK.Throttle

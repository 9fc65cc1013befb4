import SignalK.Lib.Episode
import SignalK.Notifications.Manager

/-! The identity of notifications. The manager tracks a path whatever vessel it is of,
so two vessels with live notifications on one path share an entry. -/
namespace SignalK.Notifications

/-- What the filter reports of one notification value. -/
structure Report where
  context : String
  path : String
  active : Bool
  id : Option String
  silenced : Option Bool
  acknowledged : Option Bool
  deriving DecidableEq

namespace Report

def of (context path : String) (n : Notification) : Report where
  context := context
  path := path
  active := decide (n.state ≠ .normal)
  id := n.id
  silenced := n.status.bind (·.silenced)
  acknowledged := n.status.bind (·.acknowledged)

/-- The report as one of an episode of its vessel and path. -/
def episode (r : Report) : Episode.Report (String × String) (Option String) where
  key := (r.context, r.path)
  active := r.active
  id := r.id

end Report

def reportOf (context : String) (pv : PathValue) : List Report :=
  (pv.notification.map (Report.of context pv.path)).toList

/-- What reaches the manager: deltas with the ids they would be given, API calls. -/
inductive FilterEvent where
  | delta (uuids : Nat → String) (delta : Delta)
  | silence (path : String)
  | acknowledge (path : String)

/-- The same, one value at a time. -/
inductive Call where
  | value (context uuid : String) (isPluginSource : Bool) (pv : PathValue)
  | silence (path : String)
  | acknowledge (path : String)

/-- The manager's step, with a report for every notification value that leaves it. -/
def filterStep (selfUri : String) (m : NotificationManager) :
    FilterEvent → NotificationManager × List Report
  | .delta uuids delta =>
    let out := m.enrichDelta uuids delta
    (out.1, out.2.pathValues.flatMap (reportOf (resolveContext selfUri delta.context)))
  | .silence path => (m.silence path, [])
  | .acknowledge path => (m.acknowledge path, [])

def callStep (m : NotificationManager) : Call → NotificationManager × List Report
  | .value context uuid isPluginSource pv =>
    let out := m.enrichValue uuid isPluginSource pv
    (out.1, reportOf context out.2)
  | .silence path => (m.silence path, [])
  | .acknowledge path => (m.acknowledge path, [])

namespace FilterEvent

def calls (selfUri : String) : FilterEvent → List Call
  | .delta uuids d =>
    (Machine.timed uuids (NotificationManager.flagged d)).map fun e =>
      .value (resolveContext selfUri d.context) e.1 e.2.1 e.2.2
  | .silence path => [.silence path]
  | .acknowledge path => [.acknowledge path]

/-- Everything but the deltas of other vessels. -/
def concerns (selfUri context : String) : FilterEvent → Bool
  | .delta _ d => decide (resolveContext selfUri d.context = context)
  | .silence _ => true
  | .acknowledge _ => true

end FilterEvent

namespace Call

def concerns (context : String) : Call → Bool
  | .value c _ _ _ => decide (c = context)
  | .silence _ => true
  | .acknowledge _ => true

/-- The id a value would be given. -/
def uuid : Call → Option String
  | .value _ uuid _ _ => some uuid
  | .silence _ => none
  | .acknowledge _ => none

/-- What a value means for the episodes of its vessel and path. -/
def event : Call → Option (Episode.Event (String × String) (Option String))
  | .value context uuid _ pv =>
    pv.notification.map fun n =>
      if n.state = .normal then .clear (context, pv.path) n.id
      else .raise (context, pv.path) (some uuid)
  | .silence _ => none
  | .acknowledge _ => none

end Call

/-- Who raised the notification that is live on a path, if one is. -/
def holdStep (holder : String → Option String) : Call → (String → Option String) × List Unit
  | .value context _ _ pv =>
    match pv.notification with
    | none => (holder, [])
    | some n =>
      (Function.update holder pv.path (if n.state = .normal then none else some context), [])
  | .silence _ => (holder, [])
  | .acknowledge _ => (holder, [])

/-- A notification value finds no live notification of another vessel on its path. -/
def Unshared (holder : String → Option String) : Call → Prop
  | .value context _ _ pv =>
    pv.notification.isSome = true → ∀ c ∈ holder pv.path, c = context
  | .silence _ => True
  | .acknowledge _ => True

instance (holder : String → Option String) (c : Call) : Decidable (Unshared holder c) :=
  match c with
  | .value .. => inferInstanceAs (Decidable (_ → ∀ c ∈ _, _))
  | .silence _ => inferInstanceAs (Decidable True)
  | .acknowledge _ => inferInstanceAs (Decidable True)

/-- Identity per vessel and episode, whatever other vessels send. -/
structure IdentityKept (selfUri : String) (events : List FilterEvent) : Prop where
  named : ∀ r ∈ (Machine.exec (filterStep selfUri) ∅ events).2, r.active = true → r.id.isSome
  episodes : Episode.Identified
    ((Machine.exec (filterStep selfUri) ∅ events).2.map Report.episode)
  separate : ∀ context,
    (Machine.exec (filterStep selfUri) ∅ events).2.filter (fun r => decide (r.context = context)) =
      (Machine.exec (filterStep selfUri) ∅ (events.filter (·.concerns selfUri context))).2

/-! Deltas as calls. -/

attribute [local simp] filterStep callStep FilterEvent.calls holdStep reportOf

theorem exec_values (context : String) (m : NotificationManager)
    (es : List (String × Bool × PathValue)) :
    Machine.exec callStep m (es.map fun e => .value context e.1 e.2.1 e.2.2) =
      ((Machine.exec NotificationManager.enrichStep m es).1,
        (Machine.exec NotificationManager.enrichStep m es).2.flatMap (reportOf context)) := by
  induction es generalizing m with
  | nil => rfl
  | cons e es ih =>
    rw [List.map_cons, Machine.exec, ih, Machine.exec, List.flatMap_append]
    simp [callStep, NotificationManager.enrichStep]

theorem filterStep_exec (selfUri : String) (m : NotificationManager) (e : FilterEvent) :
    filterStep selfUri m e = Machine.exec callStep m (e.calls selfUri) := by
  cases e with
  | delta uuids delta =>
    rw [FilterEvent.calls, exec_values, filterStep]
    rw [NotificationManager.enrichDelta_manager, NotificationManager.enrichDelta_pathValues]
    rfl
  | silence path => rfl
  | acknowledge path => rfl

theorem exec_calls (selfUri : String) (m : NotificationManager) (events : List FilterEvent) :
    Machine.exec (filterStep selfUri) m events =
      Machine.exec callStep m (events.flatMap (·.calls selfUri)) :=
  Machine.exec_flatMap (filterStep_exec selfUri) m events

theorem calls_filter (selfUri context : String) (events : List FilterEvent) :
    (events.filter (·.concerns selfUri context)).flatMap (·.calls selfUri) =
      (events.flatMap (·.calls selfUri)).filter (·.concerns context) := by
  have hone : ∀ e : FilterEvent, (e.calls selfUri).filter (·.concerns context) =
      if e.concerns selfUri context = true then e.calls selfUri else [] := by
    intro e
    cases e with
    | delta uuids delta =>
      by_cases hc : resolveContext selfUri delta.context = context <;>
        simp [FilterEvent.calls, FilterEvent.concerns, Call.concerns, List.filter_map,
          Function.comp_def, hc]
    | silence path => rfl
    | acknowledge path => rfl
  induction events with
  | nil => rfl
  | cons e events ih =>
    rw [List.flatMap_cons, List.filter_append, hone, ← ih, List.filter_cons]
    split_ifs <;> simp

/-! What one value does to the entries and reports of it. -/

/-- The entry that a notification leaves on its path. -/
def entryAfter (old : Option NotificationEntry) (uuid : String) (isPluginSource : Bool)
    (n : Notification) : Option NotificationEntry :=
  if n.state = .normal then none else some (old.getD (.raised uuid isPluginSource))

/-- The notification that leaves the filter. -/
def enrichedBy (old : Option NotificationEntry) (uuid : String) (isPluginSource : Bool)
    (n : Notification) : Notification :=
  if n.state = .normal then n.cleared old else n.enriched (old.getD (.raised uuid isPluginSource))

theorem callStep_other {m : NotificationManager} {pv : PathValue} (context uuid : String)
    (isPluginSource : Bool) (h : pv.notification = none) :
    callStep m (.value context uuid isPluginSource pv) = (m, []) := by
  rw [callStep, NotificationManager.enrichValue_other uuid isPluginSource h, reportOf, h]
  rfl

theorem reportOf_toValue {pv : PathValue} {n : Notification} (context : String)
    (h : pv.notification = some n) (n' : Notification) :
    reportOf context { pv with value := n'.toValue } = [Report.of context pv.path n'] := by
  rw [reportOf, PathValue.notification_toValue h n']
  rfl

theorem callStep_value {m : NotificationManager} {pv : PathValue} {n : Notification}
    (context uuid : String) (isPluginSource : Bool) (h : pv.notification = some n) :
    (callStep m (.value context uuid isPluginSource pv)).2 =
        [Report.of context pv.path (enrichedBy (m.lookup pv.path) uuid isPluginSource n)] ∧
      ∀ p, (callStep m (.value context uuid isPluginSource pv)).1.lookup p =
        if p = pv.path then entryAfter (m.lookup pv.path) uuid isPluginSource n
        else m.lookup p := by
  by_cases hs : n.state = .normal
  · rw [callStep, NotificationManager.enrichValue_clear uuid isPluginSource h hs]
    refine ⟨?_, fun p => ?_⟩
    · simp only [reportOf_toValue context h, enrichedBy, if_pos hs]
    · simp only [HashMap.lookup_erase, entryAfter, if_pos hs]
  · rw [callStep, NotificationManager.enrichValue_active uuid isPluginSource h hs]
    refine ⟨?_, fun p => ?_⟩
    · simp only [reportOf_toValue context h, enrichedBy, if_neg hs, NotificationManager.live]
    · simp only [HashMap.lookup_insert, entryAfter, if_neg hs, NotificationManager.live]

theorem holdStep_value {holder : String → Option String} {pv : PathValue} {n : Notification}
    (context uuid : String) (isPluginSource : Bool) (h : pv.notification = some n) (p : String) :
    (holdStep holder (.value context uuid isPluginSource pv)).1 p =
      if p = pv.path then (if n.state = .normal then none else some context) else holder p := by
  simp only [holdStep, h, Function.update_apply]

theorem event_other {pv : PathValue} (context uuid : String) (isPluginSource : Bool)
    (h : pv.notification = none) : (Call.value context uuid isPluginSource pv).event = none := by
  simp [Call.event, h]

theorem event_clear {pv : PathValue} {n : Notification} (context uuid : String)
    (isPluginSource : Bool) (h : pv.notification = some n) (hs : n.state = .normal) :
    (Call.value context uuid isPluginSource pv).event = some (.clear (context, pv.path) n.id) := by
  simp [Call.event, h, hs]

theorem event_raise {pv : PathValue} {n : Notification} (context uuid : String)
    (isPluginSource : Bool) (h : pv.notification = some n) (hs : n.state ≠ .normal) :
    (Call.value context uuid isPluginSource pv).event =
      some (.raise (context, pv.path) (some uuid)) := by
  simp [Call.event, h, hs]

theorem callStep_sync {c : Call} (path : String)
    (h : c = .silence path ∨ c = .acknowledge path) :
    ∃ f : NotificationEntry → NotificationEntry, (∀ e, (f e).id = e.id) ∧
      ∀ m, callStep m c = (m.modify path f, []) := by
  obtain rfl | rfl := h
  · exact ⟨({ · with silenced := true }), fun _ => rfl, fun _ => rfl⟩
  · exact ⟨({ · with acknowledged := true }), fun _ => rfl, fun _ => rfl⟩

/-! As long as no path is shared, the entry of a path is the one of its holder. -/

/-- No entry without a holder. -/
def Held (m : NotificationManager) (holder : String → Option String) : Prop :=
  ∀ p, holder p = none → m.lookup p = none

section
variable {m : NotificationManager} {holder : String → Option String}

theorem Held.step (h : Held m holder) (c : Call) :
    Held (callStep m c).1 (holdStep holder c).1 := by
  cases c with
  | value context uuid isPluginSource pv =>
    cases hn : pv.notification with
    | none =>
      rw [callStep_other context uuid isPluginSource hn]
      simpa only [holdStep, hn] using h
    | some n =>
      intro p hp
      rw [holdStep_value context uuid isPluginSource hn] at hp
      rw [(callStep_value context uuid isPluginSource hn).2]
      split_ifs at hp ⊢ with hpath hs
      · rw [entryAfter, if_pos hs]
      · exact h p hp
  | silence path =>
    intro p hp
    exact NotificationManager.lookup_modify_eq_none (h p hp) path _
  | acknowledge path =>
    intro p hp
    exact NotificationManager.lookup_modify_eq_none (h p hp) path _

/-- The live id of each vessel and path. -/
def liveIds (m : NotificationManager) (holder : String → Option String) :
    String × String → Option (Option String) :=
  fun k => if holder k.2 = some k.1 then (m.lookup k.2).map fun e => some e.id else none

/-- A vessel that may write to a path finds the entry that its episode has. -/
theorem Held.liveIds_eq (h : Held m holder) {context path : String}
    (hc : ∀ c ∈ holder path, c = context) :
    liveIds m holder (context, path) = (m.lookup path).map fun e => some e.id := by
  cases hp : holder path with
  | none => simp [liveIds, hp, h path hp]
  | some c =>
    have he : c = context := hc c hp
    simp [liveIds, hp, he]

/-- A notification changes the live id of its vessel and path only. -/
theorem liveIds_value {context : String} {pv : PathValue}
    {n : Notification} (uuid : String) (isPluginSource : Bool) (hn : pv.notification = some n)
    (hc : ∀ c ∈ holder pv.path, c = context) :
    liveIds (callStep m (.value context uuid isPluginSource pv)).1
        (holdStep holder (.value context uuid isPluginSource pv)).1 =
      Function.update (liveIds m holder) (context, pv.path)
        ((entryAfter (m.lookup pv.path) uuid isPluginSource n).map fun e => some e.id) := by
  have hlookup := (callStep_value (m := m) context uuid isPluginSource hn).2
  have hholder := @holdStep_value holder pv n context uuid isPluginSource hn
  funext k
  rw [Function.update_apply, liveIds, hlookup, hholder]
  by_cases hp : k.2 = pv.path
  · rw [if_pos hp, if_pos hp]
    by_cases hk : k = (context, pv.path)
    · rw [if_pos hk]
      by_cases hs : n.state = .normal
      · simp [hs, entryAfter]
      · simp [hs, hk]
    · have hne : context ≠ k.1 := fun he => hk (Prod.ext he.symm hp)
      have hold : holder k.2 ≠ some k.1 := fun hh => hne (hc k.1 (hp ▸ hh)).symm
      rw [if_neg hk, liveIds, if_neg hold]
      by_cases hs : n.state = .normal
      · simp [hs]
      · simp [hs, hne]
  · have hk : k ≠ (context, pv.path) := fun hk => hp (congrArg Prod.snd hk)
    rw [if_neg hp, if_neg hp, if_neg hk, liveIds]

/-- An API call changes no id. -/
theorem liveIds_modify (path : String) {f : NotificationEntry → NotificationEntry}
    (hf : ∀ e, (f e).id = e.id) : liveIds (m.modify path f) holder = liveIds m holder := by
  funext k
  rw [liveIds, liveIds, NotificationManager.lookup_modify]
  by_cases hk : k.2 = path
  · rw [hk, if_pos rfl]
    simp [Option.map_map, Function.comp_def, hf]
  · rw [if_neg hk]

/-- One call is the step of the episodes that it means. -/
theorem Held.episode_step (h : Held m holder) {c : Call} (hc : Unshared holder c) :
    Machine.exec Episode.step (liveIds m holder) c.event.toList =
      (liveIds (callStep m c).1 (holdStep holder c).1, (callStep m c).2.map Report.episode) := by
  cases c with
  | silence path =>
    obtain ⟨f, hid, hstep⟩ := callStep_sync path (.inl rfl)
    rw [hstep, holdStep, liveIds_modify path hid]
    rfl
  | acknowledge path =>
    obtain ⟨f, hid, hstep⟩ := callStep_sync path (.inr rfl)
    rw [hstep, holdStep, liveIds_modify path hid]
    rfl
  | value context uuid isPluginSource pv =>
    cases hn : pv.notification with
    | none =>
      rw [callStep_other context uuid isPluginSource hn, event_other context uuid isPluginSource hn]
      simp only [holdStep, hn]
      rfl
    | some n =>
      have hown : ∀ c ∈ holder pv.path, c = context := hc (by rw [hn]; rfl)
      have hlive := h.liveIds_eq hown
      rw [liveIds_value uuid isPluginSource hn hown,
        (callStep_value context uuid isPluginSource hn).1]
      by_cases hs : n.state = .normal
      · rw [event_clear context uuid isPluginSource hn hs, entryAfter, if_pos hs, enrichedBy, if_pos hs]
        cases hm : m.lookup pv.path <;>
          simp [Machine.exec, Episode.step, hlive, hm, Report.episode, Report.of,
            Notification.cleared, hs]
      · rw [event_raise context uuid isPluginSource hn hs, entryAfter, if_neg hs, enrichedBy, if_neg hs]
        cases hm : m.lookup pv.path <;>
          simp [Machine.exec, Episode.step, hlive, hm, Report.episode, Report.of,
            Notification.enriched, NotificationEntry.raised, hs]

theorem Held.exec_episodes (h : Held m holder) {calls : List Call}
    (hm : Machine.Meets holdStep Unshared holder calls) :
    (Machine.exec callStep m calls).2.map Report.episode =
      (Machine.exec Episode.step (liveIds m holder) (calls.flatMap (·.event.toList))).2 := by
  induction calls generalizing m holder with
  | nil => rfl
  | cons c calls ih =>
    rw [List.flatMap_cons, Machine.exec_append, h.episode_step hm.1, Machine.exec, List.map_append,
      ih (h.step c) hm.2]

/-- The run with the other vessels' values dropped has the entries that the vessel holds. -/
def Restricts (context : String) (m m' : NotificationManager) (holder : String → Option String) :
    Prop :=
  ∀ p, m'.lookup p = if holder p = some context then m.lookup p else none

theorem Restricts.modify {context : String} {m' : NotificationManager}
    (h : Restricts context m m' holder) (path : String)
    (f : NotificationEntry → NotificationEntry) :
    Restricts context (m.modify path f) (m'.modify path f) holder := by
  intro p
  rw [NotificationManager.lookup_modify, NotificationManager.lookup_modify, h, h]
  by_cases hp : p = path
  · subst hp
    split_ifs <;> rfl
  · rw [if_neg hp, if_neg hp]

/-- A value of the vessel itself is reported alike in both runs. -/
theorem Restricts.own {context : String} {m' : NotificationManager}
    (h : Restricts context m m' holder) (held : Held m holder) (uuid : String)
    (isPluginSource : Bool) {pv : PathValue}
    (hc : Unshared holder (.value context uuid isPluginSource pv)) :
    (callStep m' (.value context uuid isPluginSource pv)).2 =
        (callStep m (.value context uuid isPluginSource pv)).2 ∧
      Restricts context (callStep m (.value context uuid isPluginSource pv)).1
        (callStep m' (.value context uuid isPluginSource pv)).1
        (holdStep holder (.value context uuid isPluginSource pv)).1 := by
  cases hn : pv.notification with
  | none =>
    rw [callStep_other context uuid isPluginSource hn, callStep_other context uuid isPluginSource hn]
    refine ⟨rfl, ?_⟩
    simpa only [holdStep, hn] using h
  | some n =>
    have hsame : m'.lookup pv.path = m.lookup pv.path := by
      rw [h]
      cases hp : holder pv.path with
      | none => simp [held pv.path hp]
      | some c =>
        have hown : c = context := hc (by rw [hn]; rfl) c hp
        simp [hown]
    obtain ⟨hreport, hlookup⟩ := callStep_value (m := m) context uuid isPluginSource hn
    obtain ⟨hreport', hlookup'⟩ := callStep_value (m := m') context uuid isPluginSource hn
    refine ⟨by rw [hreport, hreport', hsame], fun p => ?_⟩
    rw [hlookup, hlookup', holdStep_value context uuid isPluginSource hn, hsame, h]
    by_cases hp : p = pv.path
    · by_cases hs : n.state = .normal
      · simp [hp, hs, entryAfter]
      · simp [hp, hs]
    · simp [hp]

/-- A value of another vessel touches nothing that the vessel holds. -/
theorem Restricts.other {context c : String} {m' : NotificationManager}
    (h : Restricts context m m' holder) (hne : c ≠ context) (uuid : String)
    (isPluginSource : Bool) {pv : PathValue}
    (hc : Unshared holder (.value c uuid isPluginSource pv)) :
    Restricts context (callStep m (.value c uuid isPluginSource pv)).1 m'
      (holdStep holder (.value c uuid isPluginSource pv)).1 := by
  cases hn : pv.notification with
  | none =>
    rw [callStep_other c uuid isPluginSource hn]
    simpa only [holdStep, hn] using h
  | some n =>
    intro p
    rw [(callStep_value c uuid isPluginSource hn).2, holdStep_value c uuid isPluginSource hn, h]
    by_cases hp : p = pv.path
    · have hfree : holder pv.path ≠ some context := by
        intro hh
        exact hne (hc (by rw [hn]; rfl) context hh).symm
      by_cases hs : n.state = .normal
      · simp [hp, hs, hfree]
      · simp [hp, hs, hfree, hne]
    · simp [hp]

/-- Every report of a call is of the call's vessel. -/
theorem report_context (m : NotificationManager) (context uuid : String) (isPluginSource : Bool)
    (pv : PathValue) :
    ∀ r ∈ (callStep m (.value context uuid isPluginSource pv)).2, r.context = context := by
  intro r hr
  simp only [callStep, reportOf, Option.mem_toList, Option.map_eq_some_iff] at hr
  obtain ⟨n, -, rfl⟩ := hr
  rfl

theorem Restricts.exec {context : String} {m' : NotificationManager}
    (h : Restricts context m m' holder) (held : Held m holder) {calls : List Call}
    (hm : Machine.Meets holdStep Unshared holder calls) :
    (Machine.exec callStep m calls).2.filter (fun r => decide (r.context = context)) =
      (Machine.exec callStep m' (calls.filter (·.concerns context))).2 := by
  induction calls generalizing m m' holder with
  | nil => rfl
  | cons c calls ih =>
    have hnext := held.step c
    rw [Machine.exec, List.filter_append]
    cases c with
    | silence path => exact ih (h.modify path _) hnext hm.2
    | acknowledge path => exact ih (h.modify path _) hnext hm.2
    | value c uuid isPluginSource pv =>
      have hctx := report_context m c uuid isPluginSource pv
      by_cases hc : c = context
      · subst hc
        obtain ⟨hreport, hrest⟩ := h.own held uuid isPluginSource hm.1
        have hall : (callStep m (.value c uuid isPluginSource pv)).2.filter
            (fun r => decide (r.context = c)) = (callStep m (.value c uuid isPluginSource pv)).2 :=
          List.filter_eq_self.mpr fun r hr => decide_eq_true (hctx r hr)
        rw [List.filter_cons_of_pos (by simp [Call.concerns]), Machine.exec, hall, hreport,
          ih hrest hnext hm.2]
      · have hnone : (callStep m (.value c uuid isPluginSource pv)).2.filter
            (fun r => decide (r.context = context)) = [] :=
          List.filter_eq_nil_iff.mpr fun r hr => by simp [hctx r hr, hc]
        rw [List.filter_cons_of_neg (by simp [Call.concerns, hc]), hnone, List.nil_append]
        exact ih (h.other hc uuid isPluginSource hm.1) hnext hm.2

end

/-- An active report carries the id of an entry. -/
theorem callStep_named (m : NotificationManager) (c : Call) :
    ∀ r ∈ (callStep m c).2, r.active = true → r.id.isSome := by
  cases c with
  | silence path => exact fun r hr => nomatch hr
  | acknowledge path => exact fun r hr => nomatch hr
  | value context uuid isPluginSource pv =>
    cases hn : pv.notification with
    | none =>
      rw [callStep_other context uuid isPluginSource hn]
      exact fun r hr => nomatch hr
    | some n =>
      rw [(callStep_value context uuid isPluginSource hn).1]
      intro r hr hact
      rw [List.mem_singleton.mp hr] at hact ⊢
      by_cases hs : n.state = .normal
      · simp [Report.of, enrichedBy, hs, Notification.cleared] at hact
      · simp [Report.of, enrichedBy, hs, Notification.enriched]

theorem fresh_sublist (calls : List Call) :
    ((calls.flatMap (·.event.toList)).filterMap Episode.Event.fresh).Sublist
      ((calls.filterMap Call.uuid).map some) := by
  induction calls with
  | nil => exact List.Sublist.slnil
  | cons c calls ih =>
    rw [List.flatMap_cons, List.filterMap_append, List.filterMap_cons]
    cases c with
    | silence path => exact ih
    | acknowledge path => exact ih
    | value context uuid isPluginSource pv =>
      cases hn : pv.notification with
      | none =>
        rw [event_other context uuid isPluginSource hn]
        exact ih.cons (some uuid)
      | some n =>
        by_cases hs : n.state = .normal
        · rw [event_clear context uuid isPluginSource hn hs]
          exact ih.cons (some uuid)
        · rw [event_raise context uuid isPluginSource hn hs]
          exact ih.cons_cons (some uuid)

/-- Whatever the deltas and API calls, with fresh ids all different, as long as no
notification value finds a live notification of another vessel on its path. -/
theorem identity_kept (selfUri : String) (events : List FilterEvent)
    (hfresh : ((events.flatMap (·.calls selfUri)).filterMap Call.uuid).Nodup)
    (hm : Machine.Meets holdStep Unshared (fun _ => none) (events.flatMap (·.calls selfUri))) :
    IdentityKept selfUri events := by
  have held : Held ∅ (fun _ => none) := fun p _ => Finmap.lookup_empty p
  constructor
  case named =>
    rw [exec_calls]
    exact Machine.emitted_of_meets (fun m c _ => callStep_named m c) (Machine.meets_true _ _ _)
  case episodes =>
    rw [exec_calls, held.exec_episodes hm]
    have hlive : liveIds ∅ (fun _ => none) = fun _ => none := by
      funext k
      simp [liveIds]
    rw [hlive]
    apply Episode.exec_identified
    apply List.Nodup.sublist (fresh_sublist _)
    exact hfresh.map (Option.some_injective _)
  case separate =>
    intro context
    rw [exec_calls, exec_calls, calls_filter]
    refine Restricts.exec (fun p => ?_) held hm
    simp

/-- A vessel's notification about its anchor, in a delta of its own. -/
abbrev anchorDelta (context uuid : String) (state : NotificationState) : FilterEvent :=
  .delta (fun _ => uuid) (Delta.withContext context [⟨Source.plugin "anchor-alarm", 0,
    [⟨"notifications.navigation.anchor", (Notification.mk none state [.sound] "" none).toValue⟩]⟩])

abbrev ownShip : String := "vessels.urn:mrn:signalk:uuid:1"

abbrev otherShip : String := "vessels.urn:mrn:imo:mmsi:230000001"

/-- The other ship raises its notification when ours is over. -/
abbrev oneAfterTheOther : List FilterEvent :=
  [anchorDelta ownShip "a" .alarm, .silence "notifications.navigation.anchor",
    anchorDelta ownShip "b" .emergency, anchorDelta ownShip "c" .normal,
    anchorDelta otherShip "d" .alarm]

/-- The other ship raises and clears its notification while ours is live. -/
abbrev sharedPath : List FilterEvent :=
  [anchorDelta ownShip "a" .alarm, anchorDelta otherShip "b" .alarm,
    anchorDelta otherShip "c" .normal, anchorDelta ownShip "d" .alarm]

theorem identity_kept_one_after_the_other :
    IdentityKept "urn:mrn:signalk:uuid:1" oneAfterTheOther :=
  identity_kept "urn:mrn:signalk:uuid:1" oneAfterTheOther (by decide +kernel) (by decide +kernel)

/-- The two vessels get one id, the clear of one ends the episode of the other. -/
theorem shared_path_shares_identity :
    (Machine.exec (filterStep "urn:mrn:signalk:uuid:1") ∅ sharedPath).2.map Report.episode =
      [⟨(ownShip, "notifications.navigation.anchor"), true, some "a"⟩,
        ⟨(otherShip, "notifications.navigation.anchor"), true, some "a"⟩,
        ⟨(otherShip, "notifications.navigation.anchor"), false, some "a"⟩,
        ⟨(ownShip, "notifications.navigation.anchor"), true, some "d"⟩] ∧
      ¬ IdentityKept "urn:mrn:signalk:uuid:1" sharedPath := by
  have hreports : (Machine.exec (filterStep "urn:mrn:signalk:uuid:1") ∅ sharedPath).2.map
      Report.episode =
      [⟨(ownShip, "notifications.navigation.anchor"), true, some "a"⟩,
        ⟨(otherShip, "notifications.navigation.anchor"), true, some "a"⟩,
        ⟨(otherShip, "notifications.navigation.anchor"), false, some "a"⟩,
        ⟨(ownShip, "notifications.navigation.anchor"), true, some "d"⟩] := by
    decide +kernel
  refine ⟨hreports, fun h => ?_⟩
  have hepisodes := h.episodes
  rw [hreports] at hepisodes
  exact hepisodes.distinct [] _ [] _ _ rfl rfl rfl (fun hc => absurd hc.1 (by decide)) rfl

end SignalK.Notifications

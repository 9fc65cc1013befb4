import SignalK.Course.Calls
import SignalK.Notifications.Api
import SignalK.Plugins.Host

/-! Whether the notification manager agrees with the store. The manager has changed its
entries before later filters and the store decide what becomes of a delta, and the server
writes an arrival past the filters. -/
namespace SignalK.Notifications

def isNotification (path : String) : Bool := Text.startsWith path "notifications."

/-- A value with the source and the time of its update. -/
abbrev Reported := Source × DateTime × PathValue

def reportedValues (updates : List Update) : List Reported :=
  updates.flatMap fun u => u.values.map (u.source, u.timestamp, ·)

/-! The filters after the manager. -/

/-- Values have changed in their places, but no notification. -/
def Spared (delta delta' : Delta) : Prop :=
  delta'.context = delta.context ∧
    List.Forall₂ (fun v v' : Reported => v' = v ∨
      isNotification v.2.2.path = false ∧ isNotification v'.2.2.path = false)
      (reportedValues delta.updates) (reportedValues delta'.updates)

/-- A filter passes, changes or drops a delta, and leaves the notifications in it alone. -/
def Sparing (filter : Delta → Option Delta) : Prop :=
  ∀ delta delta', filter delta = some delta' → Spared delta delta'

theorem Spared.refl (delta : Delta) : Spared delta delta :=
  ⟨rfl, List.forall₂_same.mpr fun _ _ => .inl rfl⟩

theorem Spared.trans {d d' d'' : Delta} (h : Spared d d') (h' : Spared d' d'') : Spared d d'' := by
  refine ⟨h'.1.trans h.1, ?_⟩
  have hvalues := h.2
  have hvalues' := h'.2
  generalize reportedValues d.updates = l at hvalues
  generalize reportedValues d'.updates = l' at hvalues hvalues'
  generalize reportedValues d''.updates = l'' at hvalues'
  induction hvalues generalizing l'' with
  | nil =>
    cases hvalues'
    exact .nil
  | cons hv _ ih =>
    cases hvalues' with
    | cons hv' hrest =>
      refine .cons ?_ (ih _ hrest)
      obtain rfl | ⟨hno, hno'⟩ := hv
      · exact hv'
      · obtain rfl | ⟨-, hno''⟩ := hv'
        · exact .inr ⟨hno, hno'⟩
        · exact .inr ⟨hno, hno''⟩

def handler (uuids : Nat → String) : DeltaInputHandler NotificationManager :=
  fun m delta => ((m.enrichDelta uuids delta).1, some (m.enrichDelta uuids delta).2)

/-- A filter of a plugin; it does not see the entries of the manager. -/
def pluginHandler (filter : Delta → Option Delta) : DeltaInputHandler NotificationManager :=
  fun m delta => (m, filter delta)

/-- The manager is registered first. -/
def chain (uuids : Nat → String) (filters : List (Delta → Option Delta)) :
    DeltaFilterChain NotificationManager :=
  handler uuids :: filters.map pluginHandler

/-- What the filters of the plugins make of a delta. -/
def passed (filters : List (Delta → Option Delta)) (delta : Delta) : Option Delta :=
  filters.foldlM (fun delta filter => filter delta) delta

theorem apply_plugins (m : NotificationManager) (filters : List (Delta → Option Delta))
    (delta : Delta) :
    DeltaFilterChain.apply m delta (filters.map pluginHandler) = (m, passed filters delta) := by
  induction filters generalizing delta with
  | nil => rfl
  | cons filter filters ih =>
    simp only [List.map_cons, DeltaFilterChain.apply, pluginHandler, passed, List.foldlM_cons]
    cases filter delta with
    | none => rfl
    | some next => exact ih next

theorem apply_chain (uuids : Nat → String) (filters : List (Delta → Option Delta))
    (m : NotificationManager) (delta : Delta) :
    DeltaFilterChain.apply m delta (chain uuids filters) =
      ((m.enrichDelta uuids delta).1, passed filters (m.enrichDelta uuids delta).2) := by
  simp only [chain, DeltaFilterChain.apply, handler, apply_plugins]

theorem passed_spared {filters : List (Delta → Option Delta)}
    (h : ∀ filter ∈ filters, Sparing filter) {delta delta' : Delta}
    (hp : passed filters delta = some delta') : Spared delta delta' := by
  induction filters generalizing delta with
  | nil =>
    obtain rfl := Option.some.inj hp
    exact .refl delta
  | cons filter filters ih =>
    rw [passed, List.foldlM_cons] at hp
    obtain ⟨next, hnext, hrest⟩ := Option.bind_eq_some_iff.mp hp
    exact (h filter (.head _) delta next hnext).trans (ih (fun f hf => h f (.tail _ hf)) hrest)

/-! The server, one event after another. -/

inductive ServerEvent where
  /-- a delta comes, with the filters of the plugins at that time -/
  | delta (delta : Delta) (uuids : Nat → String) (filters : List (Delta → Option Delta))
      (clock : Nat → DateTime)
  /-- `emit_arrival_notification` -/
  | arrival (timestamp : DateTime) (clock : Nat → DateTime)
  | request (r : Request)

/-- A request from its first step to its last. -/
def Request.complete [JsonText] (r : Request) (s : ServerState) : ServerState :=
  let step := fun (sp : ServerState × Progress) =>
    ((r.advance sp.1 sp.2).1.1, (r.advance sp.1 sp.2).2)
  (step (step (step (step (s, .received))))).1

def arrivalDelta (timestamp : DateTime) : Delta :=
  Delta.selfVessel [⟨Source.plugin "course-manager", timestamp,
    [CourseManager.arrivalNotification]⟩]

namespace ServerState
variable [JsonText]

def step (s : ServerState) : ServerEvent → ServerState × List Delta
  | .delta delta uuids filters clock =>
    match DeltaFilterChain.apply s.notificationManager delta (chain uuids filters) with
    | (m, none) => ({ s with notificationManager := m }, [])
    | (m, some delta) =>
      ({ store := (s.store.applyDelta clock delta).1
         notificationManager := m }, (s.store.applyDelta clock delta).2)
  | .arrival timestamp clock =>
    ({ s with store := (s.store.applyDelta clock (arrivalDelta timestamp)).1 },
      (s.store.applyDelta clock (arrivalDelta timestamp)).2)
  | .request r => (r.complete s, [])

end ServerState

/-! What is owed for each path. -/

/-- A well-formed notification that is not a clear. -/
def activeNotification (stored : Option SignalKValue) : Option Notification :=
  (stored.bind fun sv => Notification.fromValue sv.value).filter fun n =>
    decide (n.state ≠ .normal)

structure Matches (entry : Option NotificationEntry) (stored : Option SignalKValue) : Prop where
  ids : ∀ i, (∃ e, entry = some e ∧ e.id = i) ↔
    ∃ n, activeNotification stored = some n ∧ n.id = some i
  flags : ∀ e n, entry = some e → activeNotification stored = some n →
    ∃ status, n.status = some status ∧ status.silenced = some e.silenced ∧
      status.acknowledged = some e.acknowledged
  named : ∀ n, activeNotification stored = some n → n.id ≠ none

def Agrees (m : NotificationManager) (l : Ledger) : Prop :=
  ∀ path, isNotification path = true → Matches (m.lookup path) (l.active l.self path)

theorem Matches.of_none {stored : Option SignalKValue} (h : activeNotification stored = none) :
    Matches none stored := by
  refine ⟨fun i => ⟨?_, ?_⟩, fun e _ he => (nomatch he), fun n hn => (nomatch h.symm.trans hn)⟩
  · rintro ⟨e, he, -⟩
    cases he
  · rintro ⟨n, hn, -⟩
    exact nomatch h.symm.trans hn

theorem Matches.of_some {e : NotificationEntry} {stored : Option SignalKValue} {n : Notification}
    {status : NotificationStatus} (h : activeNotification stored = some n)
    (hid : n.id = some e.id) (hstatus : n.status = some status)
    (hs : status.silenced = some e.silenced) (ha : status.acknowledged = some e.acknowledged) :
    Matches (some e) stored := by
  refine ⟨fun i => ⟨?_, ?_⟩, fun e' n' he' hn' => ?_, fun n' hn' => ?_⟩
  · rintro ⟨e', he', rfl⟩
    cases he'
    exact ⟨n, h, hid⟩
  · rintro ⟨n', hn', hi⟩
    obtain rfl := Option.some.inj (h.symm.trans hn')
    exact ⟨e, rfl, Option.some.inj (hid.symm.trans hi)⟩
  · cases he'
    obtain rfl := Option.some.inj (h.symm.trans hn')
    exact ⟨status, hstatus, hs, ha⟩
  · obtain rfl := Option.some.inj (h.symm.trans hn')
    simp [hid]

/-- Without an entry there is no active notification, and with one there is. -/
theorem Matches.cases {entry : Option NotificationEntry} {stored : Option SignalKValue}
    (h : Matches entry stored) :
    (entry = none ∧ activeNotification stored = none) ∨
      ∃ e n, entry = some e ∧ activeNotification stored = some n ∧ n.id = some e.id := by
  cases hn : activeNotification stored with
  | none =>
    cases entry with
    | none => exact .inl ⟨rfl, rfl⟩
    | some e =>
      obtain ⟨n, hn', -⟩ := (h.ids e.id).mp ⟨e, rfl, rfl⟩
      exact nomatch hn.symm.trans hn'
  | some n =>
    obtain ⟨i, hi⟩ := Option.ne_none_iff_exists'.mp (h.named n hn)
    obtain ⟨e, rfl, he⟩ := (h.ids i).mpr ⟨n, hn, hi⟩
    exact .inr ⟨e, n, rfl, rfl, by rw [hi, he]⟩

theorem activeNotification_toValue (n : Notification) (source : SourceRef)
    (timestamp : DateTime) :
    activeNotification (some (SignalKValue.new n.toValue source timestamp)) =
      if n.state = .normal then none else some n := by
  simp [activeNotification, SignalKValue.new, Notification.fromValue_toValue, Option.filter]

/-! The values of a delta, each through the manager and into the store. -/

def enrichReported (m : NotificationManager) (e : String × Reported) :
    NotificationManager × List Reported :=
  let out := m.enrichValue e.1 (decide (e.2.1.type = "Plugin")) e.2.2.2
  (out.1, [(e.2.1, e.2.2.1, out.2)])

theorem enrichValues_reported (source : Source) (timestamp : DateTime) (uuids : Nat → String)
    (m : NotificationManager) (pvs : List PathValue) :
    ((m.enrichValues (decide (source.type = "Plugin")) uuids pvs).1,
      (m.enrichValues (decide (source.type = "Plugin")) uuids pvs).2.map (source, timestamp, ·)) =
      Machine.exec enrichReported m (Machine.timed uuids (pvs.map (source, timestamp, ·))) := by
  induction pvs generalizing uuids m with
  | nil => rfl
  | cons pv pvs ih =>
    simp [NotificationManager.enrichValues, Machine.timed, Machine.exec, enrichReported, ← ih]

theorem enrichUpdates_reported (uuids : Nat → String) (m : NotificationManager)
    (updates : List Update) :
    ((m.enrichUpdates uuids updates).1, reportedValues (m.enrichUpdates uuids updates).2) =
      Machine.exec enrichReported m (Machine.timed uuids (reportedValues updates)) := by
  induction updates generalizing uuids m with
  | nil => rfl
  | cons u updates ih =>
    have hv := enrichValues_reported u.source u.timestamp uuids m u.values
    have hcons : reportedValues (u :: updates) =
        u.values.map (u.source, u.timestamp, ·) ++ reportedValues updates := rfl
    rw [hcons, Machine.timed_append, Machine.exec_append, ← hv, List.length_map, ← ih]
    rfl

section
variable [JsonText]

def Reported.write (selfUri : String) (v : Reported) : Write :=
  .of selfUri (makeSourceRef v.1) v.2.1 v.2.2

theorem deltaWrites_reported {selfUri : String} {delta : Delta}
    (h : vesselUri selfUri delta.context = some selfUri) :
    deltaWrites selfUri delta = (reportedValues delta.updates).map (Reported.write selfUri) := by
  simp only [deltaWrites, h, updateWrites, reportedValues, List.map_flatMap, List.map_map]
  rfl

/-- Entries and store after one value; the filters behind the manager pass its delta or
drop it. -/
def together (passes : Bool) (s : NotificationManager × Ledger)
    (e : (String × DateTime) × Reported) : (NotificationManager × Ledger) × List Write :=
  let out := s.1.enrichValue e.1.1 (decide (e.2.1.type = "Plugin")) e.2.2.2
  let w := Reported.write s.2.self (e.2.1, e.2.2.1, out.2)
  if passes then ((out.1, (s.2.write (e.1.2, w)).1), (s.2.write (e.1.2, w)).2)
  else ((out.1, s.2), [])

theorem together_run (passes : Bool) (m : NotificationManager) (l : Ledger)
    (uuids : Nat → String) (clock : Nat → DateTime) (values : List Reported) :
    Machine.run (together passes) (m, l) (Machine.timed (fun n => (uuids n, clock n)) values) =
      ((Machine.exec enrichReported m (Machine.timed uuids values)).1,
        if passes then Machine.run Ledger.write l (Machine.timed clock
          ((Machine.exec enrichReported m (Machine.timed uuids values)).2.map
            (Reported.write l.self)))
        else l) := by
  induction values generalizing m l uuids clock with
  | nil =>
    cases passes <;> rfl
  | cons v values ih =>
    have hn := ih (together passes (m, l) ((uuids 0, clock 0), v)).1.1
      (together passes (m, l) ((uuids 0, clock 0), v)).1.2 (fun n => uuids (n + 1))
      (fun n => clock (n + 1))
    cases passes with
    | false => exact hn
    | true =>
      have hself : (together true (m, l) ((uuids 0, clock 0), v)).1.2.self = l.self :=
        Ledger.write_self _ _
      rw [hself] at hn
      exact hn

/-- Two stores with the same notifications of the self vessel. -/
structure SameNotifications (l l' : Ledger) : Prop where
  self : l'.self = l.self
  priority : l'.priority = l.priority
  ttl : l'.ttl = l.ttl
  active : ∀ path, isNotification path = true → l'.active l.self path = l.active l.self path

omit [JsonText] in
theorem SameNotifications.accepts {l l' : Ledger} (h : SameNotifications l l') (now : DateTime)
    {w : Write} (hv : w.vessel = l.self) (hn : isNotification w.path = true) :
    l'.accepts now w = l.accepts now w := by
  simp only [Ledger.accepts, Ledger.stale, hv, h.active w.path hn, h.priority, h.ttl]

theorem SameNotifications.write {l l' : Ledger} (h : SameNotifications l l') (now : DateTime)
    {v v' : Reported} (hv : v' = v ∨
      isNotification v.2.2.path = false ∧ isNotification v'.2.2.path = false) :
    SameNotifications (l.write (now, v.write l.self)).1 (l'.write (now, v'.write l'.self)).1 := by
  refine ⟨?_, ?_, ?_, fun path hpath => ?_⟩
  · rw [Ledger.write_self, Ledger.write_self, h.self]
  · rw [Ledger.write_priority, Ledger.write_priority, h.priority]
  · rw [Ledger.write_ttl, Ledger.write_ttl, h.ttl]
  · rw [Ledger.write_self, Ledger.write_active, Ledger.write_active, h.self, h.active path hpath]
    by_cases hp : v.2.2.path = path ∨ v'.2.2.path = path
    · have he : v' = v := by
        refine hv.resolve_right fun hno => ?_
        obtain rfl | rfl := hp
        · exact nomatch hpath.symm.trans hno.1
        · exact nomatch hpath.symm.trans hno.2
      subst he
      obtain rfl := or_self_iff.mp hp
      rw [h.accepts now rfl hpath]
    · have hpv := not_or.mp hp
      rw [if_neg fun hc => hpv.2 hc.1.2, if_neg fun hc => hpv.1 hc.1.2]

theorem SameNotifications.run {l l' : Ledger} (h : SameNotifications l l')
    {values values' : List Reported}
    (hvalues : List.Forall₂ (fun v v' : Reported => v' = v ∨
      isNotification v.2.2.path = false ∧ isNotification v'.2.2.path = false) values values')
    (clock : Nat → DateTime) :
    SameNotifications
      (Machine.run Ledger.write l (Machine.timed clock (values.map (Reported.write l.self))))
      (Machine.run Ledger.write l' (Machine.timed clock (values'.map (Reported.write l'.self)))) := by
  induction hvalues generalizing l l' clock with
  | nil => exact h
  | cons hv _ ih =>
    have hn := ih (h.write (clock 0) hv) fun n => clock (n + 1)
    rw [Ledger.write_self, Ledger.write_self] at hn
    exact hn

/-! When the steps keep them in agreement. -/

/-- The filters pass the value and the store takes it. -/
def Reaches (passes : Bool) (l : Ledger) (now : DateTime) (v : Reported) : Prop :=
  passes = true ∧ l.accepts now (v.write l.self) = true

instance (passes : Bool) (l : Ledger) (now : DateTime) (v : Reported) :
    Decidable (Reaches passes l now v) :=
  inferInstanceAs (Decidable (_ ∧ _))

/-- What is stored is well-formed, unless the path has no entry; what is not stored would
neither raise an entry nor end one. -/
def Settles (passes : Bool) (s : NotificationManager × Ledger)
    (e : (String × DateTime) × Reported) : Prop :=
  isNotification e.2.2.2.path = true →
    (Reaches passes s.2 e.1.2 e.2 → e.2.2.2.notification = none →
      s.1.lookup e.2.2.2.path = none) ∧
    (¬ Reaches passes s.2 e.1.2 e.2 → ∀ n ∈ e.2.2.2.notification,
      (n.state = .normal ↔ s.1.lookup e.2.2.2.path = none))

instance (passes : Bool) (s : NotificationManager × Ledger)
    (e : (String × DateTime) × Reported) : Decidable (Settles passes s e) :=
  inferInstanceAs (Decidable (_ → (_ → _ → _) ∧ (_ → ∀ n ∈ e.2.2.2.notification, _)))

/-- The entry already says what the request asks for. -/
def Mutation.holds : Mutation → NotificationEntry → Bool
  | .silence, e => e.silenced
  | .acknowledge, e => e.acknowledged

def Mutation.update : Mutation → NotificationEntry → NotificationEntry
  | .silence, e => { e with silenced := true }
  | .acknowledge, e => { e with acknowledged := true }

/-- The store takes what a request makes of an active notification, unless the request is
refused or the entry says so already. -/
def Request.Settles (r : Request) (s : ServerState) : Prop :=
  validateNotificationId r.notificationId = true →
    ∀ n ∈ activeNotification (s.store.getSelfPath r.storePath), (r.mutation.mutate n).isOk = true →
      ∀ e ∈ s.notificationManager.lookup r.storePath, r.mutation.holds e = true ∨
        s.store.ledger.accepts (r.clock 0) (Reported.write s.store.selfUri
          (Source.plugin "signalk-rs", r.timestamp, ⟨r.storePath, n.toValue⟩)) = true

instance (r : Request) (s : ServerState) : Decidable (r.Settles s) :=
  inferInstanceAs (Decidable (_ → ∀ n ∈ activeNotification _, _ →
    ∀ e ∈ s.notificationManager.lookup r.storePath, _))

/-- The condition on a step: the store takes no arrival notification, which has no id. -/
def Agreeing (s : ServerState) : ServerEvent → Prop
  | .delta delta uuids filters clock =>
    let passes := (passed filters (s.notificationManager.enrichDelta uuids delta).2).isSome
    Machine.Meets (together passes) (Settles passes) (s.notificationManager, s.store.ledger)
      (Machine.timed (fun n => (uuids n, clock n)) (reportedValues delta.updates))
  | .arrival timestamp clock =>
    s.store.ledger.accepts (clock 0) (Reported.write s.store.selfUri
      (Source.plugin "course-manager", timestamp, CourseManager.arrivalNotification)) = false
  | .request r => r.Settles s

instance (s : ServerState) : ∀ e, Decidable (Agreeing s e)
  | .delta _ _ _ _ => inferInstanceAs (Decidable (Machine.Meets _ _ _ _))
  | .arrival _ _ => inferInstanceAs (Decidable (_ = _))
  | .request r => inferInstanceAs (Decidable (r.Settles s))

/-- A delta of the self vessel, with filters that leave notifications alone. -/
def ServerEvent.Ordinary (selfUri : String) : ServerEvent → Prop
  | .delta d _ filters _ =>
    vesselUri selfUri d.context = some selfUri ∧ ∀ filter ∈ filters, Sparing filter
  | _ => True

/-! A value. -/

theorem together_manager (passes : Bool) (s : NotificationManager × Ledger)
    (e : (String × DateTime) × Reported) :
    (together passes s e).1.1 =
      (s.1.enrichValue e.1.1 (decide (e.2.1.type = "Plugin")) e.2.2.2).1 := by
  cases passes <;> rfl

theorem together_self (passes : Bool) (s : NotificationManager × Ledger)
    (e : (String × DateTime) × Reported) : (together passes s e).1.2.self = s.2.self := by
  cases passes with
  | false => rfl
  | true => exact Ledger.write_self _ _

theorem together_active (passes : Bool) (s : NotificationManager × Ledger)
    (e : (String × DateTime) × Reported) (path : String) :
    (together passes s e).1.2.active s.2.self path =
      if e.2.2.2.path = path ∧ Reaches passes s.2 e.1.2 e.2 then
        some (SignalKValue.new
          (s.1.enrichValue e.1.1 (decide (e.2.1.type = "Plugin")) e.2.2.2).2.value
          (makeSourceRef e.2.1) e.2.2.1)
      else s.2.active s.2.self path := by
  cases passes with
  | false => simp [together, Reaches]
  | true =>
    simp only [together, if_true, Ledger.write_active, Reaches, Reported.write, Write.of,
      Write.entry, Ledger.accepts, NotificationManager.enrichValue_path, true_and]
    rfl

omit [JsonText] in
theorem fromValue_of_notification_none {pv : PathValue} (hp : isNotification pv.path = true)
    (h : pv.notification = none) : Notification.fromValue pv.value = none := by
  rw [PathValue.notification] at h
  exact (if_pos hp).symm.trans h

theorem Agrees.together {passes : Bool} {s : NotificationManager × Ledger}
    {e : (String × DateTime) × Reported} (h : Agrees s.1 s.2) (hs : Settles passes s e) :
    Agrees (together passes s e).1.1 (together passes s e).1.2 := by
  intro path hpath
  rw [together_self, together_manager, together_active]
  obtain ⟨m, l⟩ := s
  obtain ⟨⟨uuid, now⟩, source, timestamp, pv⟩ := e
  simp only at *
  by_cases hp : pv.path = path
  swap
  · rw [NotificationManager.lookup_enrichValue_ne m _ _ (Ne.symm hp), if_neg fun hc => hp hc.1]
    exact h path hpath
  subst hp
  obtain ⟨hreached, hmissed⟩ := hs hpath
  simp only at hreached hmissed
  have hbefore := h pv.path hpath
  cases hn : pv.notification with
  | none =>
    rw [NotificationManager.enrichValue_other _ _ hn]
    split_ifs with hr
    · rw [hreached hr.2 hn]
      refine .of_none ?_
      simp [activeNotification, SignalKValue.new, fromValue_of_notification_none hpath hn]
    · exact hbefore
  | some n =>
    by_cases hstate : n.state = .normal
    · rw [NotificationManager.enrichValue_clear _ _ hn hstate, Finmap.lookup_erase]
      split_ifs with hr
      · refine .of_none ?_
        rw [activeNotification_toValue]
        exact if_pos hstate
      · have hnone := (hmissed (fun hc => hr ⟨rfl, hc⟩) n hn).mp hstate
        rwa [hnone] at hbefore
    · rw [NotificationManager.enrichValue_active _ _ hn hstate, Finmap.lookup_insert]
      split_ifs with hr
      · have hactive : activeNotification (some (SignalKValue.new
            (n.enriched (m.live pv.path uuid (decide (source.type = "Plugin")))).toValue
            (makeSourceRef source) timestamp)) =
            some (n.enriched (m.live pv.path uuid (decide (source.type = "Plugin")))) := by
          rw [activeNotification_toValue]
          exact if_neg hstate
        exact .of_some hactive rfl rfl rfl rfl
      · obtain ⟨entry, hentry⟩ := Option.ne_none_iff_exists'.mp
          (mt (hmissed (fun hc => hr ⟨rfl, hc⟩) n hn).mpr hstate)
        rw [NotificationManager.live, hentry, Option.getD_some]
        rwa [hentry] at hbefore

/-! A step of the server. -/

omit [JsonText] in
theorem Agrees.same {m : NotificationManager} {l l' : Ledger} (h : Agrees m l)
    (hl : SameNotifications l l') : Agrees m l' := by
  intro path hpath
  rw [hl.self, hl.active path hpath]
  exact h path hpath

theorem Agrees.delta {s : ServerState} {delta : Delta} {uuids : Nat → String}
    {filters : List (Delta → Option Delta)} {clock : Nat → DateTime}
    (h : Agrees s.notificationManager s.store.ledger)
    (hself : vesselUri s.store.selfUri delta.context = some s.store.selfUri)
    (hfilters : ∀ filter ∈ filters, Sparing filter)
    (ha : Agreeing s (.delta delta uuids filters clock)) :
    Agrees (s.step (.delta delta uuids filters clock)).1.notificationManager
      (s.step (.delta delta uuids filters clock)).1.store.ledger := by
  have hrun := Machine.run_inv (fun _ _ hi hs => Agrees.together hi hs) h ha
  have henrich := enrichUpdates_reported uuids s.notificationManager delta.updates
  rw [together_run, ← henrich] at hrun
  rw [ServerState.step, apply_chain]
  cases hp : passed filters (s.notificationManager.enrichDelta uuids delta).2 with
  | none =>
    rw [hp] at hrun
    exact hrun
  | some delta' =>
    rw [hp] at hrun
    have hspared := passed_spared hfilters hp
    have hcontext : delta'.context = delta.context := hspared.1
    rw [← hcontext] at hself
    refine hrun.same ?_
    have hsame : SameNotifications s.store.ledger s.store.ledger := ⟨rfl, rfl, rfl, fun _ _ => rfl⟩
    have hwrites := hsame.run hspared.2 clock
    rw [SignalKStore.applyDelta_ledger, deltaWrites_reported hself]
    exact hwrites

theorem Agrees.arrival {s : ServerState} {timestamp : DateTime} {clock : Nat → DateTime}
    (h : Agrees s.notificationManager s.store.ledger) (ha : Agreeing s (.arrival timestamp clock)) :
    Agrees s.notificationManager
      (s.store.applyDelta clock (arrivalDelta timestamp)).1.ledger := by
  refine h.same ?_
  rw [arrivalDelta, SignalKStore.applyDelta_single]
  refine ⟨Ledger.write_self _ _, Ledger.write_priority _ _, Ledger.write_ttl _ _, fun path _ => ?_⟩
  rw [Ledger.write_active]
  exact if_neg fun hc => Bool.false_ne_true (ha.symm.trans hc.2)

omit [JsonText] in
theorem with_own_id {n : Notification} {i : String} (h : n.id = some i)
    (other : Option String) : { n with id := n.id.or other } = n :=
  Notification.ext (by rw [h]; rfl) rfl rfl rfl rfl

theorem Request.complete_cases (r : Request) (s : ServerState) :
    r.complete s = s ∨ ∃ sv n n', validateNotificationId r.notificationId = true ∧
      s.store.getSelfPath r.storePath = some sv ∧ Notification.fromValue sv.value = some n ∧
      r.mutation.mutate { n with
        id := n.id.or ((s.notificationManager.lookup r.storePath).map (·.id)) } = .ok n' ∧
      r.complete s = ⟨(s.store.applyDelta r.clock (r.writeBack n')).1,
        r.mutation.sync s.notificationManager r.storePath⟩ := by
  cases hv : validateNotificationId r.notificationId with
  | false =>
    left
    simp [complete, advance, hv]
  | true =>
    cases hsv : s.store.getSelfPath r.storePath with
    | none =>
      left
      simp [complete, advance, hv, parse, hsv]
    | some sv =>
      cases hn : Notification.fromValue sv.value with
      | none =>
        left
        simp [complete, advance, hv, parse, hsv, hn]
      | some n =>
        cases hm : r.mutation.mutate { n with
            id := n.id.or ((s.notificationManager.lookup r.storePath).map (·.id)) } with
        | error response =>
          left
          cases hid : n.id with
          | none =>
            rw [hid, Option.none_or] at hm
            simp [complete, advance, hv, parse, hsv, hn, hid, mutate, hm,
              NotificationManager.getEntryData, Function.comp_def]
          | some i =>
            rw [with_own_id hid] at hm
            simp [complete, advance, hv, parse, hsv, hn, hid, mutate, hm]
        | ok n' =>
          right
          refine ⟨sv, n, n', rfl, rfl, hn, hm, ?_⟩
          cases hid : n.id with
          | none =>
            rw [hid, Option.none_or] at hm
            simp [complete, advance, hv, parse, hsv, hn, hid, mutate, hm,
              NotificationManager.getEntryData, Function.comp_def]
          | some i =>
            rw [with_own_id hid] at hm
            simp [complete, advance, hv, parse, hsv, hn, hid, mutate, hm]

omit [JsonText] in
theorem Mutation.sync_eq (μ : Mutation) (m : NotificationManager) (path : String) :
    μ.sync m path = m.modify path μ.update := by
  cases μ <;> rfl

omit [JsonText] in
theorem Mutation.update_of_holds {μ : Mutation} {e : NotificationEntry} (h : μ.holds e = true) :
    μ.update e = e := by
  cases μ <;> cases e <;> cases h <;> rfl

omit [JsonText] in
/-- A request keeps id and state, and sets in the status what it sets in the entry. -/
theorem Mutation.mutate_spec {μ : Mutation} {n n' : Notification} (h : μ.mutate n = .ok n') :
    n'.id = n.id ∧ n'.state = n.state ∧ ∃ status, n'.status = some status ∧
      ∀ e : NotificationEntry, (n.status.getD .default).silenced = some e.silenced →
        (n.status.getD .default).acknowledged = some e.acknowledged →
        status.silenced = some (μ.update e).silenced ∧
          status.acknowledged = some (μ.update e).acknowledged := by
  cases μ with
  | silence =>
    rw [mutate] at h
    split_ifs at h
    obtain rfl := Except.ok.inj h
    exact ⟨rfl, rfl, _, rfl, fun e _ ha => ⟨rfl, ha⟩⟩
  | acknowledge =>
    rw [mutate] at h
    obtain rfl := Except.ok.inj h
    exact ⟨rfl, rfl, _, rfl, fun e hs _ => ⟨hs, rfl⟩⟩

omit [JsonText] in
@[simp] theorem Mutation.update_id (μ : Mutation) (e : NotificationEntry) :
    (μ.update e).id = e.id := by
  cases μ <;> rfl

theorem Agrees.request {s : ServerState} {r : Request}
    (h : Agrees s.notificationManager s.store.ledger) (ha : Agreeing s (.request r)) :
    Agrees (r.complete s).notificationManager (r.complete s).store.ledger := by
  obtain hsame | ⟨sv, n, n', hv, hsv, hn, hm, hc⟩ := r.complete_cases s
  · rwa [hsame]
  rw [hc]
  intro path hpath
  have hstored := s.store.getSelfPath_single r.clock (Source.plugin "signalk-rs") r.timestamp
    ⟨r.storePath, n'.toValue⟩ path
  have hget : (s.store.applyDelta r.clock (r.writeBack n')).1.ledger.active
      (s.store.applyDelta r.clock (r.writeBack n')).1.ledger.self path =
      (s.store.applyDelta r.clock (r.writeBack n')).1.getSelfPath path := rfl
  rw [hget, Request.writeBack, hstored, Mutation.sync_eq, NotificationManager.lookup_modify]
  by_cases hp : path = r.storePath
  swap
  · rw [if_neg hp, if_neg fun hc => hp hc.1]
    exact h path hpath
  subst hp
  rw [if_pos rfl]
  have hbefore : Matches (s.notificationManager.lookup r.storePath)
      (s.store.getSelfPath r.storePath) := h _ hpath
  obtain ⟨hid', hstate', status', hstatus', hflags'⟩ := Mutation.mutate_spec hm
  by_cases hstate : n.state = .normal
  · have hnone : activeNotification (some sv) = none := by
      simp [activeNotification, hn, hstate, Option.filter]
    rw [hsv] at hbefore ⊢
    obtain ⟨hentry, -⟩ | ⟨e, n₀, -, hactive, -⟩ := hbefore.cases
    · rw [hentry, Option.map_none]
      refine .of_none ?_
      split_ifs with hr
      · rw [activeNotification_toValue]
        exact if_pos (hstate'.trans hstate)
      · exact hnone
    · exact nomatch hnone.symm.trans hactive
  · have hsome : activeNotification (some sv) = some n := by
      simp [activeNotification, hn, hstate, Option.filter]
    rw [hsv] at hbefore
    obtain ⟨-, hactive⟩ | ⟨e, n₀, hentry, hactive, hid⟩ := hbefore.cases
    · exact nomatch hactive.symm.trans hsome
    · obtain rfl := Option.some.inj (hsome.symm.trans hactive)
      rw [with_own_id hid] at hm hid'
      obtain ⟨status, hstatus, hsilenced, hacknowledged⟩ := hbefore.flags e n hentry hsome
      rw [hentry, Option.map_some]
      split_ifs with hr
      · have hkept : activeNotification (some (SignalKValue.new n'.toValue
            (makeSourceRef (Source.plugin "signalk-rs")) r.timestamp)) = some n' := by
          rw [activeNotification_toValue]
          exact if_neg (hstate' ▸ hstate)
        obtain ⟨hs, hk⟩ := hflags' e (by simpa [hstatus] using hsilenced)
          (by simpa [hstatus] using hacknowledged)
        refine .of_some hkept ?_ hstatus' hs hk
        rw [hid', hid, Mutation.update_id]
      · have hset := ha hv n (by rw [hsv]; exact hsome) (by rw [hm]; rfl) e hentry
        have hholds := hset.resolve_right fun hacc => hr ⟨rfl, hacc⟩
        rw [Mutation.update_of_holds hholds, hsv]
        rwa [hentry] at hbefore

theorem Agrees.step {s : ServerState} {e : ServerEvent}
    (h : Agrees s.notificationManager s.store.ledger) (hord : e.Ordinary s.store.selfUri)
    (ha : Agreeing s e) :
    Agrees (s.step e).1.notificationManager (s.step e).1.store.ledger := by
  cases e with
  | delta delta uuids filters clock => exact h.delta hord.1 hord.2 ha
  | arrival timestamp clock => exact h.arrival ha
  | request r => exact h.request ha

theorem step_selfUri (s : ServerState) (e : ServerEvent) :
    (s.step e).1.store.selfUri = s.store.selfUri := by
  cases e with
  | delta delta uuids filters clock =>
    rw [ServerState.step, apply_chain]
    cases passed filters (s.notificationManager.enrichDelta uuids delta).2 with
    | none => rfl
    | some delta' => exact SignalKStore.applyDelta_selfUri ..
  | arrival timestamp clock => exact SignalKStore.applyDelta_selfUri ..
  | request r =>
    obtain hsame | ⟨_, _, _, -, -, -, -, hc⟩ := r.complete_cases s
    · rw [ServerState.step, hsame]
    · rw [ServerState.step, hc]
      exact SignalKStore.applyDelta_selfUri ..

omit [JsonText] in
/-- Nothing is raised on a new server, whatever the priorities and times to live. -/
def newServer (selfUri : String) (priorities : HashMap SourceRef UInt16)
    (ttls : HashMap SourceRef UInt64) : ServerState where
  store := ((SignalKStore.new selfUri).setSourcePriorities priorities).setSourceTtls ttls
  notificationManager := ∅

/-- Entries and active notifications agree in every state of a run whose steps all meet
the condition. -/
theorem manager_agrees_with_store (selfUri : String) (priorities : HashMap SourceRef UInt16)
    (ttls : HashMap SourceRef UInt64) (es : List ServerEvent)
    (hord : ∀ e ∈ es, e.Ordinary selfUri)
    (hm : Machine.Meets ServerState.step Agreeing (newServer selfUri priorities ttls) es) :
    ∀ fs, fs <+: es →
      let s := Machine.run ServerState.step (newServer selfUri priorities ttls) fs
      Agrees s.notificationManager s.store.ledger := by
  have hstep : ∀ s e,
      (s.store.selfUri = selfUri ∧ Agrees s.notificationManager s.store.ledger) →
      (ServerEvent.Ordinary selfUri e ∧ Agreeing s e) →
      (s.step e).1.store.selfUri = selfUri ∧
        Agrees (s.step e).1.notificationManager (s.step e).1.store.ledger := by
    intro s e hs he
    refine ⟨(step_selfUri s e).trans hs.1, hs.2.step ?_ he.2⟩
    rw [hs.1]
    exact he.1
  rintro fs ⟨gs, rfl⟩
  have hboth : Machine.Meets ServerState.step
      (fun s e => ServerEvent.Ordinary selfUri e ∧ Agreeing s e)
      (newServer selfUri priorities ttls) (fs ++ gs) :=
    Machine.meets_iff_prefix.mpr fun gs' e hg =>
      ⟨hord e (hg.subset (by simp)), Machine.meets_iff_prefix.mp hm gs' e hg⟩
  have hnew : Agrees (newServer selfUri priorities ttls).notificationManager
      (newServer selfUri priorities ttls).store.ledger := by
    intro path _
    have hnone : (newServer selfUri priorities ttls).store.ledger.active
        (newServer selfUri priorities ttls).store.ledger.self path = none :=
      SignalKStore.new_getVesselPath selfUri selfUri path
    rw [hnone]
    exact .of_none rfl
  exact (Machine.run_inv hstep ⟨rfl, hnew⟩ (Machine.meets_append.mp hboth).1).2

end

section
attribute [local instance] JsonText.unused

/-- A plugin raises or clears the anchor alarm, behind the filters. -/
def anchorReport (plugin : String) (state : NotificationState)
    (filters : List (Delta → Option Delta)) : ServerEvent :=
  .delta (Delta.selfVessel [⟨Source.plugin plugin, 0, [⟨"notifications.navigation.anchor",
    (Notification.mk none state [.visual, .sound] "Anchor dragging" none).toValue⟩]⟩])
    (fun _ => "a") filters fun _ => 0

def silenceRequest : ServerEvent :=
  .request ⟨.silence, "navigation.anchor", 0, fun _ => 0⟩

/-- The alarm passes a filter, is silenced and cleared. -/
def raisedAndCleared : List ServerEvent :=
  [anchorReport "anchor-alarm" .alarm [some], silenceRequest, anchorReport "anchor-alarm" .normal []]

def rankedServer (ranks : List (SourceRef × UInt16)) : ServerState :=
  newServer "urn:mrn:signalk:uuid:1" (HashMap.collect ranks) ∅

theorem manager_agrees_with_store_raised :
    let s := Machine.run ServerState.step (rankedServer []) raisedAndCleared
    Agrees s.notificationManager s.store.ledger := by
  refine manager_agrees_with_store "urn:mrn:signalk:uuid:1" (HashMap.collect []) ∅
    raisedAndCleared ?_ (by decide +kernel) _ (List.prefix_refl _)
  intro e he
  simp only [raisedAndCleared, List.mem_cons, List.not_mem_nil, or_false] at he
  obtain rfl | rfl | rfl := he
  · refine ⟨by decide +kernel, fun filter hfilter => ?_⟩
    obtain rfl := List.mem_singleton.mp hfilter
    intro delta delta' hd
    obtain rfl := Option.some.inj hd
    exact .refl delta
  · trivial
  · exact ⟨by decide +kernel, fun _ hfilter => nomatch hfilter⟩

/-- An entry without a notification or a notification without one. -/
theorem not_agrees {s : ServerState} (path : String) (hpath : isNotification path = true)
    (h : (s.notificationManager.lookup path).isSome ≠
      (activeNotification (s.store.getSelfPath path)).isSome) :
    ¬ Agrees s.notificationManager s.store.ledger := by
  intro hagrees
  have hmatches : Matches (s.notificationManager.lookup path) (s.store.getSelfPath path) :=
    hagrees path hpath
  obtain ⟨he, hn⟩ | ⟨e, n, he, hn, -⟩ := hmatches.cases <;> simp [he, hn] at h

/-- An alarm that a filter drops leaves an entry; a clear that a better-ranked alarm
outlives ends its entry; an arrival is stored without an id. -/
theorem manager_disagrees :
    (¬ Agrees (Machine.run ServerState.step (rankedServer [])
        [anchorReport "anchor-alarm" .alarm [fun _ => none]]).notificationManager
      (Machine.run ServerState.step (rankedServer [])
        [anchorReport "anchor-alarm" .alarm [fun _ => none]]).store.ledger) ∧
    (¬ Agrees (Machine.run ServerState.step (rankedServer [("anchor-alarm", 10)])
        [anchorReport "anchor-alarm" .alarm [], anchorReport "other" .normal []]).notificationManager
      (Machine.run ServerState.step (rankedServer [("anchor-alarm", 10)])
        [anchorReport "anchor-alarm" .alarm [], anchorReport "other" .normal []]).store.ledger) ∧
    ¬ Agrees (Machine.run ServerState.step (rankedServer [])
        [.arrival 0 fun _ => 0]).notificationManager
      (Machine.run ServerState.step (rankedServer []) [.arrival 0 fun _ => 0]).store.ledger := by
  refine ⟨?_, ?_, ?_⟩
  · exact not_agrees "notifications.navigation.anchor" (by decide +kernel) (by decide +kernel)
  · exact not_agrees "notifications.navigation.anchor" (by decide +kernel) (by decide +kernel)
  · exact not_agrees "notifications.navigation.arrivalCircleEntered" (by decide +kernel)
      (by decide +kernel)

end

end SignalK.Notifications

import SignalK.Notifications.Identity

/-! What the filter leaves as it is in a delta, and what a second pass over the result does. -/
namespace SignalK.Notifications
open NotificationManager

/-- The names are written as strings, as they are written out; a decoder also takes the
fields in an array and a name as an object with a null. -/
def Plain (j : Json) : Prop :=
  ∃ fields state method, j = .object fields ∧ j.get "state" = some (.string state) ∧
    j.get "method" = some (.ofList .string method)

/-- A value that is no notification is the same, a notification the same but for id and status. -/
structure Kept (pv pv' : PathValue) : Prop where
  path : pv'.path = pv.path
  other : pv.notification = none → pv' = pv
  notification : ∀ n, pv.notification = some n → ∃ n', pv'.notification = some n' ∧
    n'.state = n.state ∧ n'.method = n.method ∧ n'.message = n.message
  fields : pv.notification.isSome → Plain pv.value →
    ∀ key ∈ ["state", "method", "message"], pv'.value.get key = pv.value.get key

/-- The updates and their values are there, in their order. -/
structure Framed (delta delta' : Delta) : Prop where
  context : delta'.context = delta.context
  updates : List.Forall₂ (fun u u' => u'.source = u.source ∧ u'.timestamp = u.timestamp ∧
    List.Forall₂ Kept u.values u'.values) delta.updates delta'.updates

/-- A path is raised and cleared in the same delta. -/
def Mixed (delta : Delta) : Prop :=
  ∃ pv ∈ delta.pathValues, ∃ pv' ∈ delta.pathValues, pv'.path = pv.path ∧
    (∃ n ∈ pv.notification, n.state ≠ .normal) ∧ ∃ n ∈ pv'.notification, n.state = .normal

instance (delta : Delta) : Decidable (Mixed delta) :=
  inferInstanceAs (Decidable (∃ pv ∈ _, ∃ pv' ∈ _, _ ∧ (∃ n ∈ _, _ ≠ _) ∧ ∃ n ∈ _, _ = _))

/-- New ids: those of the one run differ from each other, from those of the other run, from
those of the entries and from those in the delta. -/
structure Fresh (uuids uuids' : Nat → String) (m : NotificationManager) (delta : Delta) :
    Prop where
  injective : Function.Injective uuids
  apart : ∀ i j, uuids' i ≠ uuids j
  entries : ∀ p e, m.lookup p = some e → ∀ i, uuids i ≠ e.id ∧ uuids' i ≠ e.id
  own : ∀ pv ∈ delta.pathValues, ∀ n, pv.notification = some n → ∀ i, n.id ≠ some (uuids i)

/-! The frame. -/

theorem ofName_state {s : String} {state : NotificationState}
    (h : NotificationState.ofName s = some state) : state.name = s := by
  unfold NotificationState.ofName at h
  split at h <;> first | (cases h; rfl) | cases h

theorem ofName_method {s : String} {method : NotificationMethod}
    (h : NotificationMethod.ofName s = some method) : method.name = s := by
  unfold NotificationMethod.ofName at h
  split at h <;> first | (cases h; rfl) | cases h

theorem ofName_methods {ss : List String} {methods : List NotificationMethod}
    (h : Json.asList NotificationMethod.fromValue (.ofList .string ss) = some methods) :
    Json.ofList NotificationMethod.toValue methods = .ofList .string ss := by
  rw [Json.ofList, Json.asList] at h
  induction ss generalizing methods with
  | nil =>
    cases h
    rfl
  | cons s ss ih =>
    rw [List.map_cons, List.mapM_cons] at h
    obtain ⟨method, hmethod, h⟩ := Option.bind_eq_some_iff.mp h
    obtain ⟨methods', hmethods, h⟩ := Option.bind_eq_some_iff.mp h
    cases h
    have hname : NotificationMethod.toValue method = .string s :=
      congrArg Json.string (ofName_method hmethod)
    have hrest := ih hmethods
    rw [Json.ofList, Json.ofList, Json.array.injEq] at hrest
    rw [Json.ofList, Json.ofList, List.map_cons, List.map_cons, hname, hrest]

/-- Of a plain object the fields that are neither id nor status are written as they were. -/
theorem get_toValue_of_plain {j : Json} {n n' : Notification} (h : Notification.fromValue j = some n)
    (hp : Plain j) (hstate : n'.state = n.state) (hmethod : n'.method = n.method)
    (hmessage : n'.message = n.message) :
    ∀ key ∈ ["state", "method", "message"], n'.toValue.get key = j.get key := by
  obtain ⟨fields, state, method, rfl, hs, hm⟩ := hp
  have hfields : Notification.fromFields (Json.object fields).get = some n := h
  obtain ⟨id, -, hfields⟩ := Option.bind_eq_some_iff.mp hfields
  obtain ⟨state', hs', hfields⟩ := Option.bind_eq_some_iff.mp hfields
  obtain ⟨method', hm', hfields⟩ := Option.bind_eq_some_iff.mp hfields
  obtain ⟨message', hmsg, hfields⟩ := Option.bind_eq_some_iff.mp hfields
  obtain ⟨status, -, hfields⟩ := Option.bind_eq_some_iff.mp hfields
  cases hfields
  have hnodup : (n'.toFields.map Prod.fst).Nodup := by simp [Notification.toFields]
  have hget : ∀ e ∈ n'.toFields, n'.toValue.get e.1 = e.2 := fun e => Json.get_ofPresent hnodup
  simp only [Notification.toFields, List.forall_mem_cons] at hget
  obtain ⟨-, hgstate, hgmethod, hgmessage, -⟩ := hget
  simp only [List.forall_mem_cons, List.not_mem_nil, false_implies, implies_true, and_true]
  rw [hgstate, hgmethod, hgmessage, hstate, hmethod, hmessage]
  refine ⟨?_, ?_, ?_⟩
  · rw [hs] at hs' ⊢
    exact congrArg (some ∘ Json.string) (ofName_state hs')
  · rw [hm] at hm' ⊢
    exact congrArg some (ofName_methods hm')
  · obtain ⟨j, hj, hstr⟩ := Option.bind_eq_some_iff.mp hmsg
    cases j with
    | string text =>
      cases hstr
      exact hj.symm
    | _ => cases hstr

theorem kept_enrichValue (m : NotificationManager) (uuid : String) (isPluginSource : Bool)
    (pv : PathValue) : Kept pv (m.enrichValue uuid isPluginSource pv).2 := by
  refine ⟨enrichValue_path m uuid isPluginSource pv, fun h => ?_, fun n h => ?_, fun h hp => ?_⟩
  · rw [enrichValue_other uuid isPluginSource h]
  · by_cases hs : n.state = .normal
    · rw [enrichValue_clear uuid isPluginSource h hs]
      exact ⟨_, PathValue.notification_toValue h _, rfl, rfl, rfl⟩
    · rw [enrichValue_active uuid isPluginSource h hs]
      exact ⟨_, PathValue.notification_toValue h _, rfl, rfl, rfl⟩
  · obtain ⟨n, hn⟩ := Option.isSome_iff_exists.mp h
    have hread : Notification.fromValue pv.value = some n := by
      by_cases hpath : Text.startsWith pv.path "notifications." = true
      · rwa [PathValue.notification, if_pos hpath] at hn
      · rw [PathValue.notification, if_neg hpath] at hn
        cases hn
    by_cases hs : n.state = .normal
    · rw [enrichValue_clear uuid isPluginSource hn hs]
      exact get_toValue_of_plain hread hp rfl rfl rfl
    · rw [enrichValue_active uuid isPluginSource hn hs]
      exact get_toValue_of_plain hread hp rfl rfl rfl

theorem kept_enrichValues (isPluginSource : Bool) (uuids : Nat → String) (m : NotificationManager)
    (pvs : List PathValue) : List.Forall₂ Kept pvs (enrichValues isPluginSource uuids m pvs).2 := by
  induction pvs generalizing uuids m with
  | nil => exact .nil
  | cons pv pvs ih => exact .cons (kept_enrichValue m _ _ pv) (ih _ _)

theorem framed_enrichDelta (uuids : Nat → String) (m : NotificationManager) (delta : Delta) :
    Framed delta (enrichDelta uuids m delta).2 := by
  refine ⟨rfl, ?_⟩
  have hupdates : ∀ us uuids m, List.Forall₂ (fun u u' => u'.source = u.source ∧
      u'.timestamp = u.timestamp ∧ List.Forall₂ Kept u.values u'.values) us
      (enrichUpdates uuids m us).2 := by
    intro us
    induction us with
    | nil => exact fun _ _ => .nil
    | cons u us ih => exact fun _ _ => .cons ⟨rfl, rfl, kept_enrichValues _ _ _ _⟩ (ih _ _)
  exact hupdates _ _ _

/-! One path: its entry, and the notifications on it one after the other. -/

def turn (old : Option NotificationEntry) (x : String × Bool × Notification) :
    Option NotificationEntry × List Notification :=
  (entryAfter old x.1 x.2.1 x.2.2, [enrichedBy old x.1 x.2.1 x.2.2])

def turnsAt (path : String) (es : List (String × Bool × PathValue)) :
    List (String × Bool × Notification) :=
  es.filterMap fun e =>
    if e.2.2.path = path then e.2.2.notification.map fun n => (e.1, e.2.1, n) else none

def notesAt (path : String) (pvs : List PathValue) : List Notification :=
  pvs.filterMap fun pv => if pv.path = path then pv.notification else none

theorem enrichValue_lookup {m : NotificationManager} {pv : PathValue} {n : Notification}
    (uuid : String) (isPluginSource : Bool) (h : pv.notification = some n) (p : String) :
    (m.enrichValue uuid isPluginSource pv).1.lookup p =
      if p = pv.path then entryAfter (m.lookup pv.path) uuid isPluginSource n else m.lookup p :=
  (callStep_value "" uuid isPluginSource h).2 p

theorem enrichValue_notification {m : NotificationManager} {pv : PathValue} {n : Notification}
    (uuid : String) (isPluginSource : Bool) (h : pv.notification = some n) :
    (m.enrichValue uuid isPluginSource pv).2.notification =
      some (enrichedBy (m.lookup pv.path) uuid isPluginSource n) := by
  by_cases hs : n.state = .normal
  · rw [enrichValue_clear uuid isPluginSource h hs, PathValue.notification_toValue h, enrichedBy,
      if_pos hs]
  · rw [enrichValue_active uuid isPluginSource h hs, PathValue.notification_toValue h, enrichedBy,
      if_neg hs]
    rfl

theorem enrichedBy_state (old : Option NotificationEntry) (uuid : String) (isPluginSource : Bool)
    (n : Notification) : (enrichedBy old uuid isPluginSource n).state = n.state := by
  unfold enrichedBy
  split_ifs <;> rfl

/-- A path sees only what is on it. -/
theorem exec_turnsAt (path : String) (m : NotificationManager)
    (es : List (String × Bool × PathValue)) :
    (Machine.exec enrichStep m es).1.lookup path =
        (Machine.exec turn (m.lookup path) (turnsAt path es)).1 ∧
      notesAt path (Machine.exec enrichStep m es).2 =
        (Machine.exec turn (m.lookup path) (turnsAt path es)).2 := by
  induction es generalizing m with
  | nil => exact ⟨rfl, rfl⟩
  | cons e es ih =>
    obtain ⟨uuid, isPluginSource, pv⟩ := e
    obtain ⟨hlookup, hnotes⟩ := ih (enrichStep m (uuid, isPluginSource, pv)).1
    have hsplit : notesAt path (Machine.exec enrichStep m ((uuid, isPluginSource, pv) :: es)).2 =
        notesAt path [(m.enrichValue uuid isPluginSource pv).2] ++
          notesAt path (Machine.exec enrichStep
            (enrichStep m (uuid, isPluginSource, pv)).1 es).2 := List.filterMap_append
    rw [hsplit, hnotes, Machine.exec, hlookup]
    cases hn : pv.notification with
    | none =>
      have hnone : turnsAt path ((uuid, isPluginSource, pv) :: es) = turnsAt path es := by
        simp [turnsAt, hn]
      rw [hnone, enrichStep, enrichValue_other uuid isPluginSource hn]
      simp [notesAt, hn]
    | some n =>
      have hentry := enrichValue_lookup (m := m) uuid isPluginSource hn path
      have hnote := enrichValue_notification (m := m) uuid isPluginSource hn
      by_cases hp : pv.path = path
      · subst hp
        have hone : turnsAt pv.path ((uuid, isPluginSource, pv) :: es) =
            (uuid, isPluginSource, n) :: turnsAt pv.path es := by
          simp [turnsAt, hn]
        rw [if_pos rfl] at hentry
        rw [hone, Machine.exec, enrichStep, hentry]
        simp [notesAt, hnote, turn]
      · have hnone : turnsAt path ((uuid, isPluginSource, pv) :: es) = turnsAt path es := by
          simp [turnsAt, hp]
        rw [if_neg (Ne.symm hp)] at hentry
        rw [hnone, enrichStep, hentry]
        simp [notesAt, hp]

/-! A second pass over what the first one put out. -/

/-- It raises anew, with another id, what the first pass has cleared in the end. -/
theorem clears_of_same {old : Option NotificationEntry}
    {ops ops' : List (String × Bool × Notification)}
    (hout : ops'.map (·.2.2) = (Machine.exec turn old ops).2)
    (hsame : (Machine.exec turn none ops').2 = (Machine.exec turn old ops).2)
    (hold : ∀ e ∈ old, ∀ x' ∈ ops', x'.1 ≠ e.id)
    (hnew : ∀ x ∈ ops, ∀ x' ∈ ops', x'.1 ≠ x.1) :
    ∀ x ∈ ops, x.2.2.state = .normal := by
  induction ops generalizing old ops' with
  | nil => exact List.forall_mem_nil _
  | cons x ops ih =>
    cases ops' with
    | nil => cases hout
    | cons x' ops' =>
      obtain ⟨hhead, hrest⟩ := List.cons.inj hout
      obtain ⟨hhead', hrest'⟩ := List.cons.inj hsame
      have hstate : x'.2.2.state = x.2.2.state :=
        (congrArg Notification.state hhead).trans (enrichedBy_state _ _ _ _)
      have hx : x.2.2.state = .normal := by
        by_contra hx
        have hid := congrArg Notification.id hhead'
        rw [enrichedBy, enrichedBy, if_neg (hstate ▸ hx), if_neg hx] at hid
        have hid' : x'.1 = (old.getD (.raised x.1 x.2.1)).id := Option.some.inj hid
        cases hold' : old with
        | none =>
          rw [hold'] at hid'
          exact hnew x List.mem_cons_self x' List.mem_cons_self hid'
        | some e =>
          rw [hold'] at hid'
          exact hold e hold' x' List.mem_cons_self hid'
      have hend : (turn old x).1 = none := if_pos hx
      have hend' : (turn none x').1 = none := if_pos (hstate.trans hx)
      rw [hend] at hrest hrest'
      rw [hend'] at hrest'
      refine List.forall_mem_cons.mpr ⟨hx, ih hrest hrest' (fun e he => by cases he) ?_⟩
      exact fun y hy y' hy' => hnew y (List.mem_cons_of_mem x hy) y' (List.mem_cons_of_mem x' hy')

/-- The entry in the end is a new one, or the old one and nothing was cleared. -/
theorem origin {old : Option NotificationEntry} {ops : List (String × Bool × Notification)}
    {e : NotificationEntry} (h : (Machine.exec turn old ops).1 = some e) :
    (∃ x ∈ ops, e.id = x.1) ∨
      (∃ o, old = some o ∧ e.id = o.id) ∧ ∀ x ∈ ops, x.2.2.state ≠ .normal := by
  induction ops generalizing old with
  | nil => exact .inr ⟨⟨e, h, rfl⟩, List.forall_mem_nil _⟩
  | cons x ops ih =>
    rcases ih h with ⟨y, hy, hid⟩ | ⟨⟨o, ho, hid⟩, hraises⟩
    · exact .inl ⟨y, List.mem_cons_of_mem x hy, hid⟩
    · by_cases hx : x.2.2.state = .normal
      · rw [turn, entryAfter, if_pos hx] at ho
        cases ho
      · rw [turn, entryAfter, if_neg hx] at ho
        have ho' : old.getD (.raised x.1 x.2.1) = o := Option.some.inj ho
        cases old with
        | none => exact .inl ⟨x, List.mem_cons_self, hid.trans (congrArg _ ho'.symm)⟩
        | some p =>
          exact .inr ⟨⟨p, rfl, hid.trans (congrArg _ ho'.symm)⟩,
            List.forall_mem_cons.mpr ⟨hx, hraises⟩⟩

theorem enrichedBy_some_id (e : NotificationEntry) (uuid : String) (isPluginSource : Bool)
    (n : Notification) : (enrichedBy (some e) uuid isPluginSource n).id = some e.id := by
  unfold enrichedBy
  split_ifs <;> rfl

theorem enrichedBy_id (old : Option NotificationEntry) (uuid : String) (isPluginSource : Bool)
    (n : Notification) : (∃ o, old = some o ∧
        (enrichedBy old uuid isPluginSource n).id = some o.id) ∨
      (enrichedBy old uuid isPluginSource n).id = some uuid ∨
      (enrichedBy old uuid isPluginSource n).id = n.id := by
  cases old with
  | some o => exact .inl ⟨o, rfl, enrichedBy_some_id o uuid isPluginSource n⟩
  | none =>
    unfold enrichedBy
    split_ifs
    · exact .inr (.inr rfl)
    · exact .inr (.inl rfl)

/-- It puts the last id on what the first pass has put out before it was given. -/
theorem raises_of_same {old : Option NotificationEntry} {e : NotificationEntry}
    {ops ops' : List (String × Bool × Notification)}
    (hout : ops'.map (·.2.2) = (Machine.exec turn old ops).2)
    (hend : (Machine.exec turn old ops).1 = some e)
    (hsame : (Machine.exec turn (some e) ops').2 = (Machine.exec turn old ops).2)
    (hdistinct : ops.Pairwise fun x y => x.1 ≠ y.1)
    (hold : ∀ o ∈ old, ∀ x ∈ ops, x.1 ≠ o.id)
    (hown : ∀ x ∈ ops, ∀ y ∈ ops, y.2.2.id ≠ some x.1) :
    ∀ x ∈ ops, x.2.2.state ≠ .normal := by
  cases ops with
  | nil => exact List.forall_mem_nil _
  | cons x ops =>
    cases ops' with
    | nil => cases hout
    | cons x' ops' =>
      obtain ⟨hhead', -⟩ := List.cons.inj hsame
      have hid : (enrichedBy old x.1 x.2.1 x.2.2).id = some e.id :=
        (congrArg Notification.id hhead').symm.trans (enrichedBy_some_id e _ _ _)
      rcases @origin _ ops _ hend with ⟨y, hy, heq⟩ | ⟨⟨o, ho, -⟩, hraises⟩
      · exfalso
        have hmem := List.mem_cons_of_mem x hy
        rw [heq] at hid
        rcases enrichedBy_id old x.1 x.2.1 x.2.2 with ⟨o, ho, h⟩ | h | h
        · exact hold o ho y hmem (Option.some.inj (hid.symm.trans h))
        · exact (List.pairwise_cons.mp hdistinct).1 y hy (Option.some.inj (h.symm.trans hid))
        · exact hown y hmem x List.mem_cons_self (h.symm.trans hid)
      · refine List.forall_mem_cons.mpr ⟨fun hx => ?_, hraises⟩
        rw [turn, entryAfter, if_pos hx] at ho
        cases ho

/-! From one path to the delta. -/

theorem mem_notesAt {path : String} {pvs : List PathValue} {n : Notification} :
    n ∈ notesAt path pvs ↔ ∃ pv ∈ pvs, pv.path = path ∧ pv.notification = some n := by
  rw [notesAt, List.mem_filterMap]
  refine exists_congr fun pv => and_congr_right fun _ => ?_
  by_cases hp : pv.path = path
  · rw [if_pos hp, and_iff_right hp]
  · rw [if_neg hp]
    exact ⟨fun h => absurd h (by simp), fun h => absurd h.1 hp⟩

theorem turnsAt_notes (path : String) (es : List (String × Bool × PathValue)) :
    (turnsAt path es).map (·.2.2) = notesAt path (es.map (·.2.2)) := by
  induction es with
  | nil => rfl
  | cons e es ih =>
    by_cases hp : e.2.2.path = path
    · cases hn : e.2.2.notification <;>
        simpa [turnsAt, notesAt, hp, hn] using ih
    · simpa [turnsAt, notesAt, hp] using ih

theorem flagged_pathValues (delta : Delta) :
    (flagged delta).map Prod.snd = delta.pathValues := by
  simp [flagged, Delta.pathValues, List.map_flatMap]

/-- The turns of a path in a delta. -/
def turnsOf (uuids : Nat → String) (delta : Delta) (path : String) :
    List (String × Bool × Notification) :=
  turnsAt path (Machine.timed uuids (flagged delta))

theorem turnsOf_notes (uuids : Nat → String) (delta : Delta) (path : String) :
    (turnsOf uuids delta path).map (·.2.2) = notesAt path delta.pathValues := by
  have hvalues : (Machine.timed uuids (flagged delta)).map (·.2.2) = delta.pathValues := by
    rw [← flagged_pathValues, ← congrArg (List.map Prod.snd)
      (Machine.timed_snd uuids (flagged delta)), List.map_map]
    rfl
  rw [turnsOf, turnsAt_notes, hvalues]

theorem turnsOf_pairwise {uuids : Nat → String} (h : Function.Injective uuids) (delta : Delta)
    (path : String) : (turnsOf uuids delta path).Pairwise fun x y => x.1 ≠ y.1 := by
  refine (Machine.timed_pairwise h _).filterMap _ fun a b hab x hx y hy => ?_
  split_ifs at hx hy
  · obtain ⟨n, -, rfl⟩ := Option.map_eq_some_iff.mp hx
    obtain ⟨k, -, rfl⟩ := Option.map_eq_some_iff.mp hy
    exact hab

theorem turnsOf_uuid {uuids : Nat → String} {delta : Delta} {path : String} :
    ∀ x ∈ turnsOf uuids delta path, ∃ i, x.1 = uuids i := by
  intro x hx
  obtain ⟨e, he, hx⟩ := List.mem_filterMap.mp hx
  obtain ⟨i, hi⟩ := Machine.timed_fst uuids _ e he
  split_ifs at hx
  obtain ⟨n, -, rfl⟩ := Option.map_eq_some_iff.mp hx
  exact ⟨i, hi⟩

/-- A path that is both raised and cleared is seen by a second pass with new ids. -/
theorem settled_of_same {uuids uuids' : Nat → String} {m : NotificationManager} {delta : Delta}
    (hfresh : Fresh uuids uuids' m delta)
    (hsame : (enrichDelta uuids' (enrichDelta uuids m delta).1 (enrichDelta uuids m delta).2).2 =
      (enrichDelta uuids m delta).2) (path : String) :
    (∀ x ∈ turnsOf uuids delta path, x.2.2.state = .normal) ∨
      ∀ x ∈ turnsOf uuids delta path, x.2.2.state ≠ .normal := by
  obtain ⟨hlookup, hnotes⟩ :=
    exec_turnsAt path m (Machine.timed uuids (flagged delta))
  obtain ⟨-, hnotes'⟩ := exec_turnsAt path (enrichDelta uuids m delta).1
    (Machine.timed uuids' (flagged (enrichDelta uuids m delta).2))
  have hout := turnsOf_notes uuids' (enrichDelta uuids m delta).2 path
  rw [← enrichDelta_pathValues, hsame, enrichDelta_manager, Machine.run, hlookup,
    enrichDelta_pathValues, hnotes] at hnotes'
  rw [enrichDelta_pathValues, hnotes] at hout
  have hold : ∀ e ∈ m.lookup path, ∀ x ∈ turnsOf uuids delta path, x.1 ≠ e.id := by
    intro e he x hx
    obtain ⟨i, hi⟩ := turnsOf_uuid x hx
    exact hi ▸ (hfresh.entries path e he i).1
  cases hend : (Machine.exec turn (m.lookup path) (turnsOf uuids delta path)).1 with
  | none =>
    refine .inl (clears_of_same hout ?_ ?_ ?_)
    · rw [← hend]
      exact hnotes'.symm
    · intro e he x' hx'
      obtain ⟨i, hi⟩ := turnsOf_uuid x' hx'
      exact hi ▸ (hfresh.entries path e he i).2
    · intro x hx x' hx'
      obtain ⟨i, hi⟩ := turnsOf_uuid x hx
      obtain ⟨j, hj⟩ := turnsOf_uuid x' hx'
      rw [hi, hj]
      exact hfresh.apart j i
  | some e =>
    refine .inr (raises_of_same hout hend ?_ (turnsOf_pairwise hfresh.injective delta path) hold ?_)
    · rw [← hend]
      exact hnotes'.symm
    · intro x hx y hy
      obtain ⟨i, hi⟩ := turnsOf_uuid x hx
      have hnote : y.2.2 ∈ notesAt path delta.pathValues :=
        turnsOf_notes uuids delta path ▸ List.mem_map_of_mem hy
      obtain ⟨pv, hpv, -, hn⟩ := mem_notesAt.mp hnote
      rw [hi]
      exact hfresh.own pv hpv _ hn i

theorem not_same_of_mixed {uuids uuids' : Nat → String} {m : NotificationManager} {delta : Delta}
    (hfresh : Fresh uuids uuids' m delta) (hmixed : Mixed delta) :
    (enrichDelta uuids' (enrichDelta uuids m delta).1 (enrichDelta uuids m delta).2).2 ≠
      (enrichDelta uuids m delta).2 := by
  intro hsame
  obtain ⟨pv, hpv, pv', hpv', hpath, ⟨n, hn, hraise⟩, n', hn', hclear⟩ := hmixed
  have hnote : n ∈ notesAt pv.path delta.pathValues := mem_notesAt.mpr ⟨pv, hpv, rfl, hn⟩
  have hnote' : n' ∈ notesAt pv.path delta.pathValues := mem_notesAt.mpr ⟨pv', hpv', hpath, hn'⟩
  rw [← turnsOf_notes uuids] at hnote hnote'
  obtain ⟨x, hx, rfl⟩ := List.mem_map.mp hnote
  obtain ⟨x', hx', rfl⟩ := List.mem_map.mp hnote'
  rcases settled_of_same hfresh hsame pv.path with h | h
  · exact hraise (h x hx)
  · exact h x' hx' hclear

/-! Where no path is both raised and cleared, the second pass finds everything done. -/

theorem exec_raises {e : NotificationEntry} {ops : List (String × Bool × Notification)}
    (h : ∀ x ∈ ops, x.2.2.state ≠ .normal) : (Machine.exec turn (some e) ops).1 = some e := by
  induction ops with
  | nil => rfl
  | cons x ops ih =>
    obtain ⟨hx, hops⟩ := List.forall_mem_cons.mp h
    have hturn : (turn (some e) x).1 = some e := if_neg hx
    rw [Machine.exec, hturn]
    exact ih hops

theorem exec_clears {ops : List (String × Bool × Notification)}
    (h : ∀ x ∈ ops, x.2.2.state = .normal) : (Machine.exec turn none ops).1 = none := by
  induction ops with
  | nil => rfl
  | cons x ops ih =>
    obtain ⟨hx, hops⟩ := List.forall_mem_cons.mp h
    have hturn : (turn none x).1 = none := if_pos hx
    rw [Machine.exec, hturn]
    exact ih hops

theorem enriched_of_raises {old : Option NotificationEntry}
    {ops : List (String × Bool × Notification)} (h : ∀ x ∈ ops, x.2.2.state ≠ .normal) :
    ∀ n ∈ (Machine.exec turn old ops).2, n.state ≠ .normal ∧
      ∃ e, (Machine.exec turn old ops).1 = some e ∧ n.enriched e = n := by
  induction ops generalizing old with
  | nil => exact List.forall_mem_nil _
  | cons x ops ih =>
    obtain ⟨hx, hops⟩ := List.forall_mem_cons.mp h
    have hturn : (turn old x).1 = some (old.getD (.raised x.1 x.2.1)) := if_neg hx
    have hnote : enrichedBy old x.1 x.2.1 x.2.2 =
        x.2.2.enriched (old.getD (.raised x.1 x.2.1)) := if_neg hx
    rw [Machine.exec]
    refine List.forall_mem_cons.mpr ⟨?_, ih hops⟩
    rw [hturn, exec_raises hops, hnote]
    exact ⟨hx, _, rfl, rfl⟩

theorem cleared_of_clears {old : Option NotificationEntry}
    {ops : List (String × Bool × Notification)} (h : ∀ x ∈ ops, x.2.2.state = .normal) :
    ∀ n ∈ (Machine.exec turn old ops).2, n.state = .normal ∧
      (Machine.exec turn old ops).1 = none ∧ n.cleared none = n := by
  induction ops generalizing old with
  | nil => exact List.forall_mem_nil _
  | cons x ops ih =>
    obtain ⟨hx, hops⟩ := List.forall_mem_cons.mp h
    have hturn : (turn old x).1 = none := if_pos hx
    have hnote : enrichedBy old x.1 x.2.1 x.2.2 = x.2.2.cleared old := if_pos hx
    rw [Machine.exec]
    refine List.forall_mem_cons.mpr ⟨?_, ih hops⟩
    rw [hturn, exec_clears hops, hnote]
    exact ⟨hx, rfl, rfl⟩

/-- A value the manager has nothing to say about. -/
def Done (m : NotificationManager) (pv : PathValue) : Prop :=
  ∀ uuid isPluginSource, m.enrichValue uuid isPluginSource pv = (m, pv)

theorem done_of_enriched {m : NotificationManager} {pv : PathValue} {n : Notification}
    {e : NotificationEntry} (hn : pv.notification = some n) (hv : pv.value = n.toValue)
    (hs : n.state ≠ .normal) (he : m.lookup pv.path = some e) (hsame : n.enriched e = n) :
    Done m pv := by
  intro uuid isPluginSource
  have hlive : m.live pv.path uuid isPluginSource = e := by
    rw [live, he]
    rfl
  rw [enrichValue_active uuid isPluginSource hn hs, hlive, hsame, ← hv,
    HashMap.insert_of_lookup he]

theorem done_of_cleared {m : NotificationManager} {pv : PathValue} {n : Notification}
    (hn : pv.notification = some n) (hv : pv.value = n.toValue) (hs : n.state = .normal)
    (he : m.lookup pv.path = none) (hsame : n.cleared none = n) : Done m pv := by
  intro uuid isPluginSource
  have herase : m.erase pv.path = m := by
    refine Finmap.ext_lookup fun p => ?_
    rw [HashMap.lookup_erase]
    split_ifs with hp
    · rw [hp, he]
    · rfl
  rw [enrichValue_clear uuid isPluginSource hn hs, he, hsame, ← hv, herase]

theorem enrichDelta_done {m : NotificationManager} {delta : Delta}
    (h : ∀ pv ∈ delta.pathValues, Done m pv) (uuids : Nat → String) :
    enrichDelta uuids m delta = (m, delta) := by
  have hvalues : ∀ pvs, (∀ pv ∈ pvs, Done m pv) → ∀ isPluginSource uuids,
      enrichValues isPluginSource uuids m pvs = (m, pvs) := by
    intro pvs
    induction pvs with
    | nil => exact fun _ _ _ => rfl
    | cons pv pvs ih =>
      intro h isPluginSource uuids
      obtain ⟨hpv, hpvs⟩ := List.forall_mem_cons.mp h
      simp only [enrichValues, hpv _ _, ih hpvs]
  have hupdates : ∀ us : List Update, (∀ u ∈ us, ∀ pv ∈ u.values, Done m pv) → ∀ uuids,
      enrichUpdates uuids m us = (m, us) := by
    intro us
    induction us with
    | nil => exact fun _ _ => rfl
    | cons u us ih =>
      intro h uuids
      obtain ⟨hu, hus⟩ := List.forall_mem_cons.mp h
      simp only [enrichUpdates, hvalues _ hu, ih hus]
  have hall : ∀ u ∈ delta.updates, ∀ pv ∈ u.values, Done m pv :=
    fun u hu pv hpv => h pv (List.mem_flatMap.mpr ⟨u, hu, hpv⟩)
  rw [enrichDelta, hupdates _ hall]

theorem enrichStep_value {m : NotificationManager} {es : List (String × Bool × PathValue)} :
    ∀ pv ∈ (Machine.exec enrichStep m es).2, ∀ n, pv.notification = some n →
      pv.value = n.toValue := by
  induction es generalizing m with
  | nil => exact List.forall_mem_nil _
  | cons e es ih =>
    refine List.forall_mem_cons.mpr ⟨fun n' hn' => ?_, ih⟩
    obtain ⟨uuid, isPluginSource, pv⟩ := e
    cases hn : pv.notification with
    | none =>
      rw [enrichValue_other uuid isPluginSource hn, hn] at hn'
      cases hn'
    | some n =>
      have hnote := enrichValue_notification (m := m) uuid isPluginSource hn
      cases hnote.symm.trans hn'
      by_cases hs : n.state = .normal
      · rw [enrichValue_clear uuid isPluginSource hn hs, enrichedBy, if_pos hs]
      · rw [enrichValue_active uuid isPluginSource hn hs, enrichedBy, if_neg hs]
        rfl

theorem done_of_not_mixed {uuids : Nat → String} {m : NotificationManager} {delta : Delta}
    (h : ¬ Mixed delta) :
    ∀ pv ∈ (enrichDelta uuids m delta).2.pathValues, Done (enrichDelta uuids m delta).1 pv := by
  intro pv hpv
  cases hn : pv.notification with
  | none => exact fun uuid isPluginSource => enrichValue_other uuid isPluginSource hn
  | some n =>
    obtain ⟨hlookup, hnotes⟩ :=
      exec_turnsAt pv.path m (Machine.timed uuids (flagged delta))
    have hnote := mem_notesAt.mpr ⟨pv, hpv, rfl, hn⟩
    rw [enrichDelta_pathValues] at hpv hnote
    rw [hnotes] at hnote
    rw [← Machine.run, ← enrichDelta_manager] at hlookup
    have hv := enrichStep_value pv hpv n hn
    by_cases hclear : ∃ x ∈ turnsOf uuids delta pv.path, x.2.2.state = .normal
    · have hall : ∀ x ∈ turnsOf uuids delta pv.path, x.2.2.state = .normal := by
        intro x hx
        by_contra hraise
        obtain ⟨y, hy, hys⟩ := hclear
        have hin := List.mem_map_of_mem (f := (·.2.2)) hx
        have hin' := List.mem_map_of_mem (f := (·.2.2)) hy
        rw [turnsOf_notes] at hin hin'
        obtain ⟨a, ha, hpa, hna⟩ := mem_notesAt.mp hin
        obtain ⟨b, hb, hpb, hnb⟩ := mem_notesAt.mp hin'
        exact h ⟨a, ha, b, hb, hpb.trans hpa.symm, ⟨_, hna, hraise⟩, _, hnb, hys⟩
      obtain ⟨hs, hend, hsame⟩ := cleared_of_clears hall n hnote
      exact done_of_cleared hn hv hs (hlookup.trans hend) hsame
    · have hall : ∀ x ∈ turnsOf uuids delta pv.path, x.2.2.state ≠ .normal :=
        fun x hx hs => hclear ⟨x, hx, hs⟩
      obtain ⟨hs, e, hend, hsame⟩ := enriched_of_raises hall n hnote
      exact done_of_enriched hn hv hs (hlookup.trans hend) hsame

/-- Enrichment keeps the frame, and is idempotent exactly on the deltas that do not both
raise and clear one path. -/
theorem enrichDelta_frame (uuids uuids' : Nat → String) (m : NotificationManager)
    (delta : Delta) :
    Framed delta (enrichDelta uuids m delta).2 ∧
      (¬ Mixed delta →
        enrichDelta uuids' (enrichDelta uuids m delta).1 (enrichDelta uuids m delta).2 =
          enrichDelta uuids m delta) ∧
      (Fresh uuids uuids' m delta → Mixed delta →
        (enrichDelta uuids' (enrichDelta uuids m delta).1 (enrichDelta uuids m delta).2).2 ≠
          (enrichDelta uuids m delta).2) :=
  ⟨framed_enrichDelta uuids m delta, fun h => enrichDelta_done (done_of_not_mixed h) uuids',
    not_same_of_mixed⟩

/-- Notifications about the anchor, one after the other in one delta. -/
abbrev anchorDeltaOf (states : List NotificationState) : Delta :=
  Delta.selfVessel [⟨Source.plugin "anchor-alarm", 0, states.map fun state =>
    ⟨"notifications.navigation.anchor", (Notification.mk none state [.sound] "" none).toValue⟩⟩]

/-- Ids of which no two are equal: a name and a tally. -/
abbrev tally (c : Char) (n : Nat) : String := String.ofList (c :: List.replicate n '.')

theorem tally_injective (c : Char) : Function.Injective (tally c) := by
  intro i j h
  have hlength := congrArg List.length (String.ofList_injective h)
  simpa using hlength

theorem enrichDelta_frame_anchor :
    enrichDelta (tally 'b') (enrichDelta (tally 'a') ∅ (anchorDeltaOf [.alarm, .emergency])).1
        (enrichDelta (tally 'a') ∅ (anchorDeltaOf [.alarm, .emergency])).2 =
      enrichDelta (tally 'a') ∅ (anchorDeltaOf [.alarm, .emergency]) ∧
    (enrichDelta (tally 'b') (enrichDelta (tally 'a') ∅ (anchorDeltaOf [.alarm, .normal])).1
        (enrichDelta (tally 'a') ∅ (anchorDeltaOf [.alarm, .normal])).2).2 ≠
      (enrichDelta (tally 'a') ∅ (anchorDeltaOf [.alarm, .normal])).2 := by
  refine ⟨(enrichDelta_frame (tally 'a') (tally 'b') ∅ _).2.1 ?_,
    (enrichDelta_frame (tally 'a') (tally 'b') ∅ _).2.2 ⟨tally_injective 'a', ?_, ?_, ?_⟩ ?_⟩
  · decide +kernel
  · intro i j h
    cases String.ofList_injective h
  · intro p e he
    rw [Finmap.lookup_empty] at he
    cases he
  · intro pv hpv n hn i hid
    have hnone : ∀ pv ∈ (anchorDeltaOf [.alarm, .normal]).pathValues,
        pv.notification.bind (·.id) = none := by decide +kernel
    have hsome := hnone pv hpv
    rw [hn, Option.bind_some, hid] at hsome
    cases hsome
  · decide +kernel

/-- A second pass raises the cleared notification anew, under another id; and a field that
the decoder does not know is lost in the first one. -/
theorem raised_then_cleared :
    (enrichDelta (tally 'b') (enrichDelta (tally 'a') ∅ (anchorDeltaOf [.alarm, .normal])).1
        (enrichDelta (tally 'a') ∅ (anchorDeltaOf [.alarm, .normal])).2).2 ≠
      (enrichDelta (tally 'a') ∅ (anchorDeltaOf [.alarm, .normal])).2 ∧
    (enrichDelta (tally 'a') ∅ (Delta.selfVessel [⟨Source.plugin "anchor-alarm", 0,
      [⟨"notifications.navigation.anchor", .object [("data", .bool true), ("message", .string ""),
        ("method", .array []), ("state", .string "alarm")]⟩]⟩])).2.pathValues.map
      (·.value.get "data") = [none] := by
  decide +kernel

end SignalK.Notifications

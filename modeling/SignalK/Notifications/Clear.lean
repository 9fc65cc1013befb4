import Mathlib.Data.Fintype.Basic
import SignalK.Notifications.Api

/-! A cleared alarm must stay cleared. A request writes back what it read before the
clear, and under a source of its own, so a clear can be overwritten by a stale alarm or
refused after a request has written. -/
namespace SignalK.Notifications

/-- The one plugin that raises and clears the notification of a path. -/
structure Raiser where
  pluginId : String
  path : String

namespace Raiser

def storePath (r : Raiser) : String :=
  "notifications." ++ r.path

/-- `raise_notification`; `clear_notification` is one in state normal. -/
def raiseNotification (r : Raiser) (timestamp : DateTime) (n : Notification) : Delta :=
  Delta.selfVessel [⟨Source.plugin r.pluginId, timestamp, [⟨r.storePath, n.toValue⟩]⟩]

end Raiser

inductive Move (ι : Type) where
  | post (uuids : Nat → String) (timestamp : DateTime) (n : Notification)
  | apply (clock : Nat → DateTime)
  | request (i : ι)

def Move.turn {ι : Type} (r : Raiser) : Move ι → Turn Unit ι
  | .post uuids timestamp n => .enrich () uuids (r.raiseNotification timestamp n)
  | .apply clock => .apply () clock
  | .request i => .request i

/-- The state that a move posts, unless the plugin still waits for its last delta. -/
def Move.posted {ι : Type} (sys : System Unit ι) : Move ι → List NotificationState
  | .post _ _ n => if (sys.inFlight ()).isNone then [n.state] else []
  | .apply _ => []
  | .request _ => []

/-- The system's step with the states that the plugin posts. -/
def moveStep [JsonText] {ι : Type} [DecidableEq ι] (r : Raiser) (requests : ι → Request)
    (sys : System Unit ι) (m : Move ι) : System Unit ι × List NotificationState :=
  ((sys.step requests (m.turn r)).1, m.posted sys)

def Progress.isFinished : Progress → Bool
  | .received => true
  | .answered _ => true
  | _ => false

def Progress.toWrite : Progress → Option Notification
  | .mutated n => some n
  | _ => none

/-- The stored notification of a path is in state normal. -/
def IsClear (st : SignalKStore) (path : String) : Prop :=
  ∃ sv ∈ st.getSelfPath path, ∃ n ∈ Notification.fromValue sv.value, n.state = .normal

instance (st : SignalKStore) (path : String) : Decidable (IsClear st path) :=
  inferInstanceAs (Decidable (∃ sv ∈ _, ∃ n ∈ _, _))

/-- Once the last delta posted is a clear and is in the store, and no request is under
way, the notification is normal and nothing is tracked. -/
def StaysCleared {ι : Type} (r : Raiser) (sys : System Unit ι)
    (posted : List NotificationState) : Prop :=
  posted.getLast? = some .normal → sys.inFlight () = none →
    (∀ i, (sys.progress i).isFinished = true) →
    IsClear sys.state.store r.storePath ∧
      sys.state.notificationManager.lookup r.storePath = none

instance {ι : Type} [Fintype ι] (r : Raiser) (sys : System Unit ι)
    (posted : List NotificationState) : Decidable (StaysCleared r sys posted) :=
  inferInstanceAs (Decidable (_ → _ → (∀ i, (sys.progress i).isFinished = true) → _))

/-- The store takes every clear, and no request puts an active notification over a
normal one. -/
def Lands [JsonText] {ι : Type} (r : Raiser) (requests : ι → Request) (sys : System Unit ι) :
    Move ι → Prop
  | .post .. => True
  | .apply clock =>
    ∀ delta ∈ sys.inFlight (), ∀ w ∈ deltaWrites sys.state.store.selfUri delta,
      w.pathValue.notification.map (·.state) = some .normal →
        sys.state.store.ledger.accepts (clock 0) w = true
  | .request i =>
    ∀ n ∈ (sys.progress i).toWrite, (requests i).storePath = r.storePath →
      IsClear sys.state.store r.storePath → n.state ≠ .normal →
        ∀ w ∈ deltaWrites sys.state.store.selfUri ((requests i).writeBack n),
          sys.state.store.ledger.accepts ((requests i).clock 0) w = false

instance [JsonText] {ι : Type} (r : Raiser) (requests : ι → Request) (sys : System Unit ι)
    (m : Move ι) : Decidable (Lands r requests sys m) :=
  match m with
  | .post .. => inferInstanceAs (Decidable True)
  | .apply _ => inferInstanceAs (Decidable (∀ delta ∈ _, ∀ w ∈ _, _))
  | .request _ => inferInstanceAs (Decidable (∀ n ∈ _, _))

theorem Raiser.notification_toValue (r : Raiser) (n : Notification) :
    (PathValue.mk r.storePath n.toValue).notification = some n := by
  simp [PathValue.notification, storePath, Notification.fromValue_toValue]

/-- The filter turns a posted notification into one of the same state; a clear leaves
no entry. -/
theorem Raiser.enrich_raiseNotification (r : Raiser) (uuids : Nat → String)
    (m : NotificationManager) (timestamp : DateTime) (n : Notification) :
    ∃ n', (m.enrichDelta uuids (r.raiseNotification timestamp n)).2 =
        r.raiseNotification timestamp n' ∧ n'.state = n.state ∧
      (n.state = .normal →
        (m.enrichDelta uuids (r.raiseNotification timestamp n)).1.lookup r.storePath = none) := by
  have hn := r.notification_toValue n
  have hmanager : (m.enrichDelta uuids (r.raiseNotification timestamp n)).1 =
      (m.enrichValue (uuids 0) true ⟨r.storePath, n.toValue⟩).1 := by
    simp [NotificationManager.enrichDelta, NotificationManager.enrichUpdates,
      NotificationManager.enrichValues, raiseNotification, Delta.selfVessel, Source.plugin]
  have hdelta : (m.enrichDelta uuids (r.raiseNotification timestamp n)).2 =
      Delta.selfVessel [⟨Source.plugin r.pluginId, timestamp,
        [(m.enrichValue (uuids 0) true ⟨r.storePath, n.toValue⟩).2]⟩] := by
    simp [NotificationManager.enrichDelta, NotificationManager.enrichUpdates,
      NotificationManager.enrichValues, raiseNotification, Delta.selfVessel, Source.plugin]
  rw [hmanager, hdelta]
  by_cases hs : n.state = .normal
  · rw [NotificationManager.enrichValue_clear (uuids 0) true hn hs]
    exact ⟨n.cleared _, rfl, rfl, fun _ => by simp⟩
  · rw [NotificationManager.enrichValue_active (uuids 0) true hn hs]
    exact ⟨n.enriched _, rfl, rfl, fun h => absurd h hs⟩

/-- What links the plugin's last post to the entry, the delta in flight and the store. -/
structure Tracks {ι : Type} (r : Raiser) (sys : System Unit ι)
    (posted : List NotificationState) : Prop where
  untracked : posted.getLast? = some .normal →
    sys.state.notificationManager.lookup r.storePath = none
  cleared : posted.getLast? = some .normal → sys.inFlight () = none →
    IsClear sys.state.store r.storePath
  flying : ∀ delta, sys.inFlight () = some delta → ∃ timestamp n,
    delta = r.raiseNotification timestamp n ∧ posted.getLast? = some n.state

section
variable {ι : Type} {r : Raiser} {sys : System Unit ι} {posted : List NotificationState}

theorem Tracks.post (h : Tracks r sys posted) (uuids : Nat → String) (timestamp : DateTime)
    (n : Notification) :
    Tracks r (sys.enrich () uuids (r.raiseNotification timestamp n))
      (posted ++ (Move.post uuids timestamp n : Move ι).posted sys) := by
  cases hf : sys.inFlight () with
  | some delta => simpa [System.enrich, Move.posted, hf] using h
  | none =>
    obtain ⟨n', hdelta, hstate, hlookup⟩ :=
      r.enrich_raiseNotification uuids sys.state.notificationManager timestamp n
    have hlast : (posted ++ (Move.post uuids timestamp n : Move ι).posted sys).getLast? =
        some n.state := by
      simp [Move.posted, hf]
    simp only [System.enrich, hf, hdelta]
    constructor
    case untracked => exact fun hs => hlookup (Option.some.inj (hlast.symm.trans hs))
    case cleared => simp
    case flying =>
      intro delta hd
      simp only [Function.update_self, Option.some.injEq] at hd
      exact ⟨timestamp, n', hd.symm, by rw [hlast, hstate]⟩

variable [JsonText]

theorem Raiser.deltaWrites (r : Raiser) (selfUri : String) (timestamp : DateTime)
    (n : Notification) :
    SignalK.deltaWrites selfUri (r.raiseNotification timestamp n) =
      [Write.of selfUri (makeSourceRef (Source.plugin r.pluginId)) timestamp
        ⟨r.storePath, n.toValue⟩] :=
  deltaWrites_selfVessel selfUri _ timestamp [⟨r.storePath, n.toValue⟩]

theorem Tracks.apply {requests : ι → Request} (h : Tracks r sys posted) (clock : Nat → DateTime)
    (hl : Lands r requests sys (.apply clock)) : Tracks r (sys.apply () clock).1 posted := by
  cases hf : sys.inFlight () with
  | none =>
    rw [System.apply, hf]
    exact h
  | some delta =>
    obtain ⟨timestamp, n, rfl, hlast⟩ := h.flying delta hf
    simp only [System.apply, hf]
    constructor
    case untracked => exact h.untracked
    case flying => simp
    case cleared =>
      intro hs _
      have hnormal : n.state = .normal := Option.some.inj (hlast.symm.trans hs)
      have hacc := hl _ hf _ (by rw [r.deltaWrites]; exact List.mem_singleton.mpr rfl)
        (by simp [Write.pathValue, Write.of, r.notification_toValue, hnormal])
      have hget := sys.state.store.getSelfPath_single clock (Source.plugin r.pluginId) timestamp
        ⟨r.storePath, n.toValue⟩ r.storePath
      rw [if_pos ⟨rfl, hacc⟩] at hget
      exact ⟨_, hget, n, n.fromValue_toValue, hnormal⟩

/-- A request that writes leaves a clear notification clear. -/
theorem IsClear.write {q : Request} {n : Notification} {path : String}
    {st : SignalKStore} (hc : IsClear st path)
    (hn : q.storePath = path → n.state ≠ .normal →
      ∀ w ∈ deltaWrites st.selfUri (q.writeBack n),
        st.ledger.accepts (q.clock 0) w = false) :
    IsClear (st.applyDelta q.clock (q.writeBack n)).1 path := by
  have hget := st.getSelfPath_single q.clock (Source.plugin "signalk-rs") q.timestamp
    ⟨q.storePath, n.toValue⟩ path
  split_ifs at hget with hw
  · by_cases hs : n.state = .normal
    · exact ⟨_, hget, n, n.fromValue_toValue, hs⟩
    · have hrej := hn hw.1.symm hs _ (by
        rw [Request.writeBack, deltaWrites_selfVessel]
        exact List.mem_singleton.mpr rfl)
      rw [hrej] at hw
      exact absurd hw.2 (by simp)
  · obtain ⟨sv, hsv, hclear⟩ := hc
    exact ⟨sv, hget.trans hsv, hclear⟩

theorem Tracks.request [DecidableEq ι] {requests : ι → Request} (h : Tracks r sys posted) (i : ι)
    (hl : Lands r requests sys (.request i)) :
    Tracks r (sys.request requests i).1 posted := by
  have hkeep : ∀ (s : ServerState) (q : Progress),
      (sys.state.notificationManager.lookup r.storePath = none →
        s.notificationManager.lookup r.storePath = none) →
      (IsClear sys.state.store r.storePath → IsClear s.store r.storePath) →
      Tracks r { sys with state := s, progress := Function.update sys.progress i q } posted := by
    intro s q hm hs
    exact ⟨fun hlast => hm (h.untracked hlast), fun hlast hf => hs (h.cleared hlast hf), h.flying⟩
  unfold System.request
  obtain ⟨response, ha⟩ | ⟨sv, n, -, -, -, -, ha⟩ | ⟨n, id, n', -, -, ha⟩ | ⟨n, hp, ha⟩ |
    ⟨-, ha⟩ := (requests i).advance_cases sys.state (sys.progress i)
  · rw [ha]
    exact hkeep sys.state _ id id
  · rw [ha]
    exact hkeep sys.state _ (fun hm => hm) (fun hs => hs)
  · rw [ha]
    exact hkeep sys.state _ (fun hm => hm) (fun hs => hs)
  · rw [ha]
    refine hkeep _ _ (fun hm => hm) (fun hs => hs.write fun hpath hstate => ?_)
    exact hl n (by rw [hp]; rfl) hpath hs hstate
  · rw [ha]
    refine hkeep _ _ (fun hm => ?_) (fun hs => hs)
    cases (requests i).mutation with
    | silence => exact NotificationManager.lookup_modify_eq_none hm _ _
    | acknowledge => exact NotificationManager.lookup_modify_eq_none hm _ _

end

/-- For any priorities and any interleaving whose clears are taken and whose requests
do not write a stale alarm. -/
theorem cleared_stays_cleared [JsonText] {ι : Type} [DecidableEq ι] (r : Raiser)
    (requests : ι → Request) (s : ServerState) (moves : List (Move ι))
    (hm : Machine.Meets (moveStep r requests) (Lands r requests) (System.start s) moves) :
    ∀ ms, ms <+: moves →
      StaysCleared r (Machine.exec (moveStep r requests) (System.start s) ms).1
        (Machine.exec (moveStep r requests) (System.start s) ms).2 := by
  intro ms hp
  obtain ⟨ns, rfl⟩ := hp
  have hstart : Tracks r (System.start s : System Unit ι) [] :=
    ⟨by simp, by simp, by simp [System.start]⟩
  have hstep : ∀ sys posted m, Tracks r sys posted → Lands r requests sys m →
      Tracks r (moveStep r requests sys m).1 (posted ++ (moveStep r requests sys m).2) := by
    intro sys posted m h hl
    cases m with
    | post uuids timestamp n => exact h.post uuids timestamp n
    | apply clock =>
      rw [moveStep, Move.posted, List.append_nil]
      exact h.apply clock hl
    | request i =>
      rw [moveStep, Move.posted, List.append_nil]
      exact h.request i hl
  have htracks := Machine.exec_inv hstep hstart (Machine.meets_append.mp hm).1
  rw [List.nil_append] at htracks
  exact fun hlast hf _ => ⟨htracks.cleared hlast hf, htracks.untracked hlast⟩

section
attribute [local instance] JsonText.unused

abbrev anchorAlarm : Raiser := ⟨"anchor-alarm", "navigation.anchor"⟩

/-- The anchor watch posts a notification and it is stored. -/
abbrev anchorPosts (state : NotificationState) (method : List NotificationMethod) :
    List (Move Unit) :=
  [.post (fun _ => "a") 0 ⟨none, state, method, "", none⟩, .apply fun _ => 0]

abbrev silencingAnchor : Unit → Request := fun _ => ⟨.silence, "navigation.anchor", 0, fun _ => 0⟩

/-- A server that ranks some sources. -/
abbrev serverRanking (priorities : HashMap SourceRef UInt16) : ServerState :=
  ⟨(SignalKStore.new "urn:mrn:signalk:uuid:1").setSourcePriorities priorities, ∅⟩

/-- Silenced in time, the alarm is cleared for good. -/
abbrev silencedThenCleared : List (Move Unit) :=
  anchorPosts .alarm [.sound] ++ [.request (), .request (), .request ()] ++ anchorPosts .normal []

/-- The request reads the alarm before the clear and writes after it. -/
abbrev clearedWhileSilencing : List (Move Unit) :=
  anchorPosts .alarm [.sound] ++ [.request ()] ++ anchorPosts .normal [] ++
    [.request (), .request ()]

theorem cleared_stays_cleared_silenced :
    StaysCleared anchorAlarm
      (Machine.exec (moveStep anchorAlarm silencingAnchor) (System.start (serverRanking ∅))
        silencedThenCleared).1
      (Machine.exec (moveStep anchorAlarm silencingAnchor) (System.start (serverRanking ∅))
        silencedThenCleared).2 := by
  have hm : Machine.Meets (moveStep anchorAlarm silencingAnchor)
      (Lands anchorAlarm silencingAnchor) (System.start (serverRanking ∅))
      silencedThenCleared := by
    decide +kernel
  exact cleared_stays_cleared anchorAlarm silencingAnchor (serverRanking ∅) silencedThenCleared hm _
    (List.prefix_refl _)

/-- The stale alarm stands over the clear; where the server's own source ranks above the
plugin's, so does the silenced alarm, without any race. -/
theorem cleared_alarm_returns :
    (¬ StaysCleared anchorAlarm
      (Machine.exec (moveStep anchorAlarm silencingAnchor) (System.start (serverRanking ∅))
        clearedWhileSilencing).1
      (Machine.exec (moveStep anchorAlarm silencingAnchor) (System.start (serverRanking ∅))
        clearedWhileSilencing).2) ∧
    ¬ StaysCleared anchorAlarm
      (Machine.exec (moveStep anchorAlarm silencingAnchor)
        (System.start (serverRanking (HashMap.collect [("anchor-alarm", 50), ("signalk-rs", 10)])))
        silencedThenCleared).1
      (Machine.exec (moveStep anchorAlarm silencingAnchor)
        (System.start (serverRanking (HashMap.collect [("anchor-alarm", 50), ("signalk-rs", 10)])))
        silencedThenCleared).2 := by
  decide +kernel

end

end SignalK.Notifications

import SignalK.Notifications.Api

/-! Silenced and acknowledged notifications must make no sound, and an emergency must
not be silenced. The requests see to it in what they write; the filter copies the flags
of the entry onto whatever the plugin raises next, and leaves its methods alone. -/
namespace SignalK

namespace Notification

def silenced (n : Notification) : Bool :=
  decide (n.status.bind (·.silenced) = some true)

def acknowledged (n : Notification) : Bool :=
  decide (n.status.bind (·.acknowledged) = some true)

/-- No sound once silenced or acknowledged, and no emergency silenced. -/
def Silent (n : Notification) : Prop :=
  (n.silenced = true ∨ n.acknowledged = true → .sound ∉ n.method) ∧
    (n.state = .emergency → n.silenced = false)

instance (n : Notification) : Decidable n.Silent :=
  inferInstanceAs (Decidable (_ ∧ _))

theorem silent_cleared (n : Notification) (old : Option NotificationEntry) :
    (n.cleared old).Silent := by
  simp [Silent, silenced, acknowledged, cleared]

theorem silent_enriched (n : Notification) (entry : NotificationEntry) :
    (n.enriched entry).Silent ↔
      (entry.silenced = true ∨ entry.acknowledged = true → .sound ∉ n.method) ∧
        (n.state = .emergency → entry.silenced = false) := by
  simp [Silent, silenced, acknowledged, enriched]

end Notification

/-- A notification of the path, if the value is one, is silent where it must be. -/
def SilentValue (path : String) (value : Json) : Prop :=
  ∀ n, (PathValue.mk path value).notification = some n → n.Silent

theorem silentValue_toValue {path : String} {n : Notification} (h : n.Silent) :
    SilentValue path n.toValue := by
  intro n' hn'
  by_cases hp : Text.startsWith path "notifications." = true
  · rw [PathValue.notification, if_pos hp, Notification.fromValue_toValue] at hn'
    rwa [← Option.some.inj hn']
  · simp [PathValue.notification, hp] at hn'

namespace NotificationManager

/-- An active value that finds a live entry has no sound if that entry is silenced or
acknowledged, and is no emergency if it is silenced. -/
def Respects (m : NotificationManager) (e : String × Bool × PathValue) : Prop :=
  ∀ n ∈ e.2.2.notification, n.state ≠ .normal → ∀ entry ∈ m.lookup e.2.2.path,
    (entry.silenced = true ∨ entry.acknowledged = true → .sound ∉ n.method) ∧
      (n.state = .emergency → entry.silenced = false)

instance (m : NotificationManager) (e : String × Bool × PathValue) : Decidable (m.Respects e) :=
  inferInstanceAs (Decidable (∀ n ∈ _, _ → ∀ entry ∈ _, _))

theorem silent_enrichStep (m : NotificationManager) (e : String × Bool × PathValue)
    (h : m.Respects e) : ∀ pv ∈ (enrichStep m e).2, SilentValue pv.path pv.value := by
  obtain ⟨uuid, isPluginSource, pv⟩ := e
  intro pv' hpv'
  rw [List.mem_singleton.mp hpv']
  cases hn : pv.notification with
  | none =>
    rw [enrichValue_other uuid isPluginSource hn]
    intro n hn'
    rw [hn] at hn'
    cases hn'
  | some n =>
    by_cases hs : n.state = .normal
    · rw [enrichValue_clear uuid isPluginSource hn hs]
      exact silentValue_toValue (n.silent_cleared _)
    · rw [enrichValue_active uuid isPluginSource hn hs]
      apply silentValue_toValue
      rw [Notification.silent_enriched, live]
      cases hm : m.lookup pv.path with
      | none => simp [NotificationEntry.raised]
      | some entry => exact h n hn hs entry hm

end NotificationManager

namespace Notifications

/-- Every notification value the store holds, active or of one source, of any vessel. -/
def StaysSilent (st : SignalKStore) : Prop :=
  st.ledger.All SilentValue

/-- The values of a delta for a vessel respect the entries they find in the filter. -/
def Respected {π ι : Type} (sys : System π ι) : Turn π ι → Prop
  | .enrich _ uuids delta =>
    vesselUri sys.state.store.selfUri delta.context ≠ none →
      Machine.Meets NotificationManager.enrichStep NotificationManager.Respects
        sys.state.notificationManager (Machine.timed uuids (NotificationManager.flagged delta))
  | .apply _ _ => True
  | .request _ => True

instance {π ι : Type} (sys : System π ι) (turn : Turn π ι) : Decidable (Respected sys turn) :=
  match turn with
  | .enrich .. => inferInstanceAs (Decidable (_ → _))
  | .apply .. => inferInstanceAs (Decidable True)
  | .request _ => inferInstanceAs (Decidable True)

/-- What a plugin or a request is about to write is silent where it must be. -/
structure Quiet {π ι : Type} (sys : System π ι) : Prop where
  stored : StaysSilent sys.state.store
  inFlight : ∀ plugin delta, sys.inFlight plugin = some delta →
    vesselUri sys.state.store.selfUri delta.context ≠ none →
    ∀ pv ∈ delta.pathValues, SilentValue pv.path pv.value
  parsed : ∀ i n, sys.progress i = .parsed n → n.Silent
  mutated : ∀ i n, sys.progress i = .mutated n → n.Silent

theorem silent_mutate {m : Mutation} {n n' : Notification}
    (hn : n.state = .emergency → n.silenced = false) (h : m.mutate n = .ok n') : n'.Silent := by
  cases m with
  | silence =>
    by_cases he : n.state = .emergency
    · simp [Mutation.mutate, he] at h
    · simp only [Mutation.mutate, if_neg he, Except.ok.injEq] at h
      simp [Notification.Silent, ← h, he]
  | acknowledge =>
    cases h
    constructor
    · intro _ hm
      simp only at hm
      split_ifs at hm <;> simp at hm
    · intro he
      have hs := hn he
      cases hst : n.status with
      | none => simp [Notification.silenced, NotificationStatus.default]
      | some status => simpa [Notification.silenced, hst] using hs

theorem StaysSilent.read {st : SignalKStore} {r : Request} {sv : SignalKValue} {n : Notification}
    (hs : StaysSilent st) (hsv : st.getSelfPath r.storePath = some sv)
    (hn : Notification.fromValue sv.value = some n) : n.Silent := by
  apply hs.1 st.selfUri r.storePath sv hsv n
  simp [PathValue.notification, Request.storePath, hn]

theorem StaysSilent.writeBack [JsonText] {st : SignalKStore} (hs : StaysSilent st) (r : Request)
    {n : Notification} (hn : n.Silent) : StaysSilent (st.applyDelta r.clock (r.writeBack n)).1 := by
  apply SignalKStore.all_applyDelta r.clock hs
  intro _ pv hpv
  rw [List.mem_singleton.mp hpv]
  exact silentValue_toValue hn

section
variable {π ι : Type} {sys : System π ι}

theorem Quiet.enrich [DecidableEq π] (h : Quiet sys) (plugin : π) (uuids : Nat → String) (delta : Delta)
    (hr : Respected sys (.enrich plugin uuids delta)) : Quiet (sys.enrich plugin uuids delta) := by
  cases hf : sys.inFlight plugin with
  | some d =>
    rw [System.enrich, hf]
    exact h
  | none =>
    simp only [System.enrich, hf]
    refine ⟨h.stored, ?_, h.parsed, h.mutated⟩
    intro p d hd hu pv hpv
    by_cases hp : p = plugin
    · simp only [hp, Function.update_self, Option.some.injEq] at hd
      rw [← hd] at hu hpv
      rw [NotificationManager.enrichDelta_pathValues] at hpv
      exact Machine.emitted_of_meets NotificationManager.silent_enrichStep (hr hu) pv hpv
    · simp only [Function.update_of_ne hp] at hd
      exact h.inFlight p d hd hu pv hpv

variable [JsonText]

theorem Quiet.apply [DecidableEq π] (h : Quiet sys) (plugin : π) (clock : Nat → DateTime) :
    Quiet (sys.apply plugin clock).1 := by
  cases hf : sys.inFlight plugin with
  | none =>
    rw [System.apply, hf]
    exact h
  | some delta =>
    simp only [System.apply, hf]
    refine ⟨SignalKStore.all_applyDelta clock h.stored (h.inFlight plugin delta hf), ?_,
      h.parsed, h.mutated⟩
    intro p d hd hu pv hpv
    by_cases hp : p = plugin
    · simp [hp] at hd
    · simp only [Function.update_of_ne hp] at hd
      rw [SignalKStore.applyDelta_selfUri] at hu
      exact h.inFlight p d hd hu pv hpv

/-- Whatever a request read and whenever it writes, what it writes is silent. -/
theorem Quiet.request [DecidableEq ι] (h : Quiet sys) (requests : ι → Request) (i : ι) :
    Quiet (sys.request requests i).1 := by
  have hothers : ∀ (q : Progress) (j : ι) (n : Notification), j ≠ i →
      (Function.update sys.progress i q j = .parsed n → n.Silent) ∧
        (Function.update sys.progress i q j = .mutated n → n.Silent) := by
    intro q j n hj
    rw [Function.update_of_ne hj]
    exact ⟨h.parsed j n, h.mutated j n⟩
  have hkeep : ∀ (s : ServerState) (q : Progress), StaysSilent s.store →
      s.store.selfUri = sys.state.store.selfUri → (∀ n, q = .parsed n → n.Silent) →
      (∀ n, q = .mutated n → n.Silent) →
      Quiet { sys with state := s, progress := Function.update sys.progress i q } := by
    intro s q hs hself hparsed hmutated
    refine ⟨hs, ?_, ?_, ?_⟩
    · intro p d hd hu
      exact h.inFlight p d hd (hself ▸ hu)
    · intro j n hq
      by_cases hj : j = i
      · exact hparsed n (by simpa [hj] using hq)
      · exact (hothers q j n hj).1 hq
    · intro j n hq
      by_cases hj : j = i
      · exact hmutated n (by simpa [hj] using hq)
      · exact (hothers q j n hj).2 hq
  unfold System.request
  obtain ⟨response, ha⟩ | ⟨sv, n, hsv, hn, -, -, ha⟩ | ⟨n, id, n', hn, hm, ha⟩ | ⟨n, hp, ha⟩ |
    ⟨-, ha⟩ := (requests i).advance_cases sys.state (sys.progress i)
  · rw [ha]
    exact hkeep sys.state _ h.stored rfl (by simp) (by simp)
  · rw [ha]
    refine hkeep sys.state _ h.stored rfl (fun m hm => ?_) (by simp)
    rw [← Progress.parsed.inj hm]
    exact h.stored.read hsv hn
  · have hsilent : n.Silent := by
      obtain ⟨sv, hsv, hfrom, -⟩ | hp := hn
      · exact h.stored.read hsv hfrom
      · exact h.parsed i n hp
    rw [ha]
    refine hkeep sys.state _ h.stored rfl (by simp) (fun m hmm => ?_)
    rw [← Progress.mutated.inj hmm]
    exact silent_mutate (n := { n with id := id }) hsilent.2 hm
  · rw [ha]
    exact hkeep _ _ (h.stored.writeBack (requests i) (h.mutated i n hp))
      (SignalKStore.applyDelta_selfUri ..) (by simp) (by simp)
  · rw [ha]
    exact hkeep _ _ h.stored rfl (by simp) (by simp)

end

/-- Through any interleaving of the plugins' deltas with the steps of the requests,
whoever raises and whatever the priorities, as long as the values respect the entries
they find. -/
theorem silenced_stays_silent [JsonText] {π ι : Type} [DecidableEq π] [DecidableEq ι]
    (requests : ι → Request) (s : ServerState) (turns : List (Turn π ι))
    (hs : StaysSilent s.store)
    (hm : Machine.Meets (System.step requests) Respected (System.start s) turns) :
    ∀ ts, ts <+: turns →
      StaysSilent (Machine.run (System.step requests) (System.start s) ts).state.store := by
  intro ts ht
  obtain ⟨us, rfl⟩ := ht
  have hstart : Quiet (System.start s : System π ι) :=
    ⟨hs, by simp [System.start], by simp [System.start], by simp [System.start]⟩
  refine (Machine.run_inv ?_ hstart (Machine.meets_append.mp hm).1).stored
  intro sys turn hq hr
  cases turn with
  | enrich plugin uuids delta => exact hq.enrich plugin uuids delta hr
  | apply plugin clock => exact hq.apply plugin clock
  | request i => exact hq.request requests i

section
attribute [local instance] JsonText.unused

/-- The anchor watch raises its notification, and the delta is stored. -/
abbrev anchorRaised (uuid : String) (state : NotificationState)
    (method : List NotificationMethod) : List (Turn Unit Unit) :=
  [.enrich () (fun _ => uuid) (Delta.selfVessel [⟨Source.plugin "anchor-alarm", 0,
      [⟨"notifications.navigation.anchor",
        (Notification.mk none state method "Anchor dragging" none).toValue⟩]⟩]),
    .apply () fun _ => 0]

abbrev silenceAnchor : Unit → Request := fun _ => ⟨.silence, "navigation.anchor", 0, fun _ => 0⟩

abbrev freshServer : ServerState := ⟨SignalKStore.new "urn:mrn:signalk:uuid:1", ∅⟩

/-- The alarm sounds, is silenced, and is raised again. -/
abbrev silencedThen (state : NotificationState) (method : List NotificationMethod) :
    List (Turn Unit Unit) :=
  anchorRaised "a" .alarm [.visual, .sound] ++ [.request (), .request (), .request ()] ++
    anchorRaised "b" state method

/-- The notification that the store holds for the anchor watch. -/
def anchorNotification (sys : System Unit Unit) : Option Notification :=
  (sys.state.store.getSelfPath (silenceAnchor ()).storePath).bind
    fun sv => Notification.fromValue sv.value

theorem not_staysSilent {sys : System Unit Unit}
    (h : ∃ n ∈ anchorNotification sys, ¬ n.Silent) : ¬ StaysSilent sys.state.store := by
  obtain ⟨n, hn, hns⟩ := h
  obtain ⟨sv, hsv, hfrom⟩ := Option.bind_eq_some_iff.mp hn
  exact fun hs => hns (hs.read hsv hfrom)

theorem silenced_stays_silent_visual :
    StaysSilent (Machine.run (System.step silenceAnchor) (System.start freshServer)
      (silencedThen .alarm [.visual])).state.store := by
  have hnew : StaysSilent freshServer.store := by
    constructor
    · intro uri path v hv
      simp [SignalKStore.ledger] at hv
    · intro path source v hv
      simp [SignalKStore.ledger] at hv
  have hm : Machine.Meets (System.step silenceAnchor) Respected (System.start freshServer)
      (silencedThen .alarm [.visual]) := by
    decide +kernel
  exact silenced_stays_silent silenceAnchor freshServer (silencedThen .alarm [.visual]) hnew hm _
    (List.prefix_refl _)

/-- Raised again, a silenced alarm sounds; escalated, it is a silenced emergency. -/
theorem reraised_sounds :
    ¬ StaysSilent (Machine.run (System.step silenceAnchor) (System.start freshServer)
        (silencedThen .alarm [.visual, .sound])).state.store ∧
      ¬ StaysSilent (Machine.run (System.step silenceAnchor) (System.start freshServer)
        (silencedThen .emergency [.visual])).state.store := by
  constructor
  · apply not_staysSilent
    decide +kernel
  · apply not_staysSilent
    decide +kernel

end

end Notifications
end SignalK

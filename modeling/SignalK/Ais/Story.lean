import SignalK.Ais.Lifecycle

/-! What the transitions of a target tell: a path of its statuses from its creation on,
confirmed by the first message that completes a window. -/
namespace SignalK

/-- The statuses that follow each other. -/
def TargetStatus.Leads : TargetStatus → TargetStatus → Prop
  | .acquiring, .tracking => True
  | .tracking, .lost => True
  | .lost, .tracking => True
  | _, _ => False

/-- The transitions lead from one status to another, each from where the last one led. -/
def StatusPath : TargetStatus → List StatusTransition → TargetStatus → Prop
  | s, [], s' => s = s'
  | s, tr :: trs, s' => tr.oldStatus = s ∧ s.Leads tr.newStatus ∧ StatusPath tr.newStatus trs s'

theorem StatusPath.concat {s s' : TargetStatus} {trs : List StatusTransition} (h : StatusPath s trs s') {tr : StatusTransition} (hold : tr.oldStatus = s')
    (hleads : s'.Leads tr.newStatus) : StatusPath s (trs ++ [tr]) tr.newStatus := by
  induction trs generalizing s with
  | nil =>
    cases h
    exact ⟨hold, hleads, rfl⟩
  | cons first trs ih => exact ⟨h.1, h.2.1, ih h.2.2⟩

/-- The last message completes a window: enough messages lie in it. -/
def Confirms (th : ClassThresholds) (messages : List Instant) : Prop :=
  ∃ last, messages.getLast? = some last ∧ th.confirmCount.toNat ≤
    (messages.filter fun i => decide (last - i ≤ nanos th.confirmWindow)).length

def FirstConfirms (th : ClassThresholds) (messages : List Instant) : Prop :=
  Confirms th messages ∧ ∀ ms, ms <+: messages → ms ≠ messages → ¬ Confirms th ms

def Confirmed (th : ClassThresholds) (messages : List Instant) : Prop :=
  ∃ ms, ms <+: messages ∧ Confirms th ms

section
variable {th : ClassThresholds} {messages : List Instant} {now : Instant}

theorem not_confirmed_nil : ¬ Confirmed th [] := by
  rintro ⟨ms, hms, last, hlast, -⟩
  rw [List.prefix_nil.mp hms] at hlast
  cases hlast

theorem confirms_concat : Confirms th (messages ++ [now]) ↔ th.confirmCount.toNat ≤
    ((messages ++ [now]).filter fun i => decide (now - i ≤ nanos th.confirmWindow)).length := by
  simp [Confirms]

theorem confirmed_concat :
    Confirmed th (messages ++ [now]) ↔ Confirms th (messages ++ [now]) ∨ Confirmed th messages := by
  simp only [Confirmed, List.prefix_concat_iff]
  constructor
  · rintro ⟨ms, rfl | hms, hc⟩
    · exact .inl hc
    · exact .inr ⟨ms, hms, hc⟩
  · rintro (hc | ⟨ms, hms, hc⟩)
    · exact ⟨_, .inl rfl, hc⟩
    · exact ⟨ms, .inr hms, hc⟩

theorem firstConfirms_concat : FirstConfirms th (messages ++ [now]) ↔
    Confirms th (messages ++ [now]) ∧ ¬ Confirmed th messages := by
  refine and_congr_right fun _ => ⟨fun h hearlier => ?_, fun h ms hms hne hc => h ?_⟩
  · obtain ⟨ms, hms, hc⟩ := hearlier
    refine h ms (hms.trans (List.prefix_append _ _)) (fun he => ?_) hc
    have hlen := hms.length_le
    rw [he, List.length_append, List.length_singleton] at hlen
    omega
  · obtain rfl | hprefix := List.prefix_concat_iff.mp hms
    · exact absurd rfl hne
    · exact ⟨ms, hprefix, hc⟩

end

/-- What was heard of a target, and told about it, since it was created. -/
structure Story where
  heard : List Instant
  told : List StatusTransition

/-- A target is where its story has led it. -/
structure TargetStory (mmsi : String) (th : ClassThresholds) (story : Story) (now : Instant)
    (t : TrackedTarget) : Prop where
  keyed : t.mmsi = mmsi
  thresholds : t.thresholds = th
  past : t.lastSeen ≤ now
  path : StatusPath .acquiring story.told t.status
  recent : t.status = .acquiring → t.recentMessages =
    story.heard.filter fun i => decide (t.lastSeen - i ≤ nanos th.confirmWindow)
  unconfirmed : t.status = .acquiring ↔ ¬ Confirmed th story.heard
  lost : t.status = .lost → nanos th.lostAfter < now - t.lastSeen

theorem windowStart_le (now : Instant) (secs : UInt64) : windowStart now secs ≤ now := by
  unfold windowStart
  split_ifs
  · exact le_rfl
  · exact Nat.sub_le _ _

/-- A window narrows as its end moves on. -/
theorem filter_within (messages : List Nat) {seen now : Nat} (window : Nat) (h : seen ≤ now) :
    (messages.filter fun i => decide (seen - i ≤ window)).filter
      (fun i => decide (now - i ≤ window)) =
      messages.filter fun i => decide (now - i ≤ window) := by
  rw [List.filter_filter]
  refine List.filter_congr fun i _ => ?_
  by_cases hi : now - i ≤ window
  · have hseen : seen - i ≤ window := by omega
    simp [hi, hseen]
  · simp [hi]

namespace TargetStory
variable {mmsi : String} {th : ClassThresholds} {story : Story} {now : Instant} {t : TrackedTarget}

theorem new (mmsi context : String) (now : Instant) (overrides : Option ThresholdOverrides) :
    TargetStory mmsi (ClassThresholds.forClassWithOverrides (classifyMmsi mmsi) overrides)
      ⟨[], []⟩ now (TrackedTarget.new mmsi context now overrides) where
  keyed := rfl
  thresholds := rfl
  past := le_rfl
  path := rfl
  recent _ := rfl
  unconfirmed := iff_of_true rfl not_confirmed_nil
  lost h := nomatch h

theorem updateFromValues (h : TargetStory mmsi th story now t) (values : List PathValue) :
    TargetStory mmsi th story now (t.updateFromValues values) := by
  obtain ⟨_, _, _, _, _, _, hframe⟩ := t.updateFromValues_frame values
  rw [hframe]
  exact ⟨h.keyed, h.thresholds, h.past, h.path, h.recent, h.unconfirmed, h.lost⟩

theorem later (h : TargetStory mmsi th story now t) {now' : Instant} (hle : now ≤ now') :
    TargetStory mmsi th story now' t where
  keyed := h.keyed
  thresholds := h.thresholds
  past := h.past.trans hle
  path := h.path
  recent := h.recent
  unconfirmed := h.unconfirmed
  lost hs := (h.lost hs).trans_le (Nat.sub_le_sub_right hle _)

/-- What is kept of the messages of a target that is not confirmed is the window. -/
theorem recent_concat (h : TargetStory mmsi th story now t) (hs : t.status = .acquiring)
    (hfits : t.recentMessages = [] ∨
      nanos th.confirmWindow ≤ now + nanos 0x8000000000000000) :
    (t.recentMessages ++ [now]).filter
        (fun i => decide (windowStart now t.thresholds.confirmWindow ≤ i)) =
      (story.heard ++ [now]).filter
        fun i => decide (now - i ≤ nanos th.confirmWindow) := by
  have hwindow := filter_within story.heard (nanos th.confirmWindow) h.past
  rw [← h.recent hs] at hwindow
  have hnow : ([now].filter fun i => decide (now - i ≤ nanos th.confirmWindow)) = [now] := by simp
  rw [List.filter_append _ [now], List.filter_append, hnow, h.thresholds, ← hwindow]
  cases hfits with
  | inl hnil => simp [hnil, windowStart_le]
  | inr hrange =>
    have hstart : windowStart now th.confirmWindow = now - nanos th.confirmWindow :=
      if_neg (Nat.not_lt.mpr hrange)
    have hall : ∀ i : Nat, decide (now - nanos th.confirmWindow ≤ i) =
        decide (now - i ≤ nanos th.confirmWindow) := by
      exact fun i => decide_eq_decide.mpr tsub_le_iff_tsub_le
    have hlast : ([now].filter fun i => decide (now - nanos th.confirmWindow ≤ i)) = [now] := by
      simp
    rw [hstart, hlast]
    simp only [hall]

/-- A target that is tracked has been confirmed. -/
theorem of_tracking {t' : TrackedTarget} (hkeyed : t'.mmsi = mmsi) (hth : t'.thresholds = th)
    (hpast : t'.lastSeen ≤ now) (hs : t'.status = .tracking)
    (hpath : StatusPath .acquiring story.told .tracking) (hc : Confirmed th story.heard) :
    TargetStory mmsi th story now t' where
  keyed := hkeyed
  thresholds := hth
  past := hpast
  path := hs ▸ hpath
  recent ht := nomatch hs.symm.trans ht
  unconfirmed := iff_of_false (fun ht => nomatch hs.symm.trans ht) fun hn => hn hc
  lost ht := nomatch hs.symm.trans ht

theorem confirmed (h : TargetStory mmsi th story now t) (hs : t.status ≠ .acquiring) :
    Confirmed th story.heard := by
  by_contra hun
  exact hs (h.unconfirmed.mpr hun)

theorem recordMessage_keyed (h : TargetStory mmsi th story now t) (seen : Instant) :
    ∀ tr ∈ (t.recordMessage seen).2.toList, tr.mmsi = mmsi := by
  have htransition : ∀ status, ∀ tr ∈ (some (t.transition status)).toList, tr.mmsi = mmsi := by
    intro status tr htr
    rw [Option.mem_toList.mp htr |> Option.some.inj |>.symm]
    exact h.keyed
  unfold TrackedTarget.recordMessage
  cases t.status with
  | acquiring =>
    simp only
    split_ifs
    · exact htransition .tracking
    · exact fun tr htr => nomatch htr
  | tracking => exact fun tr htr => nomatch htr
  | lost => exact htransition .tracking

/-- A message that counts: the first that completes a window confirms the target. -/
theorem recordMessage (h : TargetStory mmsi th story now t)
    (hfits : t.status = .acquiring → t.recentMessages = [] ∨
      nanos th.confirmWindow ≤ now + nanos 0x8000000000000000) :
    TargetStory mmsi th
        ⟨story.heard ++ [now], story.told ++ (t.recordMessage now).2.toList⟩ now
        (t.recordMessage now).1 ∧
      ((t.recordMessage now).2.map StatusTransition.oldStatus = some .acquiring ↔
        FirstConfirms th (story.heard ++ [now])) := by
  rw [firstConfirms_concat]
  have hpath := h.path
  unfold TrackedTarget.recordMessage
  cases hs : t.status with
  | acquiring =>
    rw [hs] at hpath
    have hrecent := h.recent_concat hs (hfits hs)
    have hun : ¬ Confirmed th story.heard := h.unconfirmed.mp hs
    have hiff : Confirms th (story.heard ++ [now]) ↔ t.thresholds.confirmCount.toNat ≤
        ((story.heard ++ [now]).filter
          fun i => decide (now - i ≤ nanos th.confirmWindow)).length := by
      rw [h.thresholds]
      exact confirms_concat
    simp only [hrecent]
    by_cases hc : Confirms th (story.heard ++ [now])
    · rw [if_pos (hiff.mp hc)]
      have hnext : StatusPath .acquiring (story.told ++ [t.transition .tracking]) .tracking :=
        hpath.concat hs trivial
      refine ⟨of_tracking h.keyed h.thresholds le_rfl rfl hnext ?_, ?_⟩
      · exact confirmed_concat.mpr (.inl hc)
      · exact iff_of_true (congrArg some hs) ⟨hc, hun⟩
    · rw [if_neg fun hcount => hc (hiff.mpr hcount)]
      refine ⟨⟨h.keyed, h.thresholds, le_rfl, ?_, fun _ => rfl, ?_, fun ht => nomatch ht⟩, ?_⟩
      · simpa using hpath
      · refine iff_of_true rfl fun hconfirmed => ?_
        exact (confirmed_concat.mp hconfirmed).elim hc hun
      · exact iff_of_false (fun hnone => nomatch hnone) fun hboth => hc hboth.1
  | lost =>
    rw [hs] at hpath
    have hconfirmed := h.confirmed (by simp [hs])
    have hnext : StatusPath .acquiring (story.told ++ [t.transition .tracking]) .tracking :=
        hpath.concat hs trivial
    refine ⟨of_tracking h.keyed h.thresholds le_rfl rfl hnext ?_, ?_⟩
    · exact confirmed_concat.mpr (.inr hconfirmed)
    · refine iff_of_false (fun hold => ?_) fun hboth => hboth.2 hconfirmed
      exact nomatch hs.symm.trans (Option.some.inj hold)
  | tracking =>
    rw [hs] at hpath
    have hconfirmed := h.confirmed (by simp [hs])
    refine ⟨of_tracking h.keyed h.thresholds le_rfl rfl ?_ ?_, ?_⟩
    · simpa using hpath
    · exact confirmed_concat.mpr (.inr hconfirmed)
    · exact iff_of_false (fun hnone => nomatch hnone) fun hboth => hboth.2 hconfirmed

/-- A tick that does not remove the target tells only that it was lost. -/
theorem aged (h : TargetStory mmsi th story now t) :
    TargetStory mmsi th
      ⟨story.heard, story.told ++ if t.silent now then [t.transition .lost] else []⟩ now
      (t.aged now) := by
  unfold TrackedTarget.aged
  by_cases hsilent : t.silent now = true
  · rw [if_pos hsilent, if_pos hsilent]
    obtain ⟨hs, hlong⟩ := of_decide_eq_true hsilent
    have hpath := h.path
    rw [hs] at hpath
    refine ⟨h.keyed, h.thresholds, h.past, ?_, (nomatch ·), ?_, fun _ => h.thresholds ▸ hlong⟩
    · exact hpath.concat hs trivial
    · exact iff_of_false (fun ht => nomatch ht) fun hun => hun (h.confirmed (by simp [hs]))
  · rw [if_neg hsilent, if_neg hsilent, List.append_nil]
    exact h

/-- What is left after a tick was heard in time, or is lost and was not. -/
theorem heard_in_time (h : TargetStory mmsi th story now t) (hstale : t.stale now = false) :
    ((t.aged now).status = .acquiring → now - t.lastSeen ≤ nanos th.confirmWindow) ∧
      ((t.aged now).status = .tracking → now - t.lastSeen ≤ nanos th.lostAfter) ∧
      ((t.aged now).status = .lost → nanos th.lostAfter < now - t.lastSeen) := by
  have hlost := h.lost
  unfold TrackedTarget.aged
  by_cases hsilent : t.silent now = true
  · rw [if_pos hsilent]
    obtain ⟨hs, hlong⟩ := of_decide_eq_true hsilent
    rw [h.thresholds] at hlong
    exact ⟨(nomatch ·), (nomatch ·), fun _ => hlong⟩
  · rw [if_neg hsilent]
    rw [TrackedTarget.silent, h.thresholds, decide_eq_true_eq, not_and, not_lt] at hsilent
    refine ⟨fun hs => ?_, hsilent, hlost⟩
    rw [TrackedTarget.stale, hs, h.thresholds, decide_eq_false_iff_not, not_lt] at hstale
    exact hstale

end TargetStory

/-- The thresholds that a target is created with. -/
def AisTracker.thresholdsFor (tr : AisTracker) (mmsi : String) : ClassThresholds :=
  ClassThresholds.forClassWithOverrides (classifyMmsi mmsi)
    (tr.config.overridesFor (classifyMmsi mmsi))

/-- The tracker on its clock, with the story of each target (history). -/
structure WatchedTracker where
  tracker : AisTracker
  now : Instant
  story : String → Story

/-- A call on the tracker, so much later than the one before. A tick names the order in
which the map is walked. -/
inductive TrackerCall where
  | message (later : Nat) (context : String) (values : List PathValue)
  | tick (later : Nat) (order : List StatusTransition)

namespace WatchedTracker

/-- What of some transitions is about a target. -/
def about (mmsi : String) (transitions : List StatusTransition) : List StatusTransition :=
  transitions.filter fun tr => decide (tr.mmsi = mmsi)

/-- The story before a message: a target that is not in the map begins. -/
def begun (w : WatchedTracker) (mmsi : String) : Story :=
  if (w.tracker.targets.lookup mmsi).isSome then w.story mmsi else ⟨[], []⟩

def onMessage (w : WatchedTracker) (context : String) (values : List PathValue)
    (now : Instant) : WatchedTracker × List StatusTransition :=
  let out := w.tracker.updateTarget context values now
  let returned := out.2.toList
  ({ tracker := out.1
     now := now
     story := fun mmsi =>
       if w.tracker.targetOf context = some mmsi then
         ⟨(w.begun mmsi).heard ++ [now], (w.begun mmsi).told ++ about mmsi returned⟩
       else ⟨(w.story mmsi).heard, (w.story mmsi).told ++ about mmsi returned⟩ }, returned)

/-- A tick that panics, or an order of other transitions, is no step. -/
def onTick (w : WatchedTracker) (order : List StatusTransition) (now : Instant) :
    WatchedTracker × List StatusTransition :=
  match w.tracker.tick now with
  | none => (w, [])
  | some (tracker, transitions) =>
    if (order : Multiset StatusTransition) = transitions then
      ({ tracker := tracker
         now := now
         story := fun mmsi =>
           ⟨(w.story mmsi).heard, (w.story mmsi).told ++ about mmsi order⟩ }, order)
    else (w, [])

def step (w : WatchedTracker) : TrackerCall → WatchedTracker × List StatusTransition
  | .message later context values => w.onMessage context values (w.now + later)
  | .tick later order => w.onTick order (w.now + later)

def start (selfUri : String) (config : TrackerConfig) (now : Instant) : WatchedTracker where
  tracker := AisTracker.withConfig selfUri config
  now := now
  story _ := ⟨[], []⟩

/-- Every target is where its story has led it, and was last seen when it was last heard. -/
def Storied (w : WatchedTracker) : Prop :=
  ∀ mmsi t, w.tracker.targets.lookup mmsi = some t →
    TargetStory mmsi (w.tracker.thresholdsFor mmsi) (w.story mmsi) w.now t ∧
      (w.story mmsi).heard.getLast? = some t.lastSeen

/-- No window reaches back further than an instant can, no sum of thresholds is too large. -/
def InRange (w : WatchedTracker) : TrackerCall → Prop
  | .message later context _ => ∀ mmsi ∈ w.tracker.targetOf context,
    ∀ t ∈ w.tracker.targets.lookup mmsi, t.status = .acquiring →
      nanos t.thresholds.confirmWindow ≤ w.now + later + nanos 0x8000000000000000
  | .tick _ _ => ∀ mmsi ∈ w.tracker.targets.keys, ∀ t ∈ w.tracker.targets.lookup mmsi,
    t.overflows = false

instance (w : WatchedTracker) : (c : TrackerCall) → Decidable (InRange w c)
  | .message later context _ => inferInstanceAs (Decidable (∀ mmsi ∈ w.tracker.targetOf context,
      ∀ t ∈ w.tracker.targets.lookup mmsi, t.status = .acquiring →
        nanos t.thresholds.confirmWindow ≤ w.now + later + nanos 0x8000000000000000))
  | .tick _ _ => inferInstanceAs (Decidable (∀ mmsi ∈ w.tracker.targets.keys,
      ∀ t ∈ w.tracker.targets.lookup mmsi, t.overflows = false))

/-- What is heard of a target completes its first window exactly when a message confirms it;
a tick goes through and leaves the targets that were heard in time, or lost ones. -/
def TellsStory (w : WatchedTracker) : TrackerCall → Prop
  | .message later context values => ∀ mmsi, w.tracker.targetOf context = some mmsi →
    let out := w.onMessage context values (w.now + later)
    ((∃ tr ∈ out.2, tr.oldStatus = .acquiring) ↔
      FirstConfirms (w.tracker.thresholdsFor mmsi) (out.1.story mmsi).heard)
  | .tick later _ => ∃ tracker transitions,
    w.tracker.tick (w.now + later) = some (tracker, transitions) ∧
      ∀ mmsi t, tracker.targets.lookup mmsi = some t →
        ∃ last, (w.story mmsi).heard.getLast? = some last ∧
          (t.status = .acquiring → w.now + later - last ≤
            nanos (w.tracker.thresholdsFor mmsi).confirmWindow) ∧
          (t.status = .tracking → w.now + later - last ≤
            nanos (w.tracker.thresholdsFor mmsi).lostAfter) ∧
          (t.status = .lost →
            nanos (w.tracker.thresholdsFor mmsi).lostAfter < w.now + later - last)

section
variable {w : WatchedTracker}

theorem about_eq_self {mmsi : String} {transitions : List StatusTransition}
    (h : ∀ tr ∈ transitions, tr.mmsi = mmsi) : about mmsi transitions = transitions :=
  List.filter_eq_self.mpr fun tr htr => decide_eq_true (h tr htr)

theorem about_eq_nil {mmsi : String} {transitions : List StatusTransition}
    (h : ∀ tr ∈ transitions, tr.mmsi ≠ mmsi) : about mmsi transitions = [] :=
  List.filter_eq_nil_iff.mpr fun tr htr hmmsi => h tr htr (of_decide_eq_true hmmsi)

theorem thresholdsFor_updateTarget (tr : AisTracker) (context : String) (values : List PathValue)
    (now : Instant) (mmsi : String) :
    (tr.updateTarget context values now).1.thresholdsFor mmsi = tr.thresholdsFor mmsi := by
  unfold AisTracker.updateTarget
  cases tr.targetOf context <;> rfl

theorem thresholdsFor_tick {tr tr' : AisTracker} {now : Instant}
    {transitions : Multiset StatusTransition} (h : tr.tick now = some (tr', transitions))
    (mmsi : String) : tr'.thresholdsFor mmsi = tr.thresholdsFor mmsi := by
  unfold AisTracker.tick at h
  split_ifs at h
  cases h
  rfl

/-- The target that a message is recorded in. -/
theorem entry_story (hw : Storied w) (mmsi context : String) {now : Instant} (hnow : w.now ≤ now) :
    TargetStory mmsi (w.tracker.thresholdsFor mmsi) (w.begun mmsi) now
      (w.tracker.entry mmsi context now) := by
  unfold begun AisTracker.entry
  cases hl : w.tracker.targets.lookup mmsi with
  | none => exact TargetStory.new mmsi context now _
  | some t => exact (hw mmsi t hl).1.later hnow

theorem entry_in_range (mmsi context : String) {now : Instant} {window : UInt64}
    (h : ∀ t, w.tracker.targets.lookup mmsi = some t → t.status = .acquiring →
      nanos window ≤ now + nanos 0x8000000000000000)
    (hs : (w.tracker.entry mmsi context now).status = .acquiring) :
    (w.tracker.entry mmsi context now).recentMessages = [] ∨
      nanos window ≤ now + nanos 0x8000000000000000 := by
  unfold AisTracker.entry at hs ⊢
  cases hl : w.tracker.targets.lookup mmsi with
  | none => exact .inl rfl
  | some t =>
    rw [hl] at hs
    exact .inr (h t hl hs)

/-- What a message does to the story of its target. -/
theorem message_story (hw : Storied w) {mmsi context : String} {values : List PathValue}
    {later : Nat} (hr : InRange w (.message later context values))
    (hn : w.tracker.targetOf context = some mmsi) :
    let now := w.now + later
    let recorded := ((w.tracker.entry mmsi context now).updateFromValues values).recordMessage now
    let heard := (w.begun mmsi).heard ++ [now]
    TargetStory mmsi (w.tracker.thresholdsFor mmsi)
        ⟨heard, (w.begun mmsi).told ++ recorded.2.toList⟩ now recorded.1 ∧
      (recorded.2.map StatusTransition.oldStatus = some .acquiring ↔
        FirstConfirms (w.tracker.thresholdsFor mmsi) heard) := by
  intro now recorded heard
  have hentry := (entry_story hw mmsi context (Nat.le_add_right w.now later)).updateFromValues values
  refine hentry.recordMessage fun hs => ?_
  obtain ⟨_, _, _, _, _, _, hframe⟩ := (w.tracker.entry mmsi context now).updateFromValues_frame values
  rw [hframe] at hs ⊢
  refine entry_in_range mmsi context (fun t hl hacquiring => ?_) hs
  rw [← (hw mmsi t hl).1.thresholds]
  exact hr mmsi hn t hl hacquiring

theorem lastSeen_recordMessage (t : TrackedTarget) (now : Instant) :
    (t.recordMessage now).1.lastSeen = now := by
  obtain ⟨status, hlife⟩ := t.life_recordMessage now
  exact congrArg Life.lastSeen hlife

/-- What a message returns is about its target. -/
theorem returned_keyed (hw : Storied w) {mmsi context : String} {values : List PathValue}
    {now : Instant} (hnow : w.now ≤ now) (hn : w.tracker.targetOf context = some mmsi) :
    ∀ tr ∈ (w.tracker.updateTarget context values now).2.toList, tr.mmsi = mmsi := by
  unfold AisTracker.updateTarget
  rw [hn]
  exact ((entry_story hw mmsi context hnow).updateFromValues values).recordMessage_keyed now

theorem storied_onMessage (hw : Storied w) {context : String} {values : List PathValue}
    {later : Nat} (hr : InRange w (.message later context values)) :
    Storied (w.onMessage context values (w.now + later)).1 := by
  have hnow := Nat.le_add_right w.now later
  intro mmsi t ht
  have hth := thresholdsFor_updateTarget w.tracker context values (w.now + later) mmsi
  simp only [onMessage, AisTracker.lookup_updateTarget] at ht ⊢
  rw [hth]
  by_cases hn : w.tracker.targetOf context = some mmsi
  · rw [if_pos hn] at ht ⊢
    cases ht
    have hstory := (message_story hw hr hn).1
    have hreturned : about mmsi (w.tracker.updateTarget context values (w.now + later)).2.toList =
        (w.tracker.updateTarget context values (w.now + later)).2.toList :=
      about_eq_self (returned_keyed hw hnow hn)
    rw [hreturned, lastSeen_recordMessage]
    refine ⟨?_, List.getLast?_concat⟩
    simpa [AisTracker.updateTarget, hn] using hstory
  · rw [if_neg hn] at ht ⊢
    have habout : about mmsi (w.tracker.updateTarget context values (w.now + later)).2.toList = [] := by
      cases hother : w.tracker.targetOf context with
      | none => simp [AisTracker.updateTarget, hother, about]
      | some other =>
        refine about_eq_nil fun tr htr hmmsi => hn ?_
        rw [hother, ← returned_keyed hw hnow hother tr htr, hmmsi]
    rw [habout, List.append_nil]
    obtain ⟨hstory, hlast⟩ := hw mmsi t ht
    exact ⟨hstory.later hnow, hlast⟩

theorem tells_onMessage (hw : Storied w) {context : String} {values : List PathValue}
    {later : Nat} (hr : InRange w (.message later context values)) :
    TellsStory w (.message later context values) := by
  intro mmsi hn out
  have hiff := (message_story hw hr hn).2
  simp only [out, onMessage, AisTracker.updateTarget, hn, if_pos]
  rw [← hiff]
  simp [Option.map_eq_some_iff]

theorem tick_transitions {tr tr' : AisTracker} {now : Instant}
    {transitions : Multiset StatusTransition} (h : tr.tick now = some (tr', transitions)) :
    transitions = tr.targets.entries.filterMap fun e =>
      if e.2.silent now then some (e.2.transition .lost) else none := by
  unfold AisTracker.tick at h
  split_ifs at h
  cases h
  rfl

/-- What a tick returns about a target. -/
theorem about_tick {tr tr' : AisTracker} {now : Instant}
    {transitions : Multiset StatusTransition} {order : List StatusTransition}
    (h : tr.tick now = some (tr', transitions))
    (horder : (order : Multiset StatusTransition) = transitions)
    (hkeyed : ∀ k t, tr.targets.lookup k = some t → t.mmsi = k) (mmsi : String) :
    about mmsi order = (tr.targets.lookup mmsi).toList.filterMap fun t =>
      if t.silent now then some (t.transition .lost) else none := by
  rw [tick_transitions h] at horder
  obtain ⟨l, hl⟩ := Quot.exists_rep tr.targets.entries
  have hentries := HashMap.filter_entries tr.targets mmsi
  rw [← hl] at hentries horder
  have hperm : order.Perm (l.filterMap fun e =>
      if e.2.silent now then some (e.2.transition .lost) else none) := Multiset.coe_eq_coe.mp horder
  have hmem : ∀ e ∈ l, e.2.mmsi = e.1 := by
    intro e he
    refine hkeyed e.1 e.2 (Finmap.lookup_eq_some_iff.mpr ?_)
    rw [← hl]
    exact he
  have hfound : (l.filter fun e => decide (e.1 = mmsi)).Perm
      ((tr.targets.lookup mmsi).toList.map fun t => ⟨mmsi, t⟩) := Multiset.coe_eq_coe.mp hentries
  have habout : (l.filterMap fun e =>
      if e.2.silent now then some (e.2.transition .lost) else none).filter
        (fun tr => decide (tr.mmsi = mmsi)) =
      (l.filter fun e => decide (e.1 = mmsi)).filterMap fun e =>
        if e.2.silent now then some (e.2.transition .lost) else none := by
    rw [List.filter_filterMap, List.filterMap_filter]
    refine List.filterMap_congr fun e he => ?_
    have hkey : (e.2.transition .lost).mmsi = e.1 := hmem e he
    by_cases hsilent : e.2.silent now = true
    · simp [hsilent, hkey, Option.filter]
    · simp [hsilent]
  have hall := (hperm.filter _).trans (List.Perm.of_eq habout)
  have hone := hall.trans (hfound.filterMap _)
  cases hk : tr.targets.lookup mmsi with
  | none =>
    rw [hk] at hone
    exact List.perm_nil.mp hone
  | some t =>
    rw [hk] at hone
    by_cases hsilent : t.silent now = true
    · simp only [Option.toList_some, List.map_cons, List.map_nil, List.filterMap_cons, hsilent,
        if_pos, List.filterMap_nil] at hone ⊢
      exact List.perm_singleton.mp hone
    · simp only [Option.toList_some, List.map_cons, List.map_nil, List.filterMap_cons, hsilent,
        List.filterMap_nil] at hone ⊢
      exact List.perm_nil.mp hone

theorem onTick_eq {order : List StatusTransition} {now : Instant} {tracker : AisTracker}
    {transitions : Multiset StatusTransition} (h : w.tracker.tick now = some (tracker, transitions))
    (horder : (order : Multiset StatusTransition) = transitions) :
    (w.onTick order now).1 = {
      tracker := tracker
      now := now
      story := fun mmsi => ⟨(w.story mmsi).heard, (w.story mmsi).told ++ about mmsi order⟩ } := by
  simp only [onTick, h, if_pos horder]

theorem lastSeen_aged (t : TrackedTarget) (now : Instant) : (t.aged now).lastSeen = t.lastSeen := by
  unfold TrackedTarget.aged
  split_ifs <;> rfl

theorem storied_onTick (hw : Storied w) (order : List StatusTransition) (later : Nat) :
    Storied (w.onTick order (w.now + later)).1 := by
  cases h : w.tracker.tick (w.now + later) with
  | none =>
    simp only [onTick, h]
    exact hw
  | some ticked =>
    obtain ⟨tracker, transitions⟩ := ticked
    by_cases horder : (order : Multiset StatusTransition) = transitions
    · rw [onTick_eq h horder]
      intro mmsi t' ht'
      simp only [AisTracker.lookup_tick h] at ht' ⊢
      obtain ⟨t, hl, haged⟩ := Option.bind_eq_some_iff.mp ht'
      obtain ⟨hstory, hlast⟩ := hw mmsi t hl
      split_ifs at haged with hstale
      cases haged
      have habout := about_tick h horder (fun k t hk => (hw k t hk).1.keyed) mmsi
      rw [habout, thresholdsFor_tick h, hl]
      have hlater := (hstory.later (Nat.le_add_right w.now later)).aged
      refine ⟨?_, hlast.trans (congrArg some (lastSeen_aged t _).symm)⟩
      cases hsilent : t.silent (w.now + later) <;> simpa [hsilent] using hlater
    · simp only [onTick, h, if_neg horder]
      exact hw

theorem tells_onTick (hw : Storied w) {order : List StatusTransition} {later : Nat}
    (hr : InRange w (.tick later order)) : TellsStory w (.tick later order) := by
  obtain ⟨tracker, transitions, h⟩ : ∃ tracker transitions,
      w.tracker.tick (w.now + later) = some (tracker, transitions) := by
    unfold AisTracker.tick
    split_ifs with ho
    · obtain ⟨mmsi, hmem, hany⟩ := ho
      obtain ⟨t, hl, hover⟩ := (Option.any_eq_true _ _).mp hany
      rw [hr mmsi hmem t hl] at hover
      cases hover
    · exact ⟨_, _, rfl⟩
  refine ⟨tracker, transitions, h, fun mmsi t' ht' => ?_⟩
  rw [AisTracker.lookup_tick h] at ht'
  obtain ⟨t, hl, haged⟩ := Option.bind_eq_some_iff.mp ht'
  obtain ⟨hstory, hlast⟩ := hw mmsi t hl
  split_ifs at haged with hstale
  cases haged
  refine ⟨t.lastSeen, hlast, ?_⟩
  exact (hstory.later (Nat.le_add_right w.now later)).heard_in_time (by simpa using hstale)

theorem step_tells (hw : Storied w) {c : TrackerCall} (hr : InRange w c) :
    Storied (w.step c).1 ∧ TellsStory w c := by
  cases c with
  | message later context values => exact ⟨storied_onMessage hw hr, tells_onMessage hw hr⟩
  | tick later order => exact ⟨storied_onTick hw order later, tells_onTick hw hr⟩

end

/-- As long as windows and sums of thresholds are in range, the transitions of a target since
its creation lead to its status, the first complete window confirms it, and a tick leaves
the targets heard in time and the lost ones. -/
theorem tells_whole_story (selfUri : String) (config : TrackerConfig) (now : Instant)
    (calls : List TrackerCall)
    (hmeets : Machine.Meets step InRange (start selfUri config now) calls) :
    ∀ cs, cs <+: calls →
      let w := Machine.run step (start selfUri config now) cs
      (∀ mmsi t, w.tracker.targets.lookup mmsi = some t →
        StatusPath .acquiring (w.story mmsi).told t.status) ∧
      ∀ c, cs ++ [c] <+: calls → TellsStory w c := by
  intro cs hcs w
  have hstart : Storied (start selfUri config now) := by
    intro mmsi t ht
    simp [start, AisTracker.withConfig] at ht
  obtain ⟨rest, rfl⟩ := hcs
  have hstep : ∀ w c, Storied w → InRange w c → Storied (w.step c).1 :=
    fun _ _ hs hr => (step_tells hs hr).1
  have hw : Storied w := Machine.run_inv hstep hstart (Machine.meets_append.mp hmeets).1
  refine ⟨fun mmsi t ht => (hw mmsi t ht).1.path, fun c hc => ?_⟩
  exact (step_tells hw (Machine.meets_iff_prefix.mp hmeets cs c hc)).2

section
open AisSystem (seconds)

def aisContext : String := "vessels.urn:mrn:imo:mmsi:211457160"

def selfOnly : String := "urn:mrn:signalk:uuid:test"

/-- Confirmed by two messages, lost in silence. -/
def lostInSilence : List TrackerCall :=
  [.message 0 aisContext [], .message (seconds 10) aisContext [],
    .tick (seconds 400) [⟨"211457160", aisContext, .tracking, .lost⟩]]

theorem tells_whole_story_lost :
    let w := Machine.run step (start selfOnly ⟨none, none, none, none⟩ 0) lostInSilence
    (w.tracker.targets.lookup "211457160").map TrackedTarget.status = some .lost ∧
      (w.story "211457160").told = [⟨"211457160", aisContext, .acquiring, .tracking⟩,
        ⟨"211457160", aisContext, .tracking, .lost⟩] ∧
      StatusPath .acquiring (w.story "211457160").told .lost := by
  intro w
  have hstatus : (w.tracker.targets.lookup "211457160").map TrackedTarget.status =
      some .lost := by decide +kernel
  have htold : (w.story "211457160").told = [⟨"211457160", aisContext, .acquiring, .tracking⟩,
      ⟨"211457160", aisContext, .tracking, .lost⟩] := by decide +kernel
  obtain ⟨t, ht, hlost⟩ := Option.map_eq_some_iff.mp hstatus
  have hmeets : Machine.Meets step InRange (start selfOnly ⟨none, none, none, none⟩ 0)
      lostInSilence := by decide +kernel
  have hstory := tells_whole_story selfOnly ⟨none, none, none, none⟩ 0 lostInSilence hmeets
    lostInSilence List.prefix_rfl
  have hpath := hstory.1 "211457160" t ht
  rw [hlost] at hpath
  exact ⟨hstatus, htold, hpath⟩

/-- A window so long that it starts before the first instant there is. -/
def endlessWindow : TrackerConfig where
  vessel := some ⟨none, some 0xFFFFFFFFFFFFFFFF, none, none⟩
  aton := none
  base := none
  sar := none

/-- Two messages a minute apart lie in the window, and do not confirm the target. -/
theorem endless_window_never_completes :
    let w := Machine.run step (start selfOnly endlessWindow 0) [.message (seconds 60) aisContext []]
    let out := w.onMessage aisContext [] (w.now + seconds 60)
    out.2 = [] ∧ (out.1.story "211457160").heard = [seconds 60, seconds 120] ∧
      FirstConfirms (w.tracker.thresholdsFor "211457160") (out.1.story "211457160").heard ∧
      ¬ TellsStory w (.message (seconds 60) aisContext []) := by
  intro w out
  have hreturned : out.2 = [] := by decide +kernel
  have hheard : (out.1.story "211457160").heard = [seconds 60] ++ [seconds 120] := by decide +kernel
  have hfirst : FirstConfirms (w.tracker.thresholdsFor "211457160")
      (out.1.story "211457160").heard := by
    rw [hheard, firstConfirms_concat, confirms_concat]
    refine ⟨by decide +kernel, fun hearlier => ?_⟩
    have hone : Confirms _ ([] ++ [seconds 60]) ∨ Confirmed _ [] := confirmed_concat.mp hearlier
    rw [confirms_concat] at hone
    exact hone.elim (by decide +kernel) not_confirmed_nil
  refine ⟨hreturned, hheard, hfirst, fun htells => ?_⟩
  have hnamed : w.tracker.targetOf aisContext = some "211457160" := by decide +kernel
  obtain ⟨tr, htr, -⟩ := (htells "211457160" hnamed).mpr hfirst
  have hnone : tr ∈ ([] : List StatusTransition) := hreturned ▸ htr
  cases hnone

end

end WatchedTracker
end SignalK

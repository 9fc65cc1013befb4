import SignalK.Ais.Collision
import SignalK.Ais.Story
import SignalK.Nmea.AisDecode

/-! The own vessel among the AIS targets: the plugin knows it by the spellings of `self` alone.
Sentences come in over connections, each with a decoder of its own. -/
namespace SignalK

def mmsiUrn (mmsi : String) : String := "urn:mrn:imo:mmsi:" ++ mmsi

/-- The context of the vessel with an MMSI. -/
def mmsiContext (mmsi : String) : String := AisTracker.mmsiPrefix ++ mmsi

theorem AisContact.context_eq (c : AisContact) : c.context = mmsiContext (mmsiText c.mmsi) := rfl

theorem mmsiContext_injective : Function.Injective mmsiContext :=
  fun _ _ h => (String.append_right_inj AisTracker.mmsiPrefix).mp h

namespace OwnShip
open AisStatus

/-- The receivers of sentences and the plugin. -/
structure Feed [AisParse] where
  ais : AisSystem
  decoders : Nat → AisDecoder

inductive FeedEvent where
  | connect (connection : Nat) (label : String)
  /-- a sentence that the AIS decoder looks at; what the other decoders make of it is another
  delta -/
  | sentence (connection : Nat) (text : String) (env : HandleEnv)
  | ais (e : AisEvent)

/-- What a step shows: a delta that the plugin hands over, or one of a sentence. -/
inductive Sign where
  | handed (delta : Delta)
  | decoded (text : String) (delta : Delta)

section
variable [AisParse] [JsonText] [FloatMath]

def step (f : Feed) : FeedEvent → Feed × List Sign
  | .connect connection label =>
    ({ f with decoders := Function.update f.decoders connection (AisDecoder.new label) }, [])
  | .sentence connection text env =>
    let out := (f.decoders connection).tryDecode text env.timestamp
    let decoders := Function.update f.decoders connection out.1
    match out.2 with
    | none => ({ f with decoders := decoders }, [])
    | some delta =>
      (⟨(f.ais.handleMessage env delta).1, decoders⟩, [.decoded text delta])
  | .ais e => ({ f with ais := (f.ais.step e).1 }, (f.ais.step e).2.map .handed)

def start (config : AisConfig) (store : SignalKStore) (now : Instant)
    (decoders : Nat → AisDecoder) : Feed :=
  ⟨AisSystem.start config store now, decoders⟩

end

/-- A delta about the vessel: of its context, or a notification of a collision with it. -/
def About (own : String) (delta : Delta) : Prop :=
  delta.context = some (mmsiContext own) ∨
    ∃ pv ∈ delta.pathValues, pv.path = collisionPath own

def HasPosition (delta : Delta) : Prop :=
  ∃ pv ∈ delta.pathValues, pv.path = "navigation.position"

def IsVdo (text : String) : Prop :=
  containsText text "VDO" = true

/-- The plugin says nothing about the own vessel, and a position of a VDO sentence is the
store's own. -/
def Sign.Fair (own selfUri : String) : Sign → Prop
  | .handed delta => ¬ About own delta
  | .decoded text delta =>
    IsVdo text → HasPosition delta → vesselUri selfUri delta.context = some selfUri

/-- The input handlers move no delta of another vessel to the own one. -/
def Keeps (own : String) (env : HandleEnv) : Prop :=
  ∀ delta delta', env.filter delta = some delta' → delta.context ≠ some (mmsiContext own) →
    delta'.context ≠ some (mmsiContext own)

/-- The events that bring nothing under the own MMSI: no delta, no AIS message, and a position
of a VDO sentence only where the store is known by its MMSI. -/
def Apart [AisParse] (own selfUri : String) (f : Feed) : FeedEvent → Prop
  | .connect _ _ => True
  | .sentence connection text env =>
    Keeps own env ∧ ∀ contact ∈ (f.decoders connection).contact text,
      mmsiText contact.mmsi ≠ own ∧
        (IsVdo text → contact.position.isSome → selfUri = mmsiUrn (mmsiText contact.mmsi))
  | .ais (.ingest _ delta) => delta.context ≠ some (mmsiContext own)
  | .ais (.emit _ env) => Keeps own env
  | .ais (.proceed _ env) => Keeps own env
  | .ais _ => True

/-! What such events keep. -/

def AboutEmission (own : String) (e : Emission) : Prop :=
  e.context = mmsiContext own ∨ ∃ pv ∈ e.values, pv.path = collisionPath own

theorem about_delta {own : String} {e : Emission} {timestamp : DateTime}
    (h : ¬ AboutEmission own e) : ¬ About own (e.delta timestamp) := by
  intro ha
  apply h
  rcases ha with hcontext | ⟨pv, hpv, hpath⟩
  · exact .inl (Option.some.inj hcontext)
  · exact .inr ⟨pv, by simpa [Emission.delta, Delta.withContext, Delta.pathValues] using hpv, hpath⟩

/-- Each target is known by its MMSI, which is not that of the own vessel. -/
structure Other (own key : String) (t : TrackedTarget) : Prop where
  ne : key ≠ own
  mmsi : t.mmsi = key
  context : t.context = mmsiContext key

structure Clear (own : String) (p : AisSystem) : Prop where
  broadcasts : ∀ delta ∈ p.broadcasts, delta.context ≠ some (mmsiContext own)
  targets : ∀ key t, p.target key = some t → Other own key t
  spawned : ∀ delta ∈ p.spawned, ¬ About own delta
  snapshots : ∀ motion left deltas changes, p.task = .computing motion left deltas changes →
    ∀ snap ∈ left, snap.mmsi ≠ own ∧ snap.context ≠ mmsiContext own
  pending : ∀ e ∈ p.pending, ¬ AboutEmission own e

variable {own : String}

theorem Other.context_ne {key : String} {t : TrackedTarget} (h : Other own key t) :
    t.context ≠ mmsiContext own := by
  rw [h.context]
  exact fun he => h.ne (mmsiContext_injective he)

/-- What identifies a target does not change. -/
theorem Other.of_same {key : String} {t t' : TrackedTarget} (h : Other own key t)
    (hmmsi : t'.mmsi = t.mmsi) (hcontext : t'.context = t.context) : Other own key t' :=
  ⟨h.ne, hmmsi.trans h.mmsi, hcontext.trans h.context⟩

theorem updateFromValues_same (t : TrackedTarget) (values : List PathValue) :
    (t.updateFromValues values).mmsi = t.mmsi ∧
      (t.updateFromValues values).context = t.context := by
  obtain ⟨_, _, _, _, _, _, h⟩ := TrackedTarget.updateFromValues_frame t values
  rw [h]
  exact ⟨rfl, rfl⟩

theorem recordMessage_same (t : TrackedTarget) (now : Instant) :
    (t.recordMessage now).1.mmsi = t.mmsi ∧ (t.recordMessage now).1.context = t.context ∧
      ∀ transition ∈ (t.recordMessage now).2, transition.context = t.context := by
  unfold TrackedTarget.recordMessage
  cases ht : t.status with
  | acquiring =>
    simp only
    split_ifs
    · refine ⟨rfl, rfl, fun transition h => ?_⟩
      rw [← Option.some.inj h]
      rfl
    · exact ⟨rfl, rfl, fun transition h => (by cases h)⟩
  | tracking => exact ⟨rfl, rfl, fun transition h => (by cases h)⟩
  | lost =>
    refine ⟨rfl, rfl, fun transition h => ?_⟩
    rw [← Option.some.inj h]
    rfl

theorem aged_same (t : TrackedTarget) (now : Instant) :
    (t.aged now).mmsi = t.mmsi ∧ (t.aged now).context = t.context := by
  unfold TrackedTarget.aged
  split_ifs
  · exact ⟨rfl, rfl⟩
  · exact ⟨rfl, rfl⟩

/-- A transition of another target is not about the own vessel. -/
theorem not_about_statusDelta {transition : StatusTransition} (timestamp : DateTime)
    (h : transition.context ≠ mmsiContext own) :
    ¬ About own (statusDelta transition timestamp) := by
  rintro (hcontext | ⟨pv, hpv, hpath⟩)
  · exact h (Option.some.inj hcontext)
  · exact statusDelta_others transition timestamp own pv hpv hpath

theorem not_about_cpaEmission {context : String} (result : CpaResult)
    (h : context ≠ mmsiContext own) : ¬ AboutEmission own (cpaEmission context result) := by
  rintro (hcontext | ⟨pv, hpv, hpath⟩)
  · exact h hcontext
  · exact cpaEmission_others context result own pv hpv hpath

theorem self_ne_mmsiContext (own : String) : "vessels.self" ≠ mmsiContext own := by
  intro he
  have hno : Text.startsWith "vessels.self" AisTracker.mmsiPrefix = false := by decide
  rw [he, mmsiContext, Text.startsWith_append] at hno
  cases hno

theorem not_about_notification {mmsi : String} (level : Option CpaAlarm) (h : mmsi ≠ own) :
    ¬ AboutEmission own (notificationEmission mmsi level) := by
  rintro (hcontext | ⟨pv, hpv, hpath⟩)
  · exact self_ne_mmsiContext own hcontext
  · rw [List.mem_singleton.mp hpv] at hpath
    exact h (collisionPath_injective hpath)

/-- A target is named by the context that its MMSI makes. -/
theorem context_of_targetOf {tracker : AisTracker} {context mmsi : String}
    (h : tracker.targetOf context = some mmsi) : context = mmsiContext mmsi := by
  unfold AisTracker.targetOf at h
  split_ifs at h
  rw [AisTracker.parseMmsi, Text.stripPrefix] at h
  split_ifs at h with hpre
  obtain ⟨rest, rfl⟩ := (Text.startsWith_iff _ _).mp hpre
  rw [← Option.some.inj h]
  simp [mmsiContext]

section
variable {p p' : AisSystem}

/-- Neither targets nor emissions change. -/
theorem Clear.of_frame (hp : Clear own p)
    (hbroadcasts : ∀ delta ∈ p'.broadcasts, delta.context ≠ some (mmsiContext own))
    (htracker : p'.tracker = p.tracker) (hspawned : ∀ delta ∈ p'.spawned, delta ∈ p.spawned)
    (htask : p'.task = p.task) : Clear own p' := by
  refine ⟨hbroadcasts, fun key t ht => ?_, fun delta hd => hp.spawned delta (hspawned delta hd),
    ?_, ?_⟩
  · apply hp.targets key t
    rwa [AisSystem.target, htracker] at ht
  · rw [htask]
    exact hp.snapshots
  · rw [AisSystem.pending_congr htask]
    exact hp.pending

theorem Clear.applyDelta [JsonText] (hp : Clear own p) (clock : Nat → DateTime) {delta : Delta}
    (h : delta.context ≠ some (mmsiContext own)) : Clear own (p.applyDelta clock delta) := by
  refine hp.of_frame (fun d hd => ?_) rfl (fun d hd => hd) rfl
  rcases List.mem_append.mp hd with hd | hd
  · exact hp.broadcasts d hd
  · rw [Host.broadcast_context clock p.store delta d hd]
    exact h

theorem Clear.handleMessage [JsonText] (hp : Clear own p) {env : HandleEnv} (hkeeps : Keeps own env)
    {delta : Delta} (h : delta.context ≠ some (mmsiContext own)) :
    Clear own (p.handleMessage env delta).1 := by
  unfold AisSystem.handleMessage
  cases hf : env.filter delta with
  | none => exact hp
  | some delta' => exact hp.applyDelta env.clock (hkeeps delta delta' hf h)

/-- What a message starts from is a target known by its MMSI. -/
theorem Clear.entry (hp : Clear own p) {tracker : AisTracker} (ht : p.tracker = some tracker)
    {mmsi : String} (hne : mmsi ≠ own) (now : Instant) :
    Other own mmsi (tracker.entry mmsi (mmsiContext mmsi) now) := by
  unfold AisTracker.entry
  cases hlookup : tracker.targets.lookup mmsi with
  | none => exact ⟨hne, rfl, rfl⟩
  | some t =>
    apply hp.targets mmsi t
    rw [AisSystem.target, ht, Option.bind_some, hlookup]

/-- A status delta is spawned for a transition of the target that the delta names. -/
theorem spawned_receive {delta d : Delta} {now : Instant} {timestamp : DateTime}
    (h : d ∈ (p.receive delta now timestamp).spawned) : d ∈ p.spawned ∨
      ∃ (tracker : AisTracker) (context mmsi : String) (transition : StatusTransition),
        p.tracker = some tracker ∧ delta.context = some context ∧
        tracker.targetOf context = some mmsi ∧
        transition ∈
          (((tracker.entry mmsi context now).updateFromValues delta.pathValues).recordMessage now).2 ∧
        d = statusDelta transition timestamp := by
  unfold AisSystem.receive at h
  cases hc : delta.context with
  | none =>
    rw [hc] at h
    exact .inl h
  | some context =>
    cases ht : p.tracker with
    | none =>
      simp only [hc, ht, ite_self] at h
      exact .inl h
    | some tracker =>
      simp only [hc, ht] at h
      by_cases hpre : Text.startsWith context AisTracker.mmsiPrefix = true
      · rw [if_neg (by simp [hpre])] at h
        rcases Multiset.mem_add.mp h with hd | hd
        · exact .inl hd
        · obtain ⟨transition, htransition, rfl⟩ := Option.map_eq_some_iff.mp
            (Option.mem_toList.mp (Multiset.mem_coe.mp hd))
          rw [AisTracker.updateTarget] at htransition
          cases hof : tracker.targetOf context with
          | none =>
            rw [hof] at htransition
            cases htransition
          | some mmsi =>
            rw [hof] at htransition
            exact .inr ⟨tracker, context, mmsi, transition, rfl, rfl, hof, htransition, rfl⟩
      · rw [if_pos (by simp [hpre])] at h
        exact .inl h

theorem Clear.receive (hp : Clear own p) {delta : Delta}
    (h : delta.context ≠ some (mmsiContext own)) (now : Instant) (timestamp : DateTime) :
    Clear own (p.receive delta now timestamp) := by
  have hnamed : ∀ (tracker : AisTracker) context mmsi, delta.context = some context →
      tracker.targetOf context = some mmsi → mmsi ≠ own ∧ context = mmsiContext mmsi := by
    intro tracker context mmsi hcontext htarget
    have heq := context_of_targetOf htarget
    refine ⟨fun he => h ?_, heq⟩
    rw [hcontext, heq, he]
  have htargets : ∀ key t, (p.receive delta now timestamp).target key = some t →
      Other own key t := by
    intro key t ht
    rw [AisSystem.target_receive] at ht
    split_ifs at ht with hn
    · obtain ⟨tracker, htracker, hcontext⟩ := Option.bind_eq_some_iff.mp hn
      obtain ⟨context, hcontext, hof⟩ := Option.bind_eq_some_iff.mp hcontext
      obtain ⟨hne, heq⟩ := hnamed tracker context key hcontext hof
      rw [htracker, hcontext, Option.bind_some, Option.map_some] at ht
      rw [← Option.some.inj ht, heq]
      obtain ⟨hmmsi, hctx⟩ := updateFromValues_same
        (tracker.entry key (mmsiContext key) now) delta.pathValues
      obtain ⟨hmmsi', hctx', -⟩ := recordMessage_same
        ((tracker.entry key (mmsiContext key) now).updateFromValues delta.pathValues) now
      exact (hp.entry htracker hne now).of_same (hmmsi'.trans hmmsi) (hctx'.trans hctx)
    · exact hp.targets key t ht
  have hspawned : ∀ d ∈ (p.receive delta now timestamp).spawned, ¬ About own d := by
    intro d hd
    rcases spawned_receive hd with hd | ⟨tracker, context, mmsi, transition, htracker, hcontext,
      hof, htransition, rfl⟩
    · exact hp.spawned d hd
    · obtain ⟨hne, heq⟩ := hnamed tracker context mmsi hcontext hof
      apply not_about_statusDelta
      rw [(recordMessage_same _ now).2.2 transition htransition, (updateFromValues_same _ _).2, heq]
      exact (hp.entry htracker hne now).context_ne
  obtain ⟨-, htask, -⟩ := AisSystem.receive_frame p delta now timestamp
  refine ⟨?_, htargets, hspawned, ?_, ?_⟩
  · have hbroadcasts : (p.receive delta now timestamp).broadcasts = p.broadcasts := by
      unfold AisSystem.receive
      split
      · rfl
      · split
        · rfl
        · split <;> rfl
    rw [hbroadcasts]
    exact hp.broadcasts
  · rw [htask]
    exact hp.snapshots
  · rw [AisSystem.pending_congr htask]
    exact hp.pending

theorem Clear.deliver (hp : Clear own p) (now : Instant) (timestamp : DateTime) :
    Clear own (p.deliver now timestamp) := by
  unfold AisSystem.deliver
  cases hb : p.broadcasts with
  | nil => exact hp
  | cons delta broadcasts =>
    have hall := hp.broadcasts
    rw [hb] at hall
    have hrest : Clear own { p with broadcasts := broadcasts } :=
      hp.of_frame (fun d hd => hall d (List.mem_cons_of_mem delta hd)) rfl (fun d hd => hd) rfl
    simp only
    split_ifs
    · exact hrest.receive (hall delta List.mem_cons_self) now timestamp
    · exact hrest

theorem Clear.tick (hp : Clear own p) (hidle : p.task.isIdle = true) (now : Instant)
    (timestamp : DateTime) : Clear own (p.tick now timestamp) := by
  have hpending := AisSystem.pending_of_idle hidle
  unfold AisSystem.tick
  cases ht : p.tracker with
  | none => exact hp
  | some tracker =>
    cases htick : tracker.tick now with
    | none =>
      simp only [htick]
      refine ⟨hp.broadcasts, fun key t hkey => ?_, hp.spawned, hp.snapshots, hp.pending⟩
      cases hkey
    | some out =>
      obtain ⟨tracker', transitions⟩ := out
      simp only [htick]
      refine ⟨hp.broadcasts, fun key t hkey => ?_, fun d hd => ?_, ?_, ?_⟩
      · have hlookup : tracker'.targets.lookup key = some t := hkey
        rw [AisTracker.lookup_tick htick] at hlookup
        obtain ⟨old, hold, haged⟩ := Option.bind_eq_some_iff.mp hlookup
        split_ifs at haged
        rw [← Option.some.inj haged]
        have hother : Other own key old := by
          apply hp.targets key old
          rw [AisSystem.target, ht, Option.bind_some, hold]
        obtain ⟨hmmsi, hcontext⟩ := aged_same old now
        exact hother.of_same hmmsi hcontext
      · rcases Multiset.mem_add.mp hd with hd | hd
        · exact hp.spawned d hd
        · obtain ⟨transition, htransition, rfl⟩ := Multiset.mem_map.mp hd
          rw [WatchedTracker.tick_transitions htick] at htransition
          obtain ⟨e, he, hsilent⟩ := (Multiset.mem_filterMap _ _).mp htransition
          split_ifs at hsilent
          rw [← Option.some.inj hsilent]
          apply not_about_statusDelta
          have hother : Other own e.1 e.2 := by
            apply hp.targets e.1 e.2
            rw [AisSystem.target, ht, Option.bind_some]
            exact Finmap.lookup_eq_some_iff.mpr he
          exact hother.context_ne
      · intro motion left deltas changes htask
        split_ifs at htask
      · intro e he
        simp only [AisSystem.pending] at he
        split_ifs at he
        · cases he
        · cases he

/-- The stages of a round in which nothing is pending. -/
theorem Clear.between (hp : Clear own p) {task : Task}
    (hcomputing : ∀ motion left deltas changes, task ≠ .computing motion left deltas changes)
    (hemitting : ∀ left, task ≠ .emitting left) : Clear own { p with task := task } := by
  refine ⟨hp.broadcasts, hp.targets, hp.spawned, fun motion left deltas changes ht =>
    absurd ht (hcomputing motion left deltas changes), fun e he => ?_⟩
  rw [AisSystem.pending_between hcomputing hemitting] at he
  exact absurd he List.not_mem_nil

theorem Clear.examine [FloatMath] (hp : Clear own p) {motion : Motion} {snap : TargetCpaSnapshot}
    {left : List TargetCpaSnapshot} {deltas : List Emission}
    {changes : List (String × Option CpaAlarm)}
    (ht : p.task = .computing motion (snap :: left) deltas changes) :
    Clear own (p.examine motion snap left deltas changes) := by
  have hsnaps := hp.snapshots motion (snap :: left) deltas changes ht
  obtain ⟨hmmsi, hcontext⟩ := hsnaps snap List.mem_cons_self
  have hpending : ∀ e ∈ deltas ++ changes.map (fun change =>
      notificationEmission change.1 change.2), ¬ AboutEmission own e := by
    have h := hp.pending
    rwa [AisSystem.pending, ht] at h
  unfold AisSystem.examine
  cases hresult : Cpa.computeCpa motion snap.motion with
  | none =>
    refine ⟨hp.broadcasts, hp.targets, hp.spawned, fun motion' left' deltas' changes' htask => ?_,
      hpending⟩
    cases htask
    exact fun s hs => hsnaps s (List.mem_cons_of_mem snap hs)
  | some result =>
    refine ⟨hp.broadcasts, fun key t hkey => ?_, hp.spawned,
      fun motion' left' deltas' changes' htask => ?_, fun e he => ?_⟩
    · obtain ⟨tracker', htracker', hlookup⟩ := Option.bind_eq_some_iff.mp hkey
      obtain ⟨tracker, htracker, rfl⟩ := Option.map_eq_some_iff.mp htracker'
      rw [AisTracker.lookup_updateTargetCpa] at hlookup
      obtain ⟨old, hold, rfl⟩ := Option.map_eq_some_iff.mp hlookup
      have hother : Other own key old := by
        apply hp.targets key old
        rw [AisSystem.target, htracker, Option.bind_some, hold]
      by_cases hsame : key = snap.mmsi
      · rw [if_pos hsame]
        exact hother.of_same rfl rfl
      · rw [if_neg hsame]
        exact hother
    · cases htask
      exact fun s hs => hsnaps s (List.mem_cons_of_mem snap hs)
    · have hcpa := not_about_cpaEmission result hcontext
      have hnotify := not_about_notification (p.config.classify result) hmmsi
      simp only [AisSystem.pending, List.mem_append, List.mem_singleton] at he
      rcases he with (he | rfl) | he
      · exact hpending e (List.mem_append_left _ he)
      · exact hcpa
      · split_ifs at he
        · rw [List.map_append] at he
          rcases List.mem_append.mp he with he | he
          · exact hpending e (List.mem_append_right _ he)
          · rw [List.mem_singleton.mp he]
            exact hnotify
        · exact hpending e (List.mem_append_right _ he)

/-- A snapshot is of a target. -/
theorem snapshots_other (hp : Clear own p) {tracker : AisTracker} (ht : p.tracker = some tracker)
    {order : List (String × TrackedTarget)} (horder : HashMap.IterOrder order tracker.targets) :
    ∀ snap ∈ AisTracker.targetsForCpa order,
      snap.mmsi ≠ own ∧ snap.context ≠ mmsiContext own := by
  intro snap hsnap
  obtain ⟨e, he, hs⟩ := List.mem_filterMap.mp hsnap
  have hother : Other own e.1 e.2 := by
    apply hp.targets e.1 e.2
    rw [AisSystem.target, ht, Option.bind_some]
    exact (horder.mem_iff e.1 e.2).mp he
  unfold TrackedTarget.cpaSnapshot at hs
  split_ifs at hs
  obtain ⟨position, -, rfl⟩ := Option.map_eq_some_iff.mp hs
  exact ⟨by rw [hother.mmsi]; exact hother.ne, hother.context_ne⟩

variable [JsonText] [FloatMath]

theorem Clear.proceed (hp : Clear own p) (order : List (String × TrackedTarget)) {env : HandleEnv}
    (hkeeps : Keeps own env) :
    Clear own (p.proceed order env).1 ∧ ∀ d ∈ (p.proceed order env).2, ¬ About own d := by
  have hquiet : ∀ {p' : AisSystem}, Clear own p' →
      Clear own p' ∧ ∀ d ∈ ([] : List Delta), ¬ About own d :=
    fun h => ⟨h, fun d hd => absurd hd List.not_mem_nil⟩
  cases ht : p.task with
  | idle =>
    simp only [AisSystem.proceed, ht]
    exact hquiet hp
  | position =>
    simp only [AisSystem.proceed, ht]
    split
    · exact hquiet (hp.between (fun _ _ _ _ h => by cases h) fun _ h => by cases h)
    · exact hquiet (hp.between (fun _ _ _ _ h => by cases h) fun _ h => by cases h)
  | speed lat lon =>
    simp only [AisSystem.proceed, ht]
    exact hquiet (hp.between (fun _ _ _ _ h => by cases h) fun _ h => by cases h)
  | course lat lon sog =>
    simp only [AisSystem.proceed, ht]
    exact hquiet (hp.between (fun _ _ _ _ h => by cases h) fun _ h => by cases h)
  | snapshot motion =>
    simp only [AisSystem.proceed, ht]
    split
    · exact hquiet (hp.between (fun _ _ _ _ h => by cases h) fun _ h => by cases h)
    · rename_i tracker htracker
      split_ifs with horder
      · refine hquiet ⟨hp.broadcasts, hp.targets, hp.spawned, ?_, fun e he => by cases he⟩
        intro motion' left deltas changes htask
        cases htask
        exact snapshots_other hp htracker horder
      · exact hquiet hp
  | computing motion left deltas changes =>
    cases left with
    | nil =>
      simp only [AisSystem.proceed, ht]
      refine hquiet ⟨hp.broadcasts, hp.targets, hp.spawned, fun _ _ _ _ h => (by cases h), ?_⟩
      have hpending := hp.pending
      rwa [AisSystem.pending, ht] at hpending
    | cons snap left =>
      simp only [AisSystem.proceed, ht]
      exact hquiet (hp.examine ht)
  | emitting left =>
    cases left with
    | nil =>
      simp only [AisSystem.proceed, ht]
      exact hquiet (hp.between (fun _ _ _ _ h => by cases h) fun _ h => by cases h)
    | cons e left =>
      have hpending := hp.pending
      rw [AisSystem.pending, ht] at hpending
      have he : ¬ About own (e.delta env.timestamp) := about_delta (hpending e List.mem_cons_self)
      have hcontext : (e.delta env.timestamp).context ≠ some (mmsiContext own) :=
        fun h => he (.inl h)
      obtain ⟨hout, -, -, -, -⟩ := AisSystem.handleMessage_frame p env (e.delta env.timestamp)
      have hhandled := hp.handleMessage hkeeps hcontext
      simp only [AisSystem.proceed, ht]
      refine ⟨⟨hhandled.broadcasts, hhandled.targets, hhandled.spawned,
        fun _ _ _ _ h => (by cases h), fun e' he' => ?_⟩, fun d hd => ?_⟩
      · exact hpending e' (List.mem_cons_of_mem e he')
      · rw [hout] at hd
        rw [List.mem_singleton.mp hd]
        exact he

/-- Every step of the plugin keeps the own vessel out, and says nothing about it. -/
theorem Clear.step [AisParse] {selfUri : String} {f : Feed} (hp : Clear own f.ais) {e : AisEvent}
    (he : Apart own selfUri f (.ais e)) :
    Clear own (f.ais.step e).1 ∧ ∀ d ∈ (f.ais.step e).2, ¬ About own d := by
  have hquiet : ∀ {p' : AisSystem}, Clear own p' →
      Clear own p' ∧ ∀ d ∈ ([] : List Delta), ¬ About own d :=
    fun h => ⟨h, fun d hd => absurd hd List.not_mem_nil⟩
  cases e with
  | ingest clock delta => exact hquiet (hp.applyDelta clock he)
  | deliver later timestamp => exact hquiet (hp.deliver _ timestamp)
  | lag n =>
    exact hquiet (hp.of_frame (fun d hd => hp.broadcasts d (List.mem_of_mem_drop hd)) rfl
      (fun d hd => hd) rfl)
  | emit delta env =>
    simp only [AisSystem.step]
    split_ifs with hmem
    · have hdelta := hp.spawned delta hmem
      have hrest : Clear own { f.ais with spawned := f.ais.spawned.erase delta } :=
        hp.of_frame hp.broadcasts rfl (fun d hd => Multiset.mem_of_mem_erase hd) rfl
      obtain ⟨hout, -, -, -, -⟩ := AisSystem.handleMessage_frame
        { f.ais with spawned := f.ais.spawned.erase delta } env delta
      refine ⟨hrest.handleMessage he fun h => hdelta (.inl h), fun d hd => ?_⟩
      rw [hout] at hd
      rw [List.mem_singleton.mp hd]
      exact hdelta
    · exact hquiet hp
  | tick later timestamp =>
    simp only [AisSystem.step]
    split_ifs with hidle
    · exact hquiet (hp.tick hidle _ timestamp)
    · exact hquiet hp
  | proceed order env => exact hp.proceed order he

end

/-- The store takes a context with its own MMSI for that of its vessel. -/
theorem vesselUri_mmsiContext (mmsi : String) :
    vesselUri (mmsiUrn mmsi) (some (mmsiContext mmsi)) = some (mmsiUrn mmsi) := by
  have hcontext : mmsiContext mmsi = "vessels." ++ mmsiUrn mmsi := by
    have hprefix : AisTracker.mmsiPrefix = "vessels." ++ "urn:mrn:imo:mmsi:" := by decide +kernel
    calc mmsiContext mmsi = "vessels." ++ "urn:mrn:imo:mmsi:" ++ mmsi :=
          congrArg (· ++ mmsi) hprefix
      _ = "vessels." ++ mmsiUrn mmsi := String.append_assoc
  have hself : mmsiContext mmsi ≠ "vessels.self" := (self_ne_mmsiContext mmsi).symm
  rw [vesselUri, resolveContext, Option.getD_some]
  simp only [if_neg hself]
  rw [hcontext, Text.stripPrefix_append]

section
variable [AisParse] [JsonText] [FloatMath]

/-- The own vessel is kept out of the targets, and what was shown is fair. -/
def Kept (own selfUri : String) (f : Feed) (signs : List Sign) : Prop :=
  Clear own f.ais ∧ ∀ sign ∈ signs, sign.Fair own selfUri

theorem Kept.step {selfUri : String} {f : Feed} {signs : List Sign} (h : Kept own selfUri f signs)
    {e : FeedEvent} (he : Apart own selfUri f e) :
    Kept own selfUri (step f e).1 (signs ++ (step f e).2) := by
  obtain ⟨hf, hsigns⟩ := h
  have hmore : ∀ {more : List Sign}, (∀ sign ∈ more, sign.Fair own selfUri) →
      ∀ sign ∈ signs ++ more, sign.Fair own selfUri := by
    intro more hm sign hmem
    rcases List.mem_append.mp hmem with hmem | hmem
    · exact hsigns sign hmem
    · exact hm sign hmem
  cases e with
  | connect connection label => exact ⟨hf, hmore fun sign h => absurd h List.not_mem_nil⟩
  | sentence connection text env =>
    obtain ⟨hkeeps, hcontact⟩ := he
    simp only [OwnShip.step]
    cases hd : ((f.decoders connection).tryDecode text env.timestamp).2 with
    | none => exact ⟨hf, hmore fun sign h => absurd h List.not_mem_nil⟩
    | some delta =>
      obtain ⟨contact, hsome, hcontext, hvalues⟩ := AisDecoder.tryDecode_some hd
      obtain ⟨hne, hvdo⟩ := hcontact contact hsome
      rw [AisContact.context_eq] at hcontext
      have hother : delta.context ≠ some (mmsiContext own) := by
        rw [hcontext]
        exact fun h => hne (mmsiContext_injective (Option.some.inj h))
      refine ⟨hf.handleMessage hkeeps hother, hmore fun sign hsign => ?_⟩
      rw [List.mem_singleton.mp hsign]
      intro hv hposition
      obtain ⟨pv, hpv, hpath⟩ := hposition
      rw [hvalues] at hpv
      have hsomewhere : contact.position.isSome := by
        rcases List.mem_append.mp hpv with hpv | hpv
        · cases hp : contact.position with
          | none =>
            rw [hp] at hpv
            cases hpv
          | some position => rfl
        · exact absurd hpath (AisContact.path_otherValues hpv)
      rw [hcontext, hvdo hv hsomewhere]
      exact vesselUri_mmsiContext _
  | ais e =>
    obtain ⟨hclear, hhanded⟩ := hf.step he
    refine ⟨hclear, hmore fun sign hsign => ?_⟩
    obtain ⟨d, hd, rfl⟩ := List.mem_map.mp hsign
    exact hhanded d hd

/-- While nothing comes in under the MMSI of the own vessel, it is no target, and nothing is
said about it. -/
theorem own_vessel_no_target (own : String) (config : AisConfig) (store : SignalKStore)
    (now : Instant) (decoders : Nat → AisDecoder) (events : List FeedEvent)
    (hmeets : Machine.Meets step (Apart own store.selfUri) (start config store now decoders)
      events) :
    ∀ es, es <+: events →
      let out := Machine.exec step (start config store now decoders) es
      out.1.ais.target own = none ∧ ∀ sign ∈ out.2, sign.Fair own store.selfUri := by
  intro es hes out
  have hstart : Clear own (start config store now decoders).ais := by
    refine ⟨fun d hd => absurd hd List.not_mem_nil, fun key t ht => ?_,
      fun d hd => absurd hd (Multiset.notMem_zero d), fun _ _ _ _ h => (by cases h),
      fun e he => absurd he List.not_mem_nil⟩
    have hnone : (start config store now decoders).ais.target key = none := by
      simp [start, AisSystem.start, AisSystem.target, AisTracker.withConfig]
    rw [hnone] at ht
    cases ht
  obtain ⟨rest, rfl⟩ := hes
  have hkept : Kept own store.selfUri (start config store now decoders) [] :=
    ⟨hstart, fun sign h => absurd h List.not_mem_nil⟩
  have hend := Machine.exec_inv (fun _ _ _ hq he => hq.step he) hkept
    (Machine.meets_append.mp hmeets).1
  rw [List.nil_append] at hend
  refine ⟨?_, hend.2⟩
  cases ht : out.1.ais.target own with
  | none => rfl
  | some t => exact absurd rfl (hend.1.targets own t ht).ne

end

/-! A vessel that hears another, and then itself. -/
section hears
local instance : JsonText := JsonText.unused
local instance : FloatMath := FloatMath.unused

def ownMmsi : String := "211457160"

def vdm : String := "!AIVDM,1,1,,A,15MlU40P?w000000000>4?wp0000,0*48"

def vdo : String := "!AIVDO,1,1,,A,139bDR0P?w000000000>4?wp0000,0*41"

/-- A position report of a vessel on the equator. -/
def positionReport (mmsi : UInt32) : AisMessage :=
  .positionReport mmsi ⟨some 0, some 0, none, none, none⟩ (some .underWayUsingEngine) none

/-- What a parser makes of the two sentences. -/
local instance twoSentences : AisParse where
  Parser := Unit
  new := ()
  parse _ sentence :=
    if sentence = vdm then ((), some (.complete (some (positionReport 366814480))))
    else if sentence = vdo then ((), some (.complete (some (positionReport 211457160))))
    else ((), none)

abbrev feedStart : Feed :=
  start AisSystem.noCpa (SignalKStore.new "urn:mrn:signalk:uuid:test") 0 fun _ => AisDecoder.new ""

/-- A sentence that is stored and received. -/
def heard (sentence : String) : List FeedEvent :=
  [.sentence 0 sentence AisSystem.handled, .ais (.deliver 0 0)]

def othersHeard : List FeedEvent :=
  .connect 0 "ais" :: heard vdm

/-- The own vessel is heard twice, and its status is told. -/
def ownHeard : List FeedEvent :=
  .connect 0 "ais" :: heard vdo ++ heard vdo ++
    [.ais (.emit (statusDelta ⟨ownMmsi, mmsiContext ownMmsi, .acquiring, .tracking⟩ 0)
      AisSystem.handled)]

theorem keeps_handled (own : String) : Keeps own AisSystem.handled := by
  intro delta delta' h hne
  rwa [← Option.some.inj h]

theorem own_vessel_no_target_heard :
    let out := Machine.exec step feedStart othersHeard
    (out.1.ais.target "366814480").isSome ∧ out.1.ais.target ownMmsi = none ∧
      ∀ sign ∈ out.2, sign.Fair ownMmsi "urn:mrn:signalk:uuid:test" := by
  intro out
  have hmeets : Machine.Meets step (Apart ownMmsi "urn:mrn:signalk:uuid:test") feedStart
      othersHeard := by
    refine ⟨trivial, ⟨keeps_handled ownMmsi, fun contact hcontact => ?_⟩, trivial, trivial⟩
    have hparsed : (((step feedStart (.connect 0 "ais")).1.decoders 0).contact vdm).map
        AisContact.mmsi = some 366814480 := by decide +kernel
    have hmmsi : contact.mmsi = 366814480 := by
      rw [Option.mem_def.mp hcontact] at hparsed
      exact Option.some.inj hparsed
    rw [hmmsi]
    exact ⟨by decide +kernel, fun hv => absurd hv (by unfold IsVdo; decide +kernel)⟩
  exact ⟨by decide +kernel,
    own_vessel_no_target ownMmsi AisSystem.noCpa (SignalKStore.new "urn:mrn:signalk:uuid:test") 0
      (fun _ => AisDecoder.new "") othersHeard hmeets othersHeard List.prefix_rfl⟩

/-- A position of a VDO sentence that is kept as that of another vessel. -/
def Sign.strays : Sign → Bool
  | .handed _ => false
  | .decoded text delta =>
    containsText text "VDO" && (delta.pathValues.any fun pv => pv.path = "navigation.position") &&
      decide (vesselUri "urn:mrn:signalk:uuid:test" delta.context ≠
        some "urn:mrn:signalk:uuid:test")

/-- A status of the own vessel that is told. -/
def Sign.tells : Sign → Bool
  | .handed delta => decide (delta.context = some (mmsiContext ownMmsi))
  | .decoded _ _ => false

/-- A vessel that hears its own VDO sentences takes itself for a target. -/
theorem own_vessel_tracked :
    let out := Machine.exec step feedStart ownHeard
    (out.1.ais.target ownMmsi).isSome ∧
      (∃ delta, .handed delta ∈ out.2 ∧ About ownMmsi delta) ∧
      ∃ sign ∈ out.2, sign.strays = true ∧ ¬ sign.Fair ownMmsi "urn:mrn:signalk:uuid:test" := by
  intro out
  have hrun : (out.1.ais.target ownMmsi).isSome ∧ out.2.any Sign.tells = true ∧
      out.2.any Sign.strays = true := by decide +kernel
  obtain ⟨htarget, htells, hstrays⟩ := hrun
  refine ⟨htarget, ?_, ?_⟩
  · obtain ⟨sign, hmem, htold⟩ := List.any_eq_true.mp htells
    cases sign with
    | handed delta => exact ⟨delta, hmem, .inl (of_decide_eq_true htold)⟩
    | decoded text delta => cases htold
  · obtain ⟨sign, hmem, hstray⟩ := List.any_eq_true.mp hstrays
    refine ⟨sign, hmem, hstray, fun hfair => ?_⟩
    cases sign with
    | handed delta => cases hstray
    | decoded text delta =>
      simp only [Sign.strays, Bool.and_eq_true, decide_eq_true_eq] at hstray
      obtain ⟨⟨hvdo, hposition⟩, huri⟩ := hstray
      obtain ⟨pv, hpv, hpath⟩ := List.any_eq_true.mp hposition
      exact huri (hfair hvdo ⟨pv, hpv, of_decide_eq_true hpath⟩)

end hears

end OwnShip
end SignalK

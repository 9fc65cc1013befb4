import SignalK.Ais.Plugin
import SignalK.Lib.Machine

/-! The life of a target in the closed loop of tracker, store and subscription. The
deltas that the plugin emits for a target come back to it; where they do not, a target
lives by the reports of other sources alone. -/
namespace SignalK

/-- What the life cycle of a target depends on. -/
structure Life where
  status : TargetStatus
  thresholds : ClassThresholds
  lastSeen : Instant
  messageCount : UInt32
  deriving DecidableEq

/-- What is left of a life in a tick. -/
def Life.afterTick (l : Life) (now : Instant) : Option Life :=
  match l.status with
  | .acquiring => if nanos l.thresholds.confirmWindow < now - l.lastSeen then none else some l
  | .tracking =>
    if nanos l.thresholds.lostAfter < now - l.lastSeen then some { l with status := .lost }
    else some l
  | .lost =>
    if nanos l.thresholds.lostAfter + nanos l.thresholds.removeAfter < now - l.lastSeen then none
    else some l

/-- What is left after a tick was not silent for too long. -/
theorem Life.of_afterTick {l l' : Life} {now : Instant} (h : l.afterTick now = some l') :
    l'.lastSeen = l.lastSeen ∧ l'.messageCount = l.messageCount ∧ l'.thresholds = l.thresholds ∧
      (l'.status = .tracking → now - l'.lastSeen ≤ nanos l'.thresholds.lostAfter) ∧
      (l'.status = .acquiring → now - l'.lastSeen ≤ nanos l'.thresholds.confirmWindow) := by
  unfold Life.afterTick at h
  cases hs : l.status with
  | acquiring =>
    simp only [hs] at h
    split_ifs at h with hlate
    obtain rfl := Option.some.inj h
    exact ⟨rfl, rfl, rfl, fun hc => (by rw [hs] at hc; cases hc), fun _ => Nat.le_of_not_lt hlate⟩
  | tracking =>
    simp only [hs] at h
    split_ifs at h with hlate
    · obtain rfl := Option.some.inj h
      exact ⟨rfl, rfl, rfl, fun hc => (by cases hc), fun hc => (by cases hc)⟩
    · obtain rfl := Option.some.inj h
      exact ⟨rfl, rfl, rfl, fun _ => Nat.le_of_not_lt hlate, fun hc => (by rw [hs] at hc; cases hc)⟩
  | lost =>
    simp only [hs] at h
    split_ifs at h with hlate
    obtain rfl := Option.some.inj h
    exact ⟨rfl, rfl, rfl, fun hc => (by rw [hs] at hc; cases hc),
      fun hc => (by rw [hs] at hc; cases hc)⟩

namespace TrackedTarget

def life (t : TrackedTarget) : Life where
  status := t.status
  thresholds := t.thresholds
  lastSeen := t.lastSeen
  messageCount := t.messageCount

/-- The values of a delta go to the cached fields only. -/
theorem updateFromValue_frame (t : TrackedTarget) (pv : PathValue) :
    ∃ name callsign position sog cog heading, t.updateFromValue pv =
      { t with
        name := name
        callsign := callsign
        position := position
        sog := sog
        cog := cog
        heading := heading } := by
  unfold updateFromValue
  split_ifs
  · exact ⟨_, _, _, _, _, _, rfl⟩
  · exact ⟨_, _, _, _, _, _, rfl⟩
  · split
    · exact ⟨_, _, _, _, _, _, rfl⟩
    · exact ⟨_, _, _, _, _, _, rfl⟩
  · exact ⟨_, _, _, _, _, _, rfl⟩
  · exact ⟨_, _, _, _, _, _, rfl⟩
  · exact ⟨_, _, _, _, _, _, rfl⟩
  · exact ⟨_, _, _, _, _, _, rfl⟩

theorem updateFromValues_frame (t : TrackedTarget) (values : List PathValue) :
    ∃ name callsign position sog cog heading, t.updateFromValues values =
      { t with
        name := name
        callsign := callsign
        position := position
        sog := sog
        cog := cog
        heading := heading } := by
  induction values generalizing t with
  | nil => exact ⟨_, _, _, _, _, _, rfl⟩
  | cons pv values ih =>
    obtain ⟨_, _, _, _, _, _, hrest⟩ := ih (t.updateFromValue pv)
    obtain ⟨_, _, _, _, _, _, hfirst⟩ := updateFromValue_frame t pv
    rw [hfirst] at hrest
    exact ⟨_, _, _, _, _, _, (congrArg (updateFromValues · values) hfirst).trans hrest⟩

theorem life_updateFromValues (t : TrackedTarget) (values : List PathValue) :
    (t.updateFromValues values).life = t.life := by
  obtain ⟨_, _, _, _, _, _, h⟩ := updateFromValues_frame t values
  rw [h]
  rfl

/-- A message counts and is seen, whoever sent it. -/
theorem life_recordMessage (t : TrackedTarget) (now : Instant) :
    ∃ status, (t.recordMessage now).1.life = ⟨status, t.thresholds, now, t.messageCount + 1⟩ := by
  unfold recordMessage
  cases ht : t.status with
  | acquiring =>
    simp only
    split_ifs
    · exact ⟨.tracking, rfl⟩
    · exact ⟨.acquiring, by simp [life]⟩
  | tracking => exact ⟨.tracking, by simp [life]⟩
  | lost => exact ⟨.tracking, rfl⟩

theorem life_aged (t : TrackedTarget) (now : Instant) :
    (if t.stale now then none else some (t.aged now)).map life =
      t.life.afterTick now := by
  cases hs : t.status with
  | acquiring =>
    have hsilent : t.silent now = false := by simp [silent, hs]
    by_cases h : nanos t.thresholds.confirmWindow < now - t.lastSeen
    · simp [Life.afterTick, life, stale, hs, h]
    · simp [Life.afterTick, life, stale, aged, hsilent,
        hs, h]
  | tracking =>
    by_cases h : nanos t.thresholds.lostAfter < now - t.lastSeen
    · simp [Life.afterTick, life, stale, aged,
        silent, hs, h]
    · simp [Life.afterTick, life, stale, aged,
        silent, hs, h]
  | lost =>
    have hsilent : t.silent now = false := by simp [silent, hs]
    by_cases h : nanos t.thresholds.lostAfter + nanos t.thresholds.removeAfter < now - t.lastSeen
    · simp [Life.afterTick, life, stale, hs, h]
    · simp [Life.afterTick, life, stale, aged, hsilent,
        hs, h]

end TrackedTarget

namespace AisTracker

/-- What one target becomes in a tick. -/
theorem lookup_tick {tr tr' : AisTracker} {now : Instant}
    {transitions : Multiset StatusTransition} (h : tr.tick now = some (tr', transitions))
    (mmsi : String) :
    tr'.targets.lookup mmsi =
      (tr.targets.lookup mmsi).bind fun t => if t.stale now then none else some (t.aged now) := by
  unfold tick at h
  split_ifs at h with ho
  obtain ⟨rfl, -⟩ := Prod.mk.inj (Option.some.inj h)
  simp only [HashMap.lookup_mapValues, HashMap.lookup_retain]
  cases tr.targets.lookup mmsi with
  | none => rfl
  | some t =>
    cases hs : t.stale now with
    | true => simp [hs, Option.filter]
    | false => simp [hs, Option.filter]

theorem lookup_updateTarget (tr : AisTracker) (context : String) (values : List PathValue)
    (now : Instant) (mmsi : String) :
    (tr.updateTarget context values now).1.targets.lookup mmsi =
      if tr.targetOf context = some mmsi then
        some (((tr.entry mmsi context now).updateFromValues values).recordMessage now).1
      else tr.targets.lookup mmsi := by
  unfold updateTarget
  cases ht : tr.targetOf context with
  | none => simp
  | some m =>
    rw [HashMap.lookup_insert]
    by_cases hm : mmsi = m
    · subst hm
      simp
    · simp [hm, Ne.symm hm]

theorem lookup_updateTargetCpa (tr : AisTracker) (m : String) (result : CpaResult) (active : Bool)
    (mmsi : String) :
    (tr.updateTargetCpa m result active).targets.lookup mmsi =
      (tr.targets.lookup mmsi).map fun t =>
        if mmsi = m then
          { t with
            lastCpaM := some result.cpaM
            lastTcpaS := some result.tcpaS
            cpaAlarmActive := active }
        else t := by
  unfold updateTargetCpa
  cases hm : tr.targets.lookup m with
  | none =>
    by_cases he : mmsi = m
    · rw [he, hm]
      rfl
    · simp [he]
  | some t =>
    rw [HashMap.lookup_insert]
    by_cases he : mmsi = m
    · rw [he, hm]
      simp
    · simp [he]

end AisTracker

namespace AisSystem
open AisStatus

def target (p : AisSystem) (mmsi : String) : Option TrackedTarget :=
  p.tracker.bind fun tracker => tracker.targets.lookup mmsi

/-- The targets that are known. -/
def known (p : AisSystem) : Finset String :=
  p.tracker.elim ∅ fun tracker => tracker.targets.keys

theorem mem_known {p : AisSystem} {mmsi : String} {t : TrackedTarget}
    (h : p.target mmsi = some t) : mmsi ∈ p.known := by
  obtain ⟨tracker, htracker, hlookup⟩ := Option.bind_eq_some_iff.mp h
  rw [known, htracker]
  exact Finmap.mem_keys.mpr (Finmap.mem_of_lookup_eq_some hlookup)

def life (p : AisSystem) (mmsi : String) : Option Life :=
  (p.target mmsi).map TrackedTarget.life

/-- The target that the callback takes a delta for. -/
def named (p : AisSystem) (delta : Delta) : Option String :=
  p.tracker.bind fun tracker => delta.context.bind tracker.targetOf

/-- A message of a target: what there was of it, counted on. -/
theorem target_receive (p : AisSystem) (delta : Delta) (now : Instant) (timestamp : DateTime)
    (mmsi : String) :
    (p.receive delta now timestamp).target mmsi =
      if p.named delta = some mmsi then
        p.tracker.bind fun tracker => delta.context.map fun context =>
          (((tracker.entry mmsi context now).updateFromValues delta.pathValues).recordMessage now).1
      else p.target mmsi := by
  unfold receive named
  cases hc : delta.context with
  | none => simp
  | some context =>
    by_cases hm : Text.startsWith context AisTracker.mmsiPrefix = true
    · cases ht : p.tracker with
      | none => simp [hm, target, ht]
      | some tracker =>
        simp [hm, target, ht, AisTracker.lookup_updateTarget]
    · have hnone : ∀ tracker : AisTracker, tracker.targetOf context = none := by
        intro tracker
        simp [AisTracker.targetOf, AisTracker.parseMmsi, Text.stripPrefix, hm]
      simp [hm, hnone]

theorem reports_receive (p : AisSystem) (delta : Delta) (now : Instant) (timestamp : DateTime)
    (mmsi : String) :
    (p.receive delta now timestamp).reports mmsi =
      if p.named delta = some mmsi ∧ foreign delta = true then p.reports mmsi ++ [now]
      else p.reports mmsi := by
  unfold receive named
  cases hc : delta.context with
  | none => simp
  | some context =>
    by_cases hm : Text.startsWith context AisTracker.mmsiPrefix = true
    · cases ht : p.tracker with
      | none => simp [hm]
      | some tracker =>
        simp only [hm, Bool.not_true, Bool.false_eq_true, if_false, Option.bind_some]
        cases hn : tracker.targetOf context with
        | none => simp
        | some m =>
          by_cases hf : foreign delta = true
          · by_cases he : mmsi = m
            · subst he
              simp [hf]
            · simp [hf, he, Ne.symm he]
          · simp [hf]
    · have hnone : ∀ tracker : AisTracker, tracker.targetOf context = none := by
        intro tracker
        simp [AisTracker.targetOf, AisTracker.parseMmsi, Text.stripPrefix, hm]
      simp [hm, hnone]

/-- Neither the targets' lives nor the clock have moved on. -/
structure SameLives (p p' : AisSystem) : Prop where
  life : ∀ mmsi, p'.life mmsi = p.life mmsi
  reports : p'.reports = p.reports
  now : p'.now = p.now
  lastTick : p'.lastTick = p.lastTick
  tracker : p'.tracker.isSome = p.tracker.isSome

theorem sameLives_of_tracker {p p' : AisSystem} (ht : p'.tracker = p.tracker)
    (hr : p'.reports = p.reports) (hn : p'.now = p.now) (hl : p'.lastTick = p.lastTick) :
    SameLives p p' := by
  refine ⟨fun mmsi => ?_, hr, hn, hl, by rw [ht]⟩
  unfold life target
  rw [ht]

theorem sameLives_examine [FloatMath] (p : AisSystem) (own : Motion) (snap : TargetCpaSnapshot)
    (left : List TargetCpaSnapshot) (deltas : List Emission)
    (changes : List (String × Option CpaAlarm)) :
    SameLives p (p.examine own snap left deltas changes) := by
  unfold examine
  cases hr : Cpa.computeCpa own snap.motion with
  | none => exact sameLives_of_tracker rfl rfl rfl rfl
  | some result =>
    refine ⟨fun mmsi => ?_, rfl, rfl, rfl, by simp⟩
    cases ht : p.tracker with
    | none => simp [life, target, ht]
    | some tracker =>
      simp only [life, target, ht, Option.map_some, Option.bind_some,
        AisTracker.lookup_updateTargetCpa, Option.map_map]
      refine congrFun (congrArg Option.map (funext fun t => ?_)) _
      simp only [Function.comp_apply]
      split_ifs <;> rfl

section
variable [JsonText]

theorem sameLives_handleMessage (p : AisSystem) (env : HandleEnv) (delta : Delta) :
    SameLives p (p.handleMessage env delta).1 := by
  unfold handleMessage
  cases env.filter delta with
  | none => exact sameLives_of_tracker rfl rfl rfl rfl
  | some d => exact sameLives_of_tracker rfl rfl rfl rfl

theorem sameLives_proceed [FloatMath] (p : AisSystem) (order : List (String × TrackedTarget))
    (env : HandleEnv) : SameLives p (p.proceed order env).1 := by
  have hsame : ∀ task, SameLives p { p with task := task } := fun task =>
    sameLives_of_tracker rfl rfl rfl rfl
  unfold proceed
  cases ht : p.task with
  | idle => exact sameLives_of_tracker rfl rfl rfl rfl
  | position =>
    simp only
    split
    · exact hsame _
    · exact hsame _
  | speed lat lon => exact hsame _
  | course lat lon sog => exact hsame _
  | snapshot own =>
    simp only
    split
    · exact hsame _
    · split_ifs
      · exact hsame _
      · exact sameLives_of_tracker rfl rfl rfl rfl
  | computing own left deltas changes =>
    cases left with
    | nil => exact hsame _
    | cons snap left => exact sameLives_examine p own snap left deltas changes
  | emitting left =>
    cases left with
    | nil => exact hsame _
    | cons e left =>
      have h := sameLives_handleMessage p env (e.delta env.timestamp)
      exact ⟨h.life, h.reports, h.now, h.lastTick, h.tracker⟩

end

/-- A target is seen when another source reports it, and counts these reports alone. -/
def FollowsReports (p : AisSystem) : Prop :=
  ∀ mmsi, match p.life mmsi with
    | none => p.reports mmsi = []
    | some l => (p.reports mmsi).getLast? = some l.lastSeen ∧
        l.messageCount = UInt32.ofNat (p.reports mmsi).length

theorem FollowsReports.known {p : AisSystem} (h : FollowsReports p) {mmsi : String} {l : Life}
    (hl : p.life mmsi = some l) :
    (p.reports mmsi).getLast? = some l.lastSeen ∧
      l.messageCount = UInt32.ofNat (p.reports mmsi).length := by
  have hm := h mmsi
  rw [hl] at hm
  exact hm

/-- A tick makes a silent target lost, and removes a lost one that stays silent. -/
def AgesInTick (p p' : AisSystem) (now : Instant) : Prop :=
  ∀ mmsi l last, p.life mmsi = some l → (p.reports mmsi).getLast? = some last →
    (nanos l.thresholds.lostAfter < now - last →
      now - last ≤ nanos l.thresholds.lostAfter + nanos l.thresholds.removeAfter →
        ∃ l', p'.life mmsi = some l' ∧ l'.status = .lost) ∧
    (nanos l.thresholds.lostAfter + nanos l.thresholds.removeAfter < now - last →
      l.status = .lost ∧ p'.life mmsi = none)

/-- A lost target stays lost, unless another source reports it or it has been silent for so
long that it is removed. -/
def StaysLost (p p' : AisSystem) : Prop :=
  ∀ mmsi l last, p.life mmsi = some l → (p.reports mmsi).getLast? = some last →
    l.status = .lost →
      (∃ l', p'.life mmsi = some l' ∧ l'.status = .lost) ∨
      (∃ now, p'.reports mmsi = p.reports mmsi ++ [now]) ∨
      p'.life mmsi = none ∧
        nanos l.thresholds.lostAfter + nanos l.thresholds.removeAfter < p'.now - last

/-- The life cycle in one step, by the reports of other sources. -/
def LivesByReports (p : AisSystem) (e : AisEvent) (p' : AisSystem) : Prop :=
  StaysLost p p' ∧
    ∀ later timestamp, e = .tick later timestamp → p.task.isIdle = true →
      AgesInTick p p' (p.now + later)

/-- The events that let targets live by the reports of other sources: no delta of the
plugin's own comes back for a target, and ticks are frequent for the thresholds. -/
def Undisturbed (p : AisSystem) : AisEvent → Prop
  | .deliver _ _ => ∀ delta ∈ p.broadcasts.head?, (p.named delta).isSome → foreign delta = true
  | .tick later _ => ∀ mmsi ∈ p.known, ∀ l ∈ p.life mmsi,
      l.thresholds.lostAfter.toNat + l.thresholds.removeAfter.toNat < 2 ^ 64 ∧
      p.now + later - p.lastTick ≤ nanos l.thresholds.removeAfter ∧
      (l.status = .acquiring → nanos l.thresholds.confirmWindow + (p.now + later - p.lastTick) ≤
        nanos l.thresholds.lostAfter)
  | _ => True

instance (p : AisSystem) : (e : AisEvent) → Decidable (Undisturbed p e)
  | .deliver _ _ => inferInstanceAs (Decidable (∀ delta ∈ p.broadcasts.head?, _))
  | .tick _ _ => inferInstanceAs (Decidable (∀ mmsi ∈ p.known, _))
  | .ingest _ _ => isTrue trivial
  | .lag _ => isTrue trivial
  | .emit _ _ => isTrue trivial
  | .proceed _ _ => isTrue trivial

/-- What undisturbed events keep: no target was silent for too long at the last tick. -/
structure Lively (p : AisSystem) : Prop where
  follows : FollowsReports p
  clock : p.lastTick ≤ p.now
  tracking : ∀ mmsi l, p.life mmsi = some l → l.status = .tracking →
    p.lastTick - l.lastSeen ≤ nanos l.thresholds.lostAfter
  acquiring : ∀ mmsi l, p.life mmsi = some l → l.status = .acquiring →
    p.lastTick - l.lastSeen ≤ nanos l.thresholds.confirmWindow

theorem Lively.of_same {p p' : AisSystem} (hp : Lively p) (h : SameLives p p') : Lively p' := by
  refine ⟨fun mmsi => ?_, ?_, fun mmsi l hl => ?_, fun mmsi l hl => ?_⟩
  · rw [h.life, h.reports]
    exact hp.follows mmsi
  · rw [h.lastTick, h.now]
    exact hp.clock
  · rw [h.lastTick]
    exact hp.tracking mmsi l (h.life mmsi ▸ hl)
  · rw [h.lastTick]
    exact hp.acquiring mmsi l (h.life mmsi ▸ hl)

theorem staysLost_of_same {p p' : AisSystem} (h : SameLives p p') : StaysLost p p' := by
  intro mmsi l last hl _ hlost
  exact .inl ⟨l, (h.life mmsi).trans hl, hlost⟩

/-- A message renews the life of its target, and counts. -/
theorem life_receive_named {p : AisSystem} {delta : Delta} {mmsi : String}
    (hn : p.named delta = some mmsi) (now : Instant) (timestamp : DateTime) :
    ∃ status thresholds, (p.receive delta now timestamp).life mmsi =
      some ⟨status, thresholds, now, (p.life mmsi).elim 0 Life.messageCount + 1⟩ := by
  obtain ⟨tracker, htracker, hcontext⟩ := Option.bind_eq_some_iff.mp hn
  obtain ⟨context, hcontext, -⟩ := Option.bind_eq_some_iff.mp hcontext
  have htarget := target_receive p delta now timestamp mmsi
  rw [if_pos hn, htracker, hcontext, Option.bind_some, Option.map_some] at htarget
  generalize hvalues : (tracker.entry mmsi context now).updateFromValues delta.pathValues = t
    at htarget
  obtain ⟨status, hrecorded⟩ := TrackedTarget.life_recordMessage t now
  have hlife := TrackedTarget.life_updateFromValues (tracker.entry mmsi context now)
    delta.pathValues
  rw [hvalues] at hlife
  have hcount : t.messageCount = (p.life mmsi).elim 0 Life.messageCount := by
    have hentry := congrArg Life.messageCount hlife
    refine hentry.trans ?_
    simp only [life, target, htracker, Option.bind_some, AisTracker.entry]
    cases tracker.targets.lookup mmsi <;> rfl
  refine ⟨status, t.thresholds, ?_⟩
  rw [life, htarget, Option.map_some, hrecorded, hcount]

theorem life_receive_ne {p : AisSystem} {delta : Delta} {mmsi : String}
    (hn : p.named delta ≠ some mmsi) (now : Instant) (timestamp : DateTime) :
    (p.receive delta now timestamp).life mmsi = p.life mmsi := by
  rw [life, target_receive, if_neg hn, life]

theorem receive_clock (p : AisSystem) (delta : Delta) (now : Instant) (timestamp : DateTime) :
    (p.receive delta now timestamp).lastTick = p.lastTick ∧
      ((p.receive delta now timestamp).now = p.now ∨
        (p.receive delta now timestamp).now = now) := by
  unfold receive
  split
  · exact ⟨rfl, .inl rfl⟩
  · split
    · exact ⟨rfl, .inl rfl⟩
    · split
      · exact ⟨rfl, .inl rfl⟩
      · exact ⟨rfl, .inr rfl⟩

theorem Lively.receive {p : AisSystem} (hp : Lively p) {delta : Delta}
    (hf : (p.named delta).isSome → foreign delta = true) {now : Instant} (hnow : p.now ≤ now)
    (timestamp : DateTime) :
    Lively (p.receive delta now timestamp) ∧ StaysLost p (p.receive delta now timestamp) := by
  have hreports := reports_receive p delta now timestamp
  obtain ⟨hlast, hclock⟩ := receive_clock p delta now timestamp
  have htick : p.lastTick ≤ now := hp.clock.trans hnow
  refine ⟨⟨fun mmsi => ?_, ?_, fun mmsi l hl => ?_, fun mmsi l hl => ?_⟩,
    fun mmsi l last hl _ hlost => ?_⟩
  · by_cases hn : p.named delta = some mmsi
    · obtain ⟨status, thresholds, hlife⟩ := life_receive_named hn now timestamp
      have hforeign := hf (by rw [hn]; rfl)
      rw [hlife, hreports mmsi, if_pos ⟨hn, hforeign⟩]
      refine ⟨by simp, ?_⟩
      have hbefore := hp.follows mmsi
      cases hl : p.life mmsi with
      | none =>
        rw [hl] at hbefore
        rw [hbefore]
        rfl
      | some l =>
        rw [hl] at hbefore
        rw [List.length_append, UInt32.ofNat_add]
        exact congrArg (· + 1) hbefore.2
    · rw [life_receive_ne hn, hreports mmsi, if_neg fun h => hn h.1]
      exact hp.follows mmsi
  · rw [hlast]
    obtain h | h := hclock
    · rw [h]
      exact hp.clock
    · rw [h]
      exact htick
  · intro hs
    rw [hlast]
    by_cases hn : p.named delta = some mmsi
    · obtain ⟨status, thresholds, hlife⟩ := life_receive_named hn now timestamp
      rw [hlife] at hl
      obtain rfl := Option.some.inj hl
      exact (Nat.sub_eq_zero_of_le htick).trans_le (Nat.zero_le _)
    · exact hp.tracking mmsi l (life_receive_ne hn now timestamp ▸ hl) hs
  · intro hs
    rw [hlast]
    by_cases hn : p.named delta = some mmsi
    · obtain ⟨status, thresholds, hlife⟩ := life_receive_named hn now timestamp
      rw [hlife] at hl
      obtain rfl := Option.some.inj hl
      exact (Nat.sub_eq_zero_of_le htick).trans_le (Nat.zero_le _)
    · exact hp.acquiring mmsi l (life_receive_ne hn now timestamp ▸ hl) hs
  · by_cases hn : p.named delta = some mmsi
    · have hforeign := hf (by rw [hn]; rfl)
      exact .inr (.inl ⟨now, by rw [hreports mmsi, if_pos ⟨hn, hforeign⟩]⟩)
    · exact .inl ⟨l, (life_receive_ne hn now timestamp).trans hl, hlost⟩

/-- Without an overflow the tick goes through. -/
theorem tick_goes {p : AisSystem} {tracker : AisTracker} (ht : p.tracker = some tracker)
    (h : ∀ mmsi t, p.target mmsi = some t → t.overflows = false) (now : Instant) :
    ∃ tracker' transitions, tracker.tick now = some (tracker', transitions) := by
  unfold AisTracker.tick
  split_ifs with ho
  · obtain ⟨mmsi, -, hany⟩ := ho
    obtain ⟨t, hlookup, hover⟩ := (Option.any_eq_true _ _).mp hany
    have htarget : p.target mmsi = some t := by rw [target, ht, Option.bind_some, hlookup]
    rw [h mmsi t htarget] at hover
    cases hover
  · exact ⟨_, _, rfl⟩

theorem life_tick {p : AisSystem} {tracker tracker' : AisTracker}
    {transitions : Multiset StatusTransition} {now : Instant} (ht : p.tracker = some tracker)
    (h : tracker.tick now = some (tracker', transitions)) (timestamp : DateTime)
    (mmsi : String) : (p.tick now timestamp).life mmsi =
      (p.life mmsi).bind fun l => l.afterTick now := by
  simp only [life, target, tick, ht, h, Option.bind_some]
  rw [AisTracker.lookup_tick h]
  cases tracker.targets.lookup mmsi with
  | none => rfl
  | some t => exact TrackedTarget.life_aged t now

theorem reports_tick {p : AisSystem} {tracker tracker' : AisTracker}
    {transitions : Multiset StatusTransition} {now : Instant} (ht : p.tracker = some tracker)
    (h : tracker.tick now = some (tracker', transitions)) (timestamp : DateTime)
    (mmsi : String) : (p.tick now timestamp).reports mmsi =
      if ((p.tick now timestamp).life mmsi).isSome then p.reports mmsi else [] := by
  simp only [life, target, tick, ht, h, Option.bind_some, Option.isSome_map]

/-- A silence lasts at most since the last tick and what it was then. -/
theorem silence_le {now last seen : Nat} {gap bound : Nat} (hgap : now - last ≤ gap)
    (hbound : last - seen ≤ bound) : now - seen ≤ bound + gap := by
  omega

theorem Lively.tick {p : AisSystem} (hp : Lively p) {later : Nat} (timestamp : DateTime)
    (h : Undisturbed p (.tick later timestamp)) :
    Lively (p.tick (p.now + later) timestamp) ∧
      StaysLost p (p.tick (p.now + later) timestamp) ∧
      AgesInTick p (p.tick (p.now + later) timestamp) (p.now + later) := by
  cases ht : p.tracker with
  | none =>
    have hsame : p.tick (p.now + later) timestamp = p := by
      unfold AisSystem.tick
      rw [ht]
    have hnone : ∀ mmsi, p.life mmsi = none := fun mmsi => by simp [life, target, ht]
    rw [hsame]
    refine ⟨hp, fun mmsi l last hl => ?_, fun mmsi l last hl => ?_⟩
    · rw [hnone] at hl
      cases hl
    · rw [hnone] at hl
      cases hl
  | some tracker =>
    have hfits : ∀ mmsi t, p.target mmsi = some t → t.overflows = false := by
      intro mmsi t htarget
      have hlife : p.life mmsi = some t.life := by rw [life, htarget, Option.map_some]
      have hsum := (h mmsi (mem_known htarget) t.life hlife).1
      refine decide_eq_false fun hover => ?_
      exact absurd hsum (Nat.not_lt.mpr hover.2)
    obtain ⟨tracker', transitions, htick⟩ := tick_goes ht hfits (p.now + later)
    have hlife := life_tick ht htick timestamp
    have hreports := reports_tick ht htick timestamp
    have hnow : (p.tick (p.now + later) timestamp).now = p.now + later := by
      simp [AisSystem.tick, ht, htick]
    have hlast : (p.tick (p.now + later) timestamp).lastTick = p.now + later := by
      simp [AisSystem.tick, ht, htick]
    refine ⟨⟨fun mmsi => ?_, ?_, fun mmsi l' hl' => ?_, fun mmsi l' hl' => ?_⟩,
      fun mmsi l last hl hseen hlost => ?_, fun mmsi l last hl hseen => ?_⟩
    · rw [hreports, hlife]
      have hbefore := hp.follows mmsi
      cases hl : p.life mmsi with
      | none => rfl
      | some l =>
        rw [hl] at hbefore
        rw [Option.bind_some]
        cases hl' : l.afterTick (p.now + later) with
        | none => rfl
        | some l' =>
          obtain ⟨hseen, hcount, -⟩ := Life.of_afterTick hl'
          simp only [Option.isSome_some, if_true]
          rw [hseen, hcount]
          exact hbefore
    · rw [hlast, hnow]
    · rw [hlife] at hl'
      obtain ⟨l, -, hafter⟩ := Option.bind_eq_some_iff.mp hl'
      rw [hlast]
      exact (Life.of_afterTick hafter).2.2.2.1
    · rw [hlife] at hl'
      obtain ⟨l, -, hafter⟩ := Option.bind_eq_some_iff.mp hl'
      rw [hlast]
      exact (Life.of_afterTick hafter).2.2.2.2
    · have hreported := (hp.follows.known hl).1
      obtain rfl := Option.some.inj (hseen.symm.trans hreported)
      rw [hlife, hl, hnow, Option.bind_some]
      by_cases hlong : nanos l.thresholds.lostAfter + nanos l.thresholds.removeAfter <
          p.now + later - l.lastSeen
      · exact .inr (.inr ⟨by simp [Life.afterTick, hlost, hlong], hlong⟩)
      · exact .inl ⟨l, by simp [Life.afterTick, hlost, hlong], hlost⟩
    · have hreported := (hp.follows.known hl).1
      obtain rfl := Option.some.inj (hseen.symm.trans hreported)
      obtain ⟨t, htarget, -⟩ := Option.map_eq_some_iff.mp hl
      obtain ⟨-, hgap, hunconfirmed⟩ := h mmsi (mem_known htarget) l hl
      rw [hlife, hl, Option.bind_some]
      cases hs : l.status with
      | acquiring =>
        -- it would have been removed before
        have hshort : p.now + later - l.lastSeen ≤ nanos l.thresholds.lostAfter :=
          (silence_le le_rfl (hp.acquiring mmsi l hl hs)).trans (hunconfirmed hs)
        refine ⟨fun hlong => absurd hlong (Nat.not_lt.mpr hshort), fun hlong => ?_⟩
        exact absurd ((Nat.le_add_right _ _).trans_lt hlong) (Nat.not_lt.mpr hshort)
      | tracking =>
        have hshort : p.now + later - l.lastSeen ≤
            nanos l.thresholds.lostAfter + nanos l.thresholds.removeAfter :=
          silence_le hgap (hp.tracking mmsi l hl hs)
        refine ⟨fun hlong _ => ?_, fun hlong => absurd hlong (Nat.not_lt.mpr hshort)⟩
        exact ⟨{ l with status := .lost }, by simp [Life.afterTick, hs, hlong], rfl⟩
      | lost =>
        refine ⟨fun _ hshort => ?_, fun hlong => ⟨rfl, by simp [Life.afterTick, hs, hlong]⟩⟩
        exact ⟨l, by simp [Life.afterTick, hs, Nat.not_lt.mpr hshort], hs⟩

section
variable [JsonText] [FloatMath]

theorem Lively.step {p : AisSystem} (hp : Lively p) {e : AisEvent} (he : Undisturbed p e) :
    Lively (p.step e).1 ∧ LivesByReports p e (p.step e).1 := by
  have hquiet : ∀ {p' : AisSystem}, SameLives p p' →
      (∀ later timestamp, e ≠ .tick later timestamp) → Lively p' ∧ LivesByReports p e p' :=
    fun hsame hne => ⟨hp.of_same hsame, staysLost_of_same hsame,
      fun later timestamp h => absurd h (hne later timestamp)⟩
  cases e with
  | ingest clock delta =>
    exact hquiet (sameLives_of_tracker rfl rfl rfl rfl) fun _ _ h => by cases h
  | deliver later timestamp =>
    have hne : ∀ later' timestamp', AisEvent.deliver later timestamp ≠ .tick later' timestamp' :=
      fun _ _ h => by cases h
    simp only [AisSystem.step, deliver]
    cases hb : p.broadcasts with
    | nil => exact hquiet (sameLives_of_tracker rfl rfl rfl rfl) hne
    | cons delta broadcasts =>
      have hsame : SameLives p { p with broadcasts := broadcasts } :=
        sameLives_of_tracker rfl rfl rfl rfl
      simp only
      split_ifs with hreceives
      · have hforeign : (named { p with broadcasts := broadcasts } delta).isSome →
            foreign delta = true := fun hn => he delta (by rw [hb]; rfl) hn
        have hreceive :=
          (hp.of_same hsame).receive hforeign (Nat.le_add_right p.now later) timestamp
        exact ⟨hreceive.1, hreceive.2, fun later' timestamp' h => absurd h (hne _ _)⟩
      · exact hquiet hsame hne
  | lag n => exact hquiet (sameLives_of_tracker rfl rfl rfl rfl) fun _ _ h => by cases h
  | emit delta env =>
    have hne : ∀ later timestamp, AisEvent.emit delta env ≠ .tick later timestamp :=
      fun _ _ h => by cases h
    simp only [AisSystem.step]
    split_ifs
    · have h := sameLives_handleMessage { p with spawned := p.spawned.erase delta } env delta
      exact hquiet ⟨h.life, h.reports, h.now, h.lastTick, h.tracker⟩ hne
    · exact hquiet (sameLives_of_tracker rfl rfl rfl rfl) hne
  | tick later timestamp =>
    simp only [AisSystem.step]
    split_ifs with hidle
    · obtain ⟨hlively, hstays, hages⟩ := hp.tick timestamp he
      refine ⟨hlively, hstays, fun later' timestamp' h _ => ?_⟩
      cases h
      exact hages
    · refine ⟨hp, staysLost_of_same (sameLives_of_tracker rfl rfl rfl rfl), fun _ _ _ h => ?_⟩
      exact absurd h hidle
  | proceed order env =>
    exact hquiet (sameLives_proceed p order env) fun _ _ h => by cases h

/-- Where nothing of its own comes back to the plugin and the ticks are frequent, targets
live by the reports of other sources. -/
theorem undisturbed_lives_by_reports (config : AisConfig) (store : SignalKStore) (now : Instant)
    (events : List AisEvent)
    (hmeets : Machine.Meets step Undisturbed (start config store now) events) :
    ∀ es, es <+: events →
      let p := Machine.run step (start config store now) es
      FollowsReports p ∧
        ∀ e, es ++ [e] <+: events → LivesByReports p e (p.step e).1 := by
  intro es hes p
  have hstart : Lively (start config store now) := by
    have hnone : ∀ mmsi, (start config store now).life mmsi = none := fun mmsi => by
      simp [life, target, start, AisTracker.withConfig]
    refine ⟨fun mmsi => ?_, le_rfl, fun mmsi l hl => ?_, fun mmsi l hl => ?_⟩
    · rw [hnone]
      rfl
    · rw [hnone] at hl
      cases hl
    · rw [hnone] at hl
      cases hl
  obtain ⟨rest, rfl⟩ := hes
  have hp : Lively p := Machine.run_inv (fun _ _ hq he => (hq.step he).1) hstart
    (Machine.meets_append.mp hmeets).1
  refine ⟨hp.follows, fun e he => ?_⟩
  exact (hp.step (Machine.meets_iff_prefix.mp hmeets es e he)).2

end

section
local instance : JsonText := JsonText.unused
local instance : FloatMath := FloatMath.unused

/-- A speed of a vessel, from an AIS receiver. -/
def aisReport : Delta :=
  Delta.withContext "vessels.urn:mrn:imo:mmsi:211457160"
    [⟨Source.nmea0183 "ais" "AI", 0, [⟨"navigation.speedOverGround", .ofF64 5⟩]⟩]

def noCpa : AisConfig where
  thresholds := ⟨none, none, none, none⟩
  cpaWarnM := none
  cpaAlarmM := none
  tcpaMaxS := .finite 3600

abbrev aisStart : AisSystem :=
  start noCpa (SignalKStore.new "urn:mrn:signalk:uuid:test") 0

def handled : HandleEnv where
  timestamp := 0
  filter := some
  clock _ := 0

def seconds (n : Nat) : Nat := n * 1000000000

/-- Two reports, ten seconds apart. -/
def twoReports : List AisEvent :=
  [.ingest (fun _ => 0) aisReport, .deliver 0 0, .ingest (fun _ => 0) aisReport,
    .deliver (seconds 10) 0]

def confirmedLife : Life where
  status := .tracking
  thresholds := ClassThresholds.forClass .vessel
  lastSeen := seconds 10
  messageCount := 2

theorem undisturbed_lives_by_reports_silent :
    let p := Machine.run step aisStart twoReports
    p.life "211457160" = some confirmedLife ∧
      ∃ l, (p.step (.tick (seconds 400) 0)).1.life "211457160" = some l ∧ l.status = .lost := by
  intro p
  have hrun : p.life "211457160" = some confirmedLife ∧
      p.reports "211457160" = [0, seconds 10] ∧ p.now = seconds 10 := by decide +kernel
  obtain ⟨hlife, hreports, hnow⟩ := hrun
  have hlives := undisturbed_lives_by_reports noCpa (SignalKStore.new "urn:mrn:signalk:uuid:test")
    0 (twoReports ++ [.tick (seconds 400) 0]) (by decide +kernel) twoReports
    (List.prefix_append twoReports _)
  have hages : AgesInTick p (p.step (.tick (seconds 400) 0)).1 (p.now + seconds 400) :=
    (hlives.2 _ List.prefix_rfl).2 _ _ rfl (by decide +kernel)
  have hreported : (p.reports "211457160").getLast? = some (seconds 10) := by
    rw [hreports]
    rfl
  rw [hnow] at hages
  exact ⟨hlife, (hages _ _ _ hlife hreported).1 (by decide +kernel) (by decide +kernel)⟩

/-- The status delta of a lost target brings it back at once, and counts. -/
theorem lost_target_revived :
    let confirmed := Machine.run step aisStart (twoReports ++
      [.emit (statusDelta ⟨"211457160", "vessels.urn:mrn:imo:mmsi:211457160", .acquiring,
        .tracking⟩ 0) handled, .deliver 0 0])
    let lost := (confirmed.step (.tick (seconds 400) 0)).1
    let echoed := Machine.run step lost
      [.emit (statusDelta ⟨"211457160", "vessels.urn:mrn:imo:mmsi:211457160", .tracking,
        .lost⟩ 0) handled, .deliver 0 0]
    confirmed.life "211457160" = some { confirmedLife with messageCount := 3 } ∧
      lost.life "211457160" = some { confirmedLife with status := .lost, messageCount := 3 } ∧
      echoed.life "211457160" =
        some { confirmedLife with lastSeen := seconds 410, messageCount := 4 } ∧
      echoed.reports "211457160" = [0, seconds 10] ∧ ¬ FollowsReports echoed := by
  intro confirmed lost echoed
  have hrun : confirmed.life "211457160" = some { confirmedLife with messageCount := 3 } ∧
      lost.life "211457160" = some { confirmedLife with status := .lost, messageCount := 3 } ∧
      echoed.life "211457160" =
        some { confirmedLife with lastSeen := seconds 410, messageCount := 4 } ∧
      echoed.reports "211457160" = [0, seconds 10] := by decide +kernel
  obtain ⟨hconfirmed, hlost, hlife, hreports⟩ := hrun
  refine ⟨hconfirmed, hlost, hlife, hreports, fun h => ?_⟩
  have hcount := (h.known hlife).2
  rw [hreports] at hcount
  simp at hcount

end

end AisSystem
end SignalK

import SignalK.Ais.Lifecycle

/-! The collision notification of a target against its present risk. A round keeps
one flag per target, so a raised level is not changed and a lost target's not cleared. -/
namespace SignalK

/-- What the collision notification depends on. -/
structure Watch where
  mmsi : String
  status : TargetStatus
  latest : Option CpaResult
  active : Bool
  deriving DecidableEq

namespace TrackedTarget

/-- The latest result of the CPA computation. -/
def latest (t : TrackedTarget) : Option CpaResult :=
  match t.lastCpaM, t.lastTcpaS with
  | some cpaM, some tcpaS => some ⟨cpaM, tcpaS⟩
  | _, _ => none

def watch (t : TrackedTarget) : Watch where
  mmsi := t.mmsi
  status := t.status
  latest := t.latest
  active := t.cpaAlarmActive

theorem watch_updateFromValues (t : TrackedTarget) (values : List PathValue) :
    (t.updateFromValues values).watch = t.watch := by
  obtain ⟨_, _, _, _, _, _, h⟩ := updateFromValues_frame t values
  rw [h]
  rfl

/-- A message may confirm a target or bring it back, and nothing else. -/
theorem watch_recordMessage (t : TrackedTarget) (now : Instant) :
    ∃ status, (t.recordMessage now).1.watch = { t.watch with status := status } ∧
      (t.status = .tracking → status = .tracking) := by
  unfold recordMessage
  cases ht : t.status with
  | acquiring =>
    simp only
    split_ifs
    · exact ⟨.tracking, rfl, fun _ => rfl⟩
    · exact ⟨.acquiring, by simp [watch, latest], fun h => (by cases h)⟩
  | tracking => exact ⟨.tracking, by simp [watch, latest], fun _ => rfl⟩
  | lost => exact ⟨.tracking, rfl, fun _ => rfl⟩

end TrackedTarget

namespace AisStatus

/-- The state of the last notification under a path. -/
def lastState (path : String) (values : List PathValue) : Option String :=
  (values.filter fun pv => decide (pv.path = path)).getLast?.bind fun pv =>
    (pv.value.get "state").bind Json.asStr

/-- The values that a plugin has handed over, in order. -/
def valuesOf (deltas : List Delta) : List PathValue := deltas.flatMap Delta.pathValues

def valuesOfEmissions (emissions : List Emission) : List PathValue :=
  emissions.flatMap Emission.values

theorem lastState_concat (path : String) (values : List PathValue) (pv : PathValue) :
    lastState path (values ++ [pv]) =
      if pv.path = path then (pv.value.get "state").bind Json.asStr
      else lastState path values := by
  by_cases h : pv.path = path
  · simp [lastState, h]
  · simp [lastState, h]

/-- Values under other paths do not count. -/
theorem lastState_insert {path : String} (front back : List PathValue) {others : List PathValue}
    (h : ∀ pv ∈ others, pv.path ≠ path) :
    lastState path (front ++ (others ++ back)) = lastState path (front ++ back) := by
  have hnone : others.filter (fun pv => decide (pv.path = path)) = [] :=
    List.filter_eq_nil_iff.mpr fun pv hpv => by simpa using h pv hpv
  simp [lastState, List.filter_append, hnone]

theorem ne_collisionPath (path : String) (h : Text.startsWith path "notifications." = false)
    (mmsi : String) : path ≠ collisionPath mmsi := by
  have hprefix : "notifications.collision.mmsi-" = "notifications." ++ "collision.mmsi-" := by
    decide +kernel
  have hp : collisionPath mmsi = "notifications." ++ ("collision.mmsi-" ++ mmsi) := by
    rw [← String.append_assoc]
    exact congrArg (· ++ mmsi) hprefix
  intro he
  rw [he, hp, Text.startsWith_append] at h
  cases h

theorem collisionPath_injective : Function.Injective collisionPath :=
  fun _ _ h => (String.append_right_inj "notifications.collision.mmsi-").mp h

theorem state_notification (mmsi : String) (level : Option CpaAlarm) :
    ((notification mmsi level).get "state").bind Json.asStr =
      some (level.elim "normal" CpaAlarm.asStr) := by
  have hmessage : "state" ≠ "message" := by decide
  have hmethod : "state" ≠ "method" := by decide
  cases level with
  | none => rfl
  | some level =>
    simp only [notification, Json.ofFields, Json.get, List.foldl_cons, List.foldl_nil,
      SortedMap.get_insert_ne hmessage, SortedMap.get_insert_ne hmethod,
      SortedMap.get_insert_self]
    rfl

/-- A status delta carries no collision notification. -/
theorem statusDelta_others (transition : StatusTransition) (timestamp : DateTime) (mmsi : String) :
    ∀ pv ∈ (statusDelta transition timestamp).pathValues, pv.path ≠ collisionPath mmsi := by
  intro pv hpv
  have hstatus := ne_collisionPath "sensors.ais.status" (by decide) mmsi
  have hclass := ne_collisionPath "sensors.ais.class" (by decide) mmsi
  simp only [statusDelta, Delta.withContext, Delta.pathValues, List.flatMap_cons,
    List.flatMap_nil, List.append_nil] at hpv
  split_ifs at hpv
  · obtain rfl | rfl := List.mem_pair.mp hpv
    · exact hstatus
    · exact hclass
  · rw [List.mem_singleton.mp hpv]
    exact hstatus

theorem cpaEmission_others (context : String) (result : CpaResult) (mmsi : String) :
    ∀ pv ∈ (cpaEmission context result).values, pv.path ≠ collisionPath mmsi := by
  intro pv hpv
  have hdistance := ne_collisionPath "navigation.closestApproach.distance" (by decide) mmsi
  have htime := ne_collisionPath "navigation.closestApproach.timeTo" (by decide) mmsi
  obtain rfl | rfl := List.mem_pair.mp hpv
  · exact hdistance
  · exact htime

/-- The target that a round is about to look at, with the own vessel's motion. -/
def Task.visit : Task → Option (Motion × TargetCpaSnapshot)
  | .computing own (snap :: _) _ _ => some (own, snap)
  | _ => none

end AisStatus

namespace AisSystem
open AisStatus

def watch (p : AisSystem) (mmsi : String) : Option Watch :=
  (p.target mmsi).map TrackedTarget.watch

/-- The level that the latest result of a target calls for. -/
def levelOf (p : AisSystem) (w : Watch) : Option CpaAlarm :=
  w.latest.bind p.config.classify

/-- The present risk: that of a target which is tracked. -/
def risk (p : AisSystem) (mmsi : String) : Option CpaAlarm :=
  (p.watch mmsi).bind fun w => if w.status = .tracking then p.levelOf w else none

/-- A notification that shows a level, or none. -/
def Shows (level : Option CpaAlarm) (state : Option String) : Prop :=
  match level with
  | some level => state = some level.asStr
  | none => state = none ∨ state = some "normal"

/-- Of what was handed over, the last notification of each target shows its risk. -/
def ShowsRisk (p : AisSystem) (handed : List Delta) : Prop :=
  ∀ mmsi, Shows (p.risk mmsi) (lastState (collisionPath mmsi) (valuesOf handed))

theorem ShowsRisk.shows {p : AisSystem} {handed : List Delta} (h : ShowsRisk p handed)
    {mmsi : String} {level : Option CpaAlarm} (hr : p.risk mmsi = level) :
    Shows level (lastState (collisionPath mmsi) (valuesOf handed)) := by
  rw [← hr]
  exact h mmsi

/-- What the present round has still to hand over. -/
def pending (p : AisSystem) : List Emission :=
  match p.task with
  | .computing _ _ deltas changes =>
    deltas ++ changes.map fun change => notificationEmission change.1 change.2
  | .emitting left => left
  | _ => []

theorem pending_of_idle {p : AisSystem} (h : p.task.isIdle = true) : p.pending = [] := by
  cases ht : p.task with
  | idle => simp [pending, ht]
  | _ => simp [ht, Task.isIdle] at h

/-- Between two stages of a round nothing is pending. -/
theorem pending_between {p : AisSystem} {task : Task}
    (hcomputing : ∀ own left deltas changes, task ≠ .computing own left deltas changes)
    (hemitting : ∀ left, task ≠ .emitting left) :
    AisSystem.pending { p with task := task } = [] := by
  cases task with
  | computing own left deltas changes => exact absurd rfl (hcomputing own left deltas changes)
  | emitting left => exact absurd rfl (hemitting left)
  | _ => rfl

/-- The events that keep the notifications right: no target is lost while its alarm is
raised, none is visited whose raised level changes, and no threshold overflows. -/
def Steady [FloatMath] (p : AisSystem) : AisEvent → Prop
  | .tick later _ => ∀ mmsi ∈ p.known, ∀ t ∈ p.target mmsi,
      t.overflows = false ∧ (t.silent (p.now + later) = true → t.cpaAlarmActive = false)
  | .proceed _ _ => ∀ visit ∈ p.task.visit, ∀ w ∈ p.watch visit.2.mmsi, ∀ latest ∈ w.latest,
      ∀ result ∈ Cpa.computeCpa visit.1 visit.2.motion,
        (p.config.classify latest).isSome → (p.config.classify result).isSome →
          p.config.classify result = p.config.classify latest
  | _ => True

instance [FloatMath] (p : AisSystem) : (e : AisEvent) → Decidable (Steady p e)
  | .tick _ _ => inferInstanceAs (Decidable (∀ mmsi ∈ p.known, _))
  | .proceed _ _ => inferInstanceAs (Decidable (∀ visit ∈ p.task.visit, _))
  | .deliver _ _ => isTrue trivial
  | .ingest _ _ => isTrue trivial
  | .lag _ => isTrue trivial
  | .emit _ _ => isTrue trivial

/-- What steady events keep. -/
structure Watched (p : AisSystem) (handed : List Delta) : Prop where
  watches : ∀ mmsi w, p.watch mmsi = some w →
    w.mmsi = mmsi ∧ w.active = (p.levelOf w).isSome ∧
      (w.active = true → w.status = .tracking)
  snapshots : ∀ own left deltas changes, p.task = .computing own left deltas changes →
    (left.map TargetCpaSnapshot.mmsi).Nodup ∧
      ∀ snap ∈ left, ∃ w, p.watch snap.mmsi = some w ∧ w.status = .tracking ∧
        w.active = snap.cpaAlarmActive
  spawned : ∀ delta ∈ p.spawned, ∀ mmsi, ∀ pv ∈ delta.pathValues, pv.path ≠ collisionPath mmsi
  shown : ∀ mmsi, Shows ((p.watch mmsi).bind p.levelOf)
    (lastState (collisionPath mmsi) (valuesOf handed ++ valuesOfEmissions p.pending))

/-- When the round is over, what is shown is the risk. -/
theorem Watched.showsRisk {p : AisSystem} {handed : List Delta} (hp : Watched p handed)
    (hidle : p.task.isIdle = true) : ShowsRisk p handed := by
  intro mmsi
  have hshown := hp.shown mmsi
  rw [pending_of_idle hidle] at hshown
  have hvalues : valuesOf handed ++ valuesOfEmissions [] = valuesOf handed := List.append_nil _
  rw [hvalues] at hshown
  have hrisk : p.risk mmsi = (p.watch mmsi).bind p.levelOf := by
    unfold risk
    cases hw : p.watch mmsi with
    | none => rfl
    | some w =>
      obtain ⟨-, hactive, htracking⟩ := hp.watches mmsi w hw
      by_cases hs : w.status = .tracking
      · simp [hs]
      · have hnone : p.levelOf w = none := by
          rw [← Option.not_isSome_iff_eq_none, ← hactive]
          exact fun h => hs (htracking h)
        simp [hs, hnone]
  rw [hrisk]
  exact hshown

/-- What a message may do to the watch of a target. -/
def Renewed (mmsi : String) (old new : Option Watch) : Prop :=
  new = old ∨ ∃ w status, new = some { w with status := status } ∧
    (w.status = .tracking → status = .tracking) ∧
      (old = some w ∨ old = none ∧ w = ⟨mmsi, .acquiring, none, false⟩)

theorem levelOf_congr {p p' : AisSystem} (h : p'.config = p.config) (w : Watch) :
    p'.levelOf w = p.levelOf w := by
  unfold levelOf
  rw [h]

theorem pending_congr {p p' : AisSystem} (h : p'.task = p.task) : p'.pending = p.pending := by
  unfold pending
  rw [h]

theorem valuesOf_append (xs ys : List Delta) : valuesOf (xs ++ ys) = valuesOf xs ++ valuesOf ys :=
  List.flatMap_append

/-- Messages and emissions for other paths leave the notifications right. -/
theorem Watched.quiet {p p' : AisSystem} {handed more : List Delta} (hp : Watched p handed)
    (hconfig : p'.config = p.config) (htask : p'.task = p.task)
    (hspawned : ∀ delta ∈ p'.spawned, ∀ mmsi, ∀ pv ∈ delta.pathValues,
      pv.path ≠ collisionPath mmsi)
    (hmore : ∀ mmsi, ∀ pv ∈ valuesOf more, pv.path ≠ collisionPath mmsi)
    (hwatch : ∀ mmsi, Renewed mmsi (p.watch mmsi) (p'.watch mmsi)) :
    Watched p' (handed ++ more) := by
  refine ⟨fun mmsi w hw => ?_, fun own left deltas changes ht => ?_, hspawned, fun mmsi => ?_⟩
  · rw [levelOf_congr hconfig]
    obtain hsame | ⟨v, status, hnew, htracking, hold⟩ := hwatch mmsi
    · exact hp.watches mmsi w (hsame ▸ hw)
    · obtain rfl := Option.some.inj (hnew.symm.trans hw)
      obtain hold | ⟨-, rfl⟩ := hold
      · obtain ⟨hm, hactive, hs⟩ := hp.watches mmsi v hold
        exact ⟨hm, hactive, fun h => htracking (hs h)⟩
      · exact ⟨rfl, rfl, fun h => by cases h⟩
  · obtain ⟨hnodup, hsnaps⟩ := hp.snapshots own left deltas changes (htask.symm.trans ht)
    refine ⟨hnodup, fun snap hsnap => ?_⟩
    obtain ⟨w, hw, hs, hactive⟩ := hsnaps snap hsnap
    obtain hsame | ⟨v, status, hnew, htracking, hold⟩ := hwatch snap.mmsi
    · exact ⟨w, hsame.trans hw, hs, hactive⟩
    · obtain hold | ⟨hold, -⟩ := hold
      · obtain rfl := Option.some.inj (hold.symm.trans hw)
        exact ⟨_, hnew, htracking hs, hactive⟩
      · rw [hold] at hw
        cases hw
  · have hshown := hp.shown mmsi
    have hlevel : (p'.watch mmsi).bind p'.levelOf = (p.watch mmsi).bind p.levelOf := by
      obtain hsame | ⟨v, status, hnew, -, hold⟩ := hwatch mmsi
      · rw [hsame]
        exact congrArg _ (funext (levelOf_congr hconfig))
      · obtain hold | ⟨hold, rfl⟩ := hold
        · rw [hnew, hold]
          exact levelOf_congr hconfig v
        · rw [hnew, hold]
          rfl
    rw [hlevel, pending_congr htask, valuesOf_append, List.append_assoc,
      lastState_insert _ _ (hmore mmsi)]
    exact hshown

/-- A step of the round that hands over what is next, or nothing. -/
theorem Watched.goOn {p p' : AisSystem} {handed more : List Delta} (hp : Watched p handed)
    (hconfig : p'.config = p.config) (hspawned : p'.spawned = p.spawned)
    (htracker : p'.tracker = p.tracker)
    (hvalues : valuesOf (handed ++ more) ++ valuesOfEmissions p'.pending =
      valuesOf handed ++ valuesOfEmissions p.pending)
    (hsnapshots : ∀ own left deltas changes, p'.task = .computing own left deltas changes →
      (left.map TargetCpaSnapshot.mmsi).Nodup ∧
        ∀ snap ∈ left, ∃ w, p'.watch snap.mmsi = some w ∧ w.status = .tracking ∧
          w.active = snap.cpaAlarmActive) :
    Watched p' (handed ++ more) := by
  have hwatch : ∀ mmsi, p'.watch mmsi = p.watch mmsi := fun mmsi => by
    unfold watch target
    rw [htracker]
  refine ⟨fun mmsi w hw => ?_, hsnapshots, fun delta hd => ?_, fun mmsi => ?_⟩
  · rw [levelOf_congr hconfig]
    exact hp.watches mmsi w (hwatch mmsi ▸ hw)
  · exact hp.spawned delta (hspawned ▸ hd)
  · rw [hvalues, hwatch, funext (levelOf_congr hconfig)]
    exact hp.shown mmsi

/-- A message renews the watch of its target. -/
theorem watch_receive (p : AisSystem) (delta : Delta) (now : Instant) (timestamp : DateTime)
    (mmsi : String) :
    Renewed mmsi (p.watch mmsi) ((p.receive delta now timestamp).watch mmsi) := by
  by_cases hn : p.named delta = some mmsi
  · obtain ⟨tracker, htracker, hcontext⟩ := Option.bind_eq_some_iff.mp hn
    obtain ⟨context, hcontext, -⟩ := Option.bind_eq_some_iff.mp hcontext
    have htarget := target_receive p delta now timestamp mmsi
    rw [if_pos hn, htracker, hcontext, Option.bind_some, Option.map_some] at htarget
    obtain ⟨status, hrecorded, htracking⟩ := TrackedTarget.watch_recordMessage
      ((tracker.entry mmsi context now).updateFromValues delta.pathValues) now
    have hvalues := TrackedTarget.watch_updateFromValues (tracker.entry mmsi context now)
      delta.pathValues
    have hstatus := congrArg Watch.status hvalues
    refine .inr ⟨(tracker.entry mmsi context now).watch, status, ?_, fun h => ?_, ?_⟩
    · rw [watch, htarget, Option.map_some, hrecorded, hvalues]
    · exact htracking (hstatus.trans h)
    · unfold AisTracker.entry
      simp only [watch, target, htracker, Option.bind_some]
      cases tracker.targets.lookup mmsi with
      | none => exact .inr ⟨rfl, rfl⟩
      | some t => exact .inl rfl
  · refine .inl ?_
    rw [watch, target_receive, if_neg hn, watch]

theorem receive_frame (p : AisSystem) (delta : Delta) (now : Instant) (timestamp : DateTime) :
    (p.receive delta now timestamp).config = p.config ∧
      (p.receive delta now timestamp).task = p.task ∧
      ∀ d ∈ (p.receive delta now timestamp).spawned, d ∈ p.spawned ∨
        ∃ transition, d = statusDelta transition timestamp := by
  unfold receive
  split
  · exact ⟨rfl, rfl, fun d hd => .inl hd⟩
  · split
    · exact ⟨rfl, rfl, fun d hd => .inl hd⟩
    · split
      · exact ⟨rfl, rfl, fun d hd => .inl hd⟩
      · refine ⟨rfl, rfl, fun d hd => ?_⟩
        obtain hd | hd := Multiset.mem_add.mp hd
        · exact .inl hd
        · obtain ⟨transition, -, rfl⟩ := Option.map_eq_some_iff.mp
            (Option.mem_toList.mp (Multiset.mem_coe.mp hd))
          exact .inr ⟨transition, rfl⟩

theorem levelOf_eq_none {p : AisSystem} {handed : List Delta} (hp : Watched p handed)
    {mmsi : String} {w : Watch} (hw : p.watch mmsi = some w) (hs : w.status ≠ .tracking) :
    p.levelOf w = none := by
  obtain ⟨-, hactive, htracking⟩ := hp.watches mmsi w hw
  rw [← Option.not_isSome_iff_eq_none, ← hactive]
  exact fun h => hs (htracking h)

/-- What a tick leaves of a target's watch. -/
theorem watch_tick {p : AisSystem} {tracker tracker' : AisTracker}
    {transitions : Multiset StatusTransition} {now : Instant} (ht : p.tracker = some tracker)
    (h : tracker.tick now = some (tracker', transitions)) (timestamp : DateTime)
    (mmsi : String) : (p.tick now timestamp).watch mmsi =
      (p.target mmsi).bind fun t =>
        if t.stale now then none
        else if t.silent now then some { t.watch with status := .lost } else some t.watch := by
  simp only [watch, target, tick, ht, h, Option.bind_some]
  rw [AisTracker.lookup_tick h]
  cases tracker.targets.lookup mmsi with
  | none => rfl
  | some t =>
    simp only [Option.bind_some]
    by_cases hstale : t.stale now = true
    · simp [hstale]
    · by_cases hsilent : t.silent now = true
      · simp [hstale, hsilent, TrackedTarget.aged, TrackedTarget.watch, TrackedTarget.latest]
      · simp [hstale, hsilent, TrackedTarget.aged]

theorem status_of_stale {t : TrackedTarget} {now : Instant} (h : t.stale now = true) :
    t.status ≠ .tracking := by
  intro hs
  simp [TrackedTarget.stale, hs] at h

theorem Watched.tick [FloatMath] {p : AisSystem} {handed : List Delta} (hp : Watched p handed)
    (hidle : p.task.isIdle = true) {later : Nat} (timestamp : DateTime)
    (h : Steady p (.tick later timestamp)) :
    Watched (p.tick (p.now + later) timestamp) handed := by
  cases ht : p.tracker with
  | none =>
    have hsame : p.tick (p.now + later) timestamp = p := by
      unfold AisSystem.tick
      rw [ht]
    rw [hsame]
    exact hp
  | some tracker =>
    obtain ⟨tracker', transitions, htick⟩ :=
      tick_goes ht (fun mmsi t hm => (h mmsi (mem_known hm) t hm).1) (p.now + later)
    have hwatch := watch_tick ht htick timestamp
    have hconfig : (p.tick (p.now + later) timestamp).config = p.config := by
      simp [AisSystem.tick, ht, htick]
    have htask : (p.tick (p.now + later) timestamp).task = .position ∨
        (p.tick (p.now + later) timestamp).task = .idle := by
      simp only [AisSystem.tick, ht, htick]
      split_ifs
      · exact .inl rfl
      · exact .inr rfl
    refine ⟨fun mmsi w hw => ?_, fun own left deltas changes hc => ?_, fun delta hd => ?_,
      fun mmsi => ?_⟩
    · rw [hwatch] at hw
      obtain ⟨t, htarget, hafter⟩ := Option.bind_eq_some_iff.mp hw
      have hbefore : p.watch mmsi = some t.watch := by rw [watch, htarget, Option.map_some]
      obtain ⟨hm, hactive, hs⟩ := hp.watches mmsi t.watch hbefore
      rw [levelOf_congr hconfig]
      split_ifs at hafter with hstale hsilent
      · obtain rfl := Option.some.inj hafter
        have hoff : t.cpaAlarmActive = false := (h mmsi (mem_known htarget) t htarget).2 hsilent
        exact ⟨hm, hactive, fun hon => by
          have hfalse := hoff.symm.trans hon
          cases hfalse⟩
      · obtain rfl := Option.some.inj hafter
        exact ⟨hm, hactive, hs⟩
    · obtain ht' | ht' := htask
      · rw [ht'] at hc
        cases hc
      · rw [ht'] at hc
        cases hc
    · simp only [AisSystem.tick, ht, htick] at hd
      obtain hd | hd := Multiset.mem_add.mp hd
      · exact hp.spawned delta hd
      · obtain ⟨transition, -, rfl⟩ := Multiset.mem_map.mp hd
        exact statusDelta_others transition timestamp
    · have hpending : (p.tick (p.now + later) timestamp).pending = p.pending := by
        rw [pending_of_idle hidle]
        obtain ht' | ht' := htask
        · simp [pending, ht']
        · simp [pending, ht']
      have hshown := hp.shown mmsi
      rw [hpending, hwatch, funext (levelOf_congr hconfig)]
      cases htarget : p.target mmsi with
      | none =>
        rw [watch, htarget] at hshown
        exact hshown
      | some t =>
        have hbefore : p.watch mmsi = some t.watch := by rw [watch, htarget, Option.map_some]
        rw [hbefore, Option.bind_some] at hshown
        rw [Option.bind_some]
        split_ifs with hstale hsilent
        · have hnone := levelOf_eq_none hp hbefore (status_of_stale hstale)
          rw [hnone] at hshown
          exact hshown
        · exact hshown
        · exact hshown

/-- The round as far as it has come, without and with one more result. -/
theorem lastState_examined (mmsi : String) (front : List PathValue) (deltas : List Emission)
    (changes : List (String × Option CpaAlarm)) (context : String) (result : CpaResult) :
    lastState (collisionPath mmsi) (front ++ valuesOfEmissions
        ((deltas ++ [cpaEmission context result]) ++
          changes.map fun change => notificationEmission change.1 change.2)) =
      lastState (collisionPath mmsi) (front ++ valuesOfEmissions
        (deltas ++ changes.map fun change => notificationEmission change.1 change.2)) := by
  have h := lastState_insert (front ++ valuesOfEmissions deltas)
    (valuesOfEmissions (changes.map fun change => notificationEmission change.1 change.2))
    (cpaEmission_others context result mmsi)
  simpa [valuesOfEmissions, List.append_assoc] using h

/-- A change adds its notification at the end. -/
theorem lastState_changed (mmsi m : String) (level : Option CpaAlarm) (front : List PathValue)
    (deltas : List Emission) (changes : List (String × Option CpaAlarm)) :
    lastState (collisionPath mmsi) (front ++ valuesOfEmissions
        (deltas ++ (changes ++ [(m, level)]).map fun change =>
          notificationEmission change.1 change.2)) =
      if mmsi = m then some (level.elim "normal" CpaAlarm.asStr)
      else lastState (collisionPath mmsi) (front ++ valuesOfEmissions
        (deltas ++ changes.map fun change => notificationEmission change.1 change.2)) := by
  have hvalues : front ++ valuesOfEmissions (deltas ++ (changes ++ [(m, level)]).map fun change =>
      notificationEmission change.1 change.2) =
      (front ++ valuesOfEmissions (deltas ++ changes.map fun change =>
        notificationEmission change.1 change.2)) ++ [⟨collisionPath m, notification m level⟩] := by
    simp [valuesOfEmissions, notificationEmission]
  rw [hvalues, lastState_concat, state_notification]
  by_cases hm : mmsi = m
  · rw [if_pos hm, hm]
    simp
  · rw [if_neg hm]
    exact if_neg fun h => hm (collisionPath_injective h).symm

section
variable [FloatMath]

theorem watch_examine (p : AisSystem) (own : Motion) (snap : TargetCpaSnapshot)
    (left : List TargetCpaSnapshot) (deltas : List Emission)
    (changes : List (String × Option CpaAlarm)) {result : CpaResult}
    (hresult : Cpa.computeCpa own snap.motion = some result) (mmsi : String) :
    (p.examine own snap left deltas changes).watch mmsi =
      (p.watch mmsi).map fun w =>
        if mmsi = snap.mmsi then
          { w with latest := some result, active := (p.config.classify result).isSome }
        else w := by
  have hactive : (if (p.config.classify result).isSome ≠ snap.cpaAlarmActive then
      (p.config.classify result).isSome else snap.cpaAlarmActive) =
        (p.config.classify result).isSome := by
    split_ifs with h
    · rfl
    · exact (not_not.mp h).symm
  unfold examine
  simp only [hresult, hactive, watch, target]
  cases ht : p.tracker with
  | none => rfl
  | some tracker =>
    simp only [Option.map_some, Option.bind_some, AisTracker.lookup_updateTargetCpa,
      Option.map_map]
    refine congrFun (congrArg Option.map (funext fun t => ?_)) _
    by_cases hm : mmsi = snap.mmsi
    · simp [hm, TrackedTarget.watch, TrackedTarget.latest]
    · simp [hm]

theorem examine_config (p : AisSystem) (own : Motion) (snap : TargetCpaSnapshot)
    (left : List TargetCpaSnapshot) (deltas : List Emission)
    (changes : List (String × Option CpaAlarm)) :
    (p.examine own snap left deltas changes).config = p.config := by
  unfold examine
  cases Cpa.computeCpa own snap.motion with
  | none => rfl
  | some result => rfl

theorem level_examine {p : AisSystem} {own : Motion} {snap : TargetCpaSnapshot}
    {left : List TargetCpaSnapshot} {deltas : List Emission}
    {changes : List (String × Option CpaAlarm)} {result : CpaResult}
    (hresult : Cpa.computeCpa own snap.motion = some result) {w : Watch}
    (hw : p.watch snap.mmsi = some w) (mmsi : String) :
    ((p.examine own snap left deltas changes).watch mmsi).bind
        (p.examine own snap left deltas changes).levelOf =
      if mmsi = snap.mmsi then p.config.classify result else (p.watch mmsi).bind p.levelOf := by
  rw [watch_examine p own snap left deltas changes hresult,
    funext (levelOf_congr (examine_config p own snap left deltas changes))]
  by_cases hm : mmsi = snap.mmsi
  · rw [if_pos hm, hm, hw]
    simp [levelOf]
  · simp [hm]

omit [FloatMath] in
/-- While the flag stays as it is, so does the level. -/
theorem level_of_unchanged {p : AisSystem} {w : Watch} {result : CpaResult}
    (hflag : (p.config.classify result).isSome = (p.levelOf w).isSome)
    (h : ∀ latest ∈ w.latest, (p.config.classify latest).isSome →
      (p.config.classify result).isSome → p.config.classify result = p.config.classify latest) :
    p.config.classify result = p.levelOf w := by
  cases hold : p.levelOf w with
  | none =>
    rw [hold] at hflag
    exact Option.not_isSome_iff_eq_none.mp (by simp [hflag])
  | some level =>
    obtain ⟨latest, hlatest, hclass⟩ := Option.bind_eq_some_iff.mp hold
    have heq := h latest hlatest (by rw [hclass]; rfl) (by rw [hflag, hold]; rfl)
    rw [heq, hclass]

theorem Watched.examine {p : AisSystem} {handed : List Delta} (hp : Watched p handed)
    {own : Motion} {snap : TargetCpaSnapshot} {left : List TargetCpaSnapshot}
    {deltas : List Emission} {changes : List (String × Option CpaAlarm)}
    (ht : p.task = .computing own (snap :: left) deltas changes)
    (h : ∀ w ∈ p.watch snap.mmsi, ∀ latest ∈ w.latest,
      ∀ result ∈ Cpa.computeCpa own snap.motion,
        (p.config.classify latest).isSome → (p.config.classify result).isSome →
          p.config.classify result = p.config.classify latest) :
    Watched (p.examine own snap left deltas changes) handed := by
  obtain ⟨hnodup, hsnaps⟩ := hp.snapshots own (snap :: left) deltas changes ht
  rw [List.map_cons, List.nodup_cons] at hnodup
  have hpending : p.pending =
      deltas ++ changes.map fun change => notificationEmission change.1 change.2 := by
    simp only [pending, ht]
  cases hresult : Cpa.computeCpa own snap.motion with
  | none =>
    have hexamine : p.examine own snap left deltas changes =
        { p with task := .computing own left deltas changes } := by
      simp only [AisSystem.examine, hresult]
    rw [hexamine, ← List.append_nil handed]
    refine hp.goOn rfl rfl rfl ?_ fun own' left' deltas' changes' ht' => ?_
    · rw [List.append_nil, hpending]
      rfl
    · cases ht'
      exact ⟨hnodup.2, fun s hs => hsnaps s (List.mem_cons_of_mem _ hs)⟩
  | some result =>
    have hwatch := watch_examine p own snap left deltas changes hresult
    have hconfig := examine_config p own snap left deltas changes
    have hspawned : (p.examine own snap left deltas changes).spawned = p.spawned := by
      simp only [AisSystem.examine, hresult]
    obtain ⟨w, hw, htracking, hsnap⟩ := hsnaps snap List.mem_cons_self
    obtain ⟨-, hactive, -⟩ := hp.watches snap.mmsi w hw
    refine ⟨fun mmsi v hv => ?_, fun own' left' deltas' changes' ht' => ?_,
      fun delta hd => hp.spawned delta (hspawned ▸ hd), fun mmsi => ?_⟩
    · rw [levelOf_congr hconfig]
      rw [hwatch] at hv
      obtain ⟨u, hu, rfl⟩ := Option.map_eq_some_iff.mp hv
      by_cases hm : mmsi = snap.mmsi
      · obtain rfl := Option.some.inj (hw.symm.trans (hm ▸ hu))
        rw [if_pos hm]
        exact ⟨(hp.watches mmsi w hu).1, rfl, fun _ => htracking⟩
      · rw [if_neg hm]
        exact hp.watches mmsi u hu
    · simp only [AisSystem.examine, hresult] at ht'
      cases ht'
      refine ⟨hnodup.2, fun s hs => ?_⟩
      obtain ⟨u, hu, hus, huactive⟩ := hsnaps s (List.mem_cons_of_mem _ hs)
      have hne : s.mmsi ≠ snap.mmsi := fun he =>
        hnodup.1 (List.mem_map.mpr ⟨s, hs, he⟩)
      exact ⟨u, by rw [hwatch, hu, Option.map_some, if_neg hne], hus, huactive⟩
    · have hshown := hp.shown mmsi
      rw [hpending] at hshown
      rw [level_examine hresult hw]
      by_cases hchange : (p.config.classify result).isSome ≠ snap.cpaAlarmActive
      · have hpending' : (p.examine own snap left deltas changes).pending =
            (deltas ++ [cpaEmission snap.context result]) ++
              (changes ++ [(snap.mmsi, p.config.classify result)]).map fun change =>
                notificationEmission change.1 change.2 := by
          simp only [pending, AisSystem.examine, hresult, if_pos hchange]
        rw [hpending', lastState_examined, lastState_changed]
        by_cases hm : mmsi = snap.mmsi
        · rw [if_pos hm, if_pos hm]
          cases p.config.classify result with
          | none => exact .inr rfl
          | some level => rfl
        · rw [if_neg hm, if_neg hm]
          exact hshown
      · have hpending' : (p.examine own snap left deltas changes).pending =
            (deltas ++ [cpaEmission snap.context result]) ++ changes.map fun change =>
              notificationEmission change.1 change.2 := by
          simp only [pending, AisSystem.examine, hresult, if_neg hchange]
        rw [hpending', lastState_examined]
        by_cases hm : mmsi = snap.mmsi
        · rw [if_pos hm]
          rw [hm, hw, Option.bind_some] at hshown
          have hflag : (p.config.classify result).isSome = (p.levelOf w).isSome :=
            (not_not.mp hchange).trans (hsnap.symm.trans hactive)
          rw [level_of_unchanged hflag fun latest hlatest => h w hw latest hlatest result hresult, hm]
          exact hshown
        · rw [if_neg hm]
          exact hshown

end

theorem handleMessage_frame [JsonText] (p : AisSystem) (env : HandleEnv) (delta : Delta) :
    (p.handleMessage env delta).2 = [delta] ∧
      (p.handleMessage env delta).1.config = p.config ∧
      (p.handleMessage env delta).1.tracker = p.tracker ∧
      (p.handleMessage env delta).1.spawned = p.spawned ∧
      (p.handleMessage env delta).1.task = p.task := by
  unfold handleMessage
  cases env.filter delta with
  | none => exact ⟨rfl, rfl, rfl, rfl, rfl⟩
  | some d => exact ⟨rfl, rfl, rfl, rfl, rfl⟩

theorem cpaSnapshot_eq_some {t : TrackedTarget} {snap : TargetCpaSnapshot}
    (h : t.cpaSnapshot = some snap) :
    t.status = .tracking ∧ snap.mmsi = t.mmsi ∧ snap.cpaAlarmActive = t.cpaAlarmActive := by
  unfold TrackedTarget.cpaSnapshot at h
  split_ifs at h with hs
  obtain ⟨position, -, rfl⟩ := Option.map_eq_some_iff.mp h
  exact ⟨hs, rfl, rfl⟩

/-- Keys that a selection keeps come in the order of the list. -/
theorem map_filterMap_sublist {α β γ : Type*} {f : α → Option β} {g : β → γ} {k : α → γ}
    {l : List α} (h : ∀ a ∈ l, ∀ b, f a = some b → g b = k a) :
    ((l.filterMap f).map g).Sublist (l.map k) := by
  induction l with
  | nil => exact .slnil
  | cons a l ih =>
    have hrest := ih fun b hb => h b (List.mem_cons_of_mem a hb)
    cases hf : f a with
    | none =>
      rw [List.filterMap_cons_none hf]
      exact hrest.cons _
    | some b =>
      rw [List.filterMap_cons_some hf, List.map_cons, List.map_cons,
        h a List.mem_cons_self b hf]
      exact hrest.cons_cons _

/-- Each target that is tracked is looked at once. -/
theorem snapshots_of_order {p : AisSystem} {handed : List Delta} (hp : Watched p handed)
    {tracker : AisTracker} (ht : p.tracker = some tracker) {order : List (String × TrackedTarget)}
    (horder : HashMap.IterOrder order tracker.targets) :
    ((AisTracker.targetsForCpa order).map TargetCpaSnapshot.mmsi).Nodup ∧
      ∀ snap ∈ AisTracker.targetsForCpa order, ∃ w, p.watch snap.mmsi = some w ∧
        w.status = .tracking ∧ w.active = snap.cpaAlarmActive := by
  have hentry : ∀ e ∈ order, p.watch e.1 = some e.2.watch ∧ e.2.mmsi = e.1 := by
    intro e he
    have hlookup := (horder.mem_iff e.1 e.2).mp he
    have hw : p.watch e.1 = some e.2.watch := by
      simp only [watch, target, ht, Option.bind_some, hlookup, Option.map_some]
    exact ⟨hw, (hp.watches e.1 e.2.watch hw).1⟩
  constructor
  · have hsub : ((AisTracker.targetsForCpa order).map TargetCpaSnapshot.mmsi).Sublist
        (order.map Prod.fst) := by
      refine map_filterMap_sublist fun e he snap hsnap => ?_
      exact (cpaSnapshot_eq_some hsnap).2.1.trans (hentry e he).2
    exact hsub.nodup horder.nodup
  · intro snap hmem
    obtain ⟨e, he, h⟩ := List.mem_filterMap.mp hmem
    obtain ⟨hw, hm⟩ := hentry e he
    obtain ⟨hs, hmmsi, hactive⟩ := cpaSnapshot_eq_some h
    exact ⟨e.2.watch, by rw [hmmsi, hm, hw], hs, hactive.symm⟩

section
variable [FloatMath] [JsonText]

theorem Watched.proceed {p : AisSystem} {handed : List Delta} (hp : Watched p handed)
    (order : List (String × TrackedTarget)) (env : HandleEnv)
    (h : Steady p (.proceed order env)) :
    Watched (p.proceed order env).1 (handed ++ (p.proceed order env).2) := by
  -- a step between two stages of the round in which nothing is pending
  have hbetween : ∀ task : Task, p.pending = [] →
      (∀ own left deltas changes, task ≠ .computing own left deltas changes) →
      (∀ left, task ≠ .emitting left) →
      Watched { p with task := task } (handed ++ []) := by
    intro task hnone hcomputing hemitting
    refine hp.goOn rfl rfl rfl ?_ fun own left deltas changes ht =>
      absurd ht (hcomputing own left deltas changes)
    rw [List.append_nil, pending_between hcomputing hemitting, hnone]
  cases ht : p.task with
  | idle =>
    simp only [AisSystem.proceed, ht, List.append_nil]
    exact hp
  | position =>
    have hnone : p.pending = [] := by simp only [pending, ht]
    simp only [AisSystem.proceed, ht]
    split
    · exact hbetween _ hnone (fun _ _ _ _ h => by cases h) fun _ h => by cases h
    · exact hbetween _ hnone (fun _ _ _ _ h => by cases h) fun _ h => by cases h
  | speed lat lon =>
    have hnone : p.pending = [] := by simp only [pending, ht]
    simp only [AisSystem.proceed, ht]
    exact hbetween _ hnone (fun _ _ _ _ h => by cases h) fun _ h => by cases h
  | course lat lon sog =>
    have hnone : p.pending = [] := by simp only [pending, ht]
    simp only [AisSystem.proceed, ht]
    exact hbetween _ hnone (fun _ _ _ _ h => by cases h) fun _ h => by cases h
  | snapshot own =>
    have hnone : p.pending = [] := by simp only [pending, ht]
    simp only [AisSystem.proceed, ht]
    split
    · exact hbetween _ hnone (fun _ _ _ _ h => by cases h) fun _ h => by cases h
    · rename_i tracker htracker
      split_ifs with horder
      · refine hp.goOn rfl rfl rfl ?_ fun own' left deltas changes ht' => ?_
        · rw [List.append_nil, hnone]
          rfl
        · cases ht'
          exact snapshots_of_order hp htracker horder
      · rw [List.append_nil]
        exact hp
  | computing own left deltas changes =>
    have hpending : p.pending =
        deltas ++ changes.map fun change => notificationEmission change.1 change.2 := by
      simp only [pending, ht]
    cases left with
    | nil =>
      simp only [AisSystem.proceed, ht]
      refine hp.goOn rfl rfl rfl ?_ fun _ _ _ _ h => by cases h
      rw [List.append_nil, hpending]
      rfl
    | cons snap left =>
      simp only [AisSystem.proceed, ht, List.append_nil]
      exact hp.examine ht (h (own, snap) (by rw [ht]; rfl))
  | emitting left =>
    have hpending : p.pending = left := by simp only [pending, ht]
    cases left with
    | nil =>
      simp only [AisSystem.proceed, ht]
      exact hbetween _ hpending (fun _ _ _ _ h => by cases h) fun _ h => by cases h
    | cons e left =>
      obtain ⟨hout, hconfig, htracker, hspawned, -⟩ :=
        handleMessage_frame p env (e.delta env.timestamp)
      simp only [AisSystem.proceed, ht]
      refine hp.goOn hconfig hspawned htracker ?_ fun _ _ _ _ h => by cases h
      have hnext : AisSystem.pending { (p.handleMessage env (e.delta env.timestamp)).1 with
          task := .emitting left } = left := rfl
      rw [hout, hnext, hpending]
      simp [valuesOf, valuesOfEmissions, Emission.delta, Delta.withContext, Delta.pathValues]

theorem Watched.step {p : AisSystem} {handed : List Delta} (hp : Watched p handed) {e : AisEvent}
    (he : Steady p e) : Watched (p.step e).1 (handed ++ (p.step e).2) := by
  have hsame : ∀ {p' : AisSystem}, p'.config = p.config → p'.task = p.task →
      p'.tracker = p.tracker → p'.spawned = p.spawned → Watched p' (handed ++ []) := by
    intro p' hconfig htask htracker hspawned
    refine hp.quiet hconfig htask (fun delta hd => hp.spawned delta (hspawned ▸ hd))
      (fun _ pv hpv => by cases hpv) fun mmsi => .inl ?_
    unfold watch target
    rw [htracker]
  cases e with
  | ingest clock delta => exact hsame rfl rfl rfl rfl
  | deliver later timestamp =>
    simp only [AisSystem.step, deliver]
    cases hb : p.broadcasts with
    | nil => exact hsame rfl rfl rfl rfl
    | cons delta broadcasts =>
      simp only
      split_ifs
      · obtain ⟨hconfig, htask, hspawned⟩ := receive_frame { p with broadcasts := broadcasts }
          delta (p.now + later) timestamp
        refine hp.quiet hconfig htask (fun d hd => ?_) (fun _ pv hpv => by cases hpv)
          (watch_receive { p with broadcasts := broadcasts } delta (p.now + later) timestamp)
        obtain hd | ⟨transition, rfl⟩ := hspawned d hd
        · exact hp.spawned d hd
        · exact statusDelta_others transition timestamp
      · exact hsame rfl rfl rfl rfl
  | lag n => exact hsame rfl rfl rfl rfl
  | emit delta env =>
    simp only [AisSystem.step]
    split_ifs with hmem
    · obtain ⟨hout, hconfig, htracker, hspawned, htask⟩ :=
        handleMessage_frame { p with spawned := p.spawned.erase delta } env delta
      refine hp.quiet hconfig htask (fun d hd => ?_) (fun mmsi pv hpv => ?_) fun mmsi => .inl ?_
      · rw [hspawned] at hd
        exact hp.spawned d (Multiset.mem_of_mem_erase hd)
      · rw [hout] at hpv
        exact hp.spawned delta hmem mmsi pv (by simpa [valuesOf] using hpv)
      · unfold watch target
        rw [htracker]
    · exact hsame rfl rfl rfl rfl
  | tick later timestamp =>
    simp only [AisSystem.step]
    split_ifs with hidle
    · rw [List.append_nil]
      exact hp.tick hidle timestamp he
    · exact hsame rfl rfl rfl rfl
  | proceed order env => exact hp.proceed order env he

/-- Between two rounds the last notification of every target shows its risk. -/
theorem steady_shows_risk (config : AisConfig) (store : SignalKStore) (now : Instant)
    (events : List AisEvent)
    (hmeets : Machine.Meets step Steady (start config store now) events) :
    ∀ es, es <+: events →
      let out := Machine.exec step (start config store now) es
      out.1.task.isIdle = true → ShowsRisk out.1 out.2 := by
  intro es hes out hidle
  have hstart : Watched (start config store now) [] := by
    have hnone : ∀ mmsi, (start config store now).watch mmsi = none := fun mmsi => by
      simp [watch, target, start, AisTracker.withConfig]
    refine ⟨fun mmsi w hw => ?_, fun _ _ _ _ h => (by cases h), fun delta hd => ?_,
      fun mmsi => ?_⟩
    · rw [hnone] at hw
      cases hw
    · exact absurd hd (Multiset.notMem_zero delta)
    · rw [hnone]
      exact .inl rfl
  obtain ⟨rest, rfl⟩ := hes
  have hend := Machine.exec_inv (fun _ _ _ hq he => hq.step he) hstart
    (Machine.meets_append.mp hmeets).1
  rw [List.nil_append] at hend
  exact hend.showsRisk hidle

end

section
local instance : JsonText := JsonText.unused

def finiteOp (f : ℚ → ℚ → ℚ) : F64 → F64 → F64
  | .finite a, .finite b => .finite (f a b)
  | _, _ => .nan

def finiteFun (f : ℚ → ℚ) : F64 → F64
  | .finite a => .finite (f a)
  | _ => .nan

/-- The integer part of a square root, digit by digit. -/
def isqrt : Nat → Nat → Nat
  | 0, _ => 0
  | digits + 1, n =>
    let r := 2 * isqrt digits (n / 4)
    if (r + 1) * (r + 1) ≤ n then r + 1 else r

/-- Exact arithmetic, and the first terms of the series of small angles. -/
local instance : FloatMath where
  add := finiteOp (· + ·)
  sub := finiteOp (· - ·)
  mul := finiteOp (· * ·)
  div := finiteOp (· / ·)
  neg := finiteFun (- ·)
  sin := finiteFun fun x => x - x ^ 3 / 6
  cos := finiteFun fun x => 1 - x ^ 2 / 2
  sqrt := finiteFun fun x => isqrt 200 (x.num.toNat * x.den) / x.den
  toRadians := finiteFun fun x => x * 355 / 113 / 180

def withCpa : AisConfig where
  thresholds := ⟨none, none, none, none⟩
  cpaWarnM := some (.finite 1000)
  cpaAlarmM := some (.finite 500)
  tcpaMaxS := .finite 3600

def positionJson (lat lon : ℚ) : Json :=
  Json.ofFields [("latitude", .ofF64 lat), ("longitude", .ofF64 lon)]

/-- The own vessel at the origin, on its way north at 5 m/s. -/
def ownReport : Delta :=
  Delta.selfVessel [⟨Source.nmea0183 "gps" "GP", 0,
    [⟨"navigation.position", positionJson 0 0⟩, ⟨"navigation.speedOverGround", .ofF64 5⟩,
      ⟨"navigation.courseOverGroundTrue", .ofF64 0⟩]⟩]

/-- A buoy ahead, to the right of the track. -/
def buoyReport (lon : ℚ) : Delta :=
  Delta.withContext "vessels.urn:mrn:imo:mmsi:970012345"
    [⟨Source.nmea0183 "ais" "AI", 0, [⟨"navigation.position", positionJson (1 / 50) lon⟩]⟩]

/-- Reports that are stored and received. -/
def heard (deltas : List Delta) : List AisEvent :=
  deltas.map (.ingest fun _ => 0) ++ List.replicate 5 (.deliver 0 0)

/-- A whole round of the timer, with the buoy as the only target. -/
def round (p : AisSystem) (later : Nat) : List AisEvent :=
  let order := ((p.step (.tick later 0)).1.target "970012345").toList.map ("970012345", ·)
  .tick later 0 :: List.replicate 10 (.proceed order handled)

abbrev buoyStart : AisSystem :=
  start withCpa (SignalKStore.new "urn:mrn:signalk:uuid:test") 0

def shownState (handed : List Delta) : Option String :=
  lastState (collisionPath "970012345") (valuesOf handed)

/-- The first round after the buoy was seen 670 m off the track. -/
def firstRound : List AisEvent :=
  let before := heard [ownReport, buoyReport (3 / 500)]
  before ++ round (Machine.run step buoyStart before) 0

/-- A round after it was seen 330 m off the track. -/
def secondRound : List AisEvent :=
  let before := firstRound ++ heard [buoyReport (3 / 1000)]
  before ++ round (Machine.run step buoyStart before) (seconds 30)

theorem steady_shows_risk_warned :
    let out := Machine.exec step buoyStart firstRound
    out.1.risk "970012345" = some .warn ∧ shownState out.2 = some "warn" := by
  intro out
  have hmeets : Machine.Meets step Steady buoyStart firstRound := by decide +kernel
  have hrun : out.1.task.isIdle = true ∧ out.1.risk "970012345" = some .warn := by
    decide +kernel
  obtain ⟨hidle, hrisk⟩ := hrun
  have hshows : ShowsRisk out.1 out.2 :=
    steady_shows_risk withCpa (SignalKStore.new "urn:mrn:signalk:uuid:test") 0 firstRound hmeets
      firstRound List.prefix_rfl hidle
  exact ⟨hrisk, hshows.shows hrisk⟩

/-- A warning that worsens to an alarm is not escalated. -/
theorem alarm_not_escalated :
    let out := Machine.exec step buoyStart secondRound
    out.1.task.isIdle = true ∧ out.1.risk "970012345" = some .alarm ∧
      shownState out.2 = some "warn" ∧ ¬ ShowsRisk out.1 out.2 := by
  intro out
  have hrun : out.1.task.isIdle = true ∧ out.1.risk "970012345" = some .alarm ∧
      shownState out.2 = some "warn" := by decide +kernel
  obtain ⟨hidle, hrisk, hshown⟩ := hrun
  refine ⟨hidle, hrisk, hshown, fun h => ?_⟩
  have hshows : shownState out.2 = some "alarm" := h.shows hrisk
  rw [hshown] at hshows
  exact absurd hshows (by decide)

end

end AisSystem
end SignalK

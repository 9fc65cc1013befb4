import Mathlib.Data.Rat.Floor
import SignalK.Notifications.Clear
import SignalK.Types.F64

/-! The anchor alarm. It notifies when its flag changes, and the flag begins anew with each
start of the plugin while the notification stays in the store. -/
namespace SignalK.AnchorAlarm
open Notifications

/-- Distances in meters and their text without decimals. -/
class DistanceMath where
  haversineMeters : ℚ → ℚ → ℚ → ℚ → F64
  rounded : F64 → String

structure AnchorPosition where
  latitude : ℚ
  longitude : ℚ
  deriving DecidableEq

structure AnchorConfig where
  position : AnchorPosition
  radius : ℚ
  deriving DecidableEq

def AnchorPosition.fromValue (j : Json) : Option AnchorPosition :=
  (Json.structFields ["latitude", "longitude"] 2 j).bind fun field => do
    let latitude ← (field "latitude").bind Json.asF64
    let longitude ← (field "longitude").bind Json.asF64
    return { latitude := latitude, longitude := longitude }

def defaultRadius : ℚ := 50

def AnchorConfig.fromValue (j : Json) : Option AnchorConfig :=
  (Json.structFields ["position", "radius"] 1 j).bind fun field => do
    let position ← (field "position").bind AnchorPosition.fromValue
    let radius ← (field "radius").elim (some defaultRadius) Json.asF64
    return { position := position, radius := radius }

/-- A subscription that is alive. -/
structure Watch where
  config : AnchorConfig
  alarming : Bool
  deriving DecidableEq

/-- The plugin as the manager has it; one that has failed to start does not come back. -/
inductive AnchorPlugin where
  | stopped
  | watching (watch : Watch)
  | failed
  deriving DecidableEq

namespace AnchorPlugin

/-- The manager skips the start of a plugin that runs. -/
def start (config : Json) : AnchorPlugin → AnchorPlugin
  | stopped =>
    match AnchorConfig.fromValue config with
    | some config => watching ⟨config, false⟩
    | none => failed
  | plugin => plugin

def stop : AnchorPlugin → AnchorPlugin
  | watching _ => stopped
  | plugin => plugin

end AnchorPlugin

/-- The position in a value, if it is one. -/
def positionOf (pv : PathValue) : Option AnchorPosition :=
  if pv.path = "navigation.position" then do
    let latitude ← (pv.value.get "latitude").bind Json.asF64
    let longitude ← (pv.value.get "longitude").bind Json.asF64
    return { latitude := latitude, longitude := longitude }
  else none

def raiser : Raiser := ⟨"anchor-alarm", "navigation.anchor"⟩

section
variable [DistanceMath]
open DistanceMath

def notification (distance : F64) (radius : ℚ) (alarming : Bool) : Notification where
  id := none
  state := if alarming then .alarm else .normal
  method := if alarming then [.visual, .sound] else []
  message :=
    if alarming then
      "Anchor alarm! Vessel is " ++ rounded distance ++ "m from anchor (radius: " ++
        rounded (.finite radius) ++ "m)"
    else
      "Back within anchor radius (" ++ rounded distance ++ "m, radius: " ++
        rounded (.finite radius) ++ "m)"
  status := none

namespace Watch

def distance (w : Watch) (pos : AnchorPosition) : F64 :=
  haversineMeters w.config.position.latitude w.config.position.longitude pos.latitude pos.longitude

def isOutside (w : Watch) (pos : AnchorPosition) : Bool :=
  (F64.finite w.config.radius).lt (w.distance pos)

/-- What the callback does with one value. -/
def check (w : Watch) (pv : PathValue) : Watch × Option Notification :=
  match positionOf pv with
  | none => (w, none)
  | some pos =>
    if w.isOutside pos && !w.alarming then
      ({ w with alarming := true }, some (notification (w.distance pos) w.config.radius true))
    else if !w.isOutside pos && w.alarming then
      ({ w with alarming := false }, some (notification (w.distance pos) w.config.radius false))
    else (w, none)

/-- The callback: the values of all updates in order. -/
def callback (w : Watch) : List PathValue → Watch × List Notification
  | [] => (w, [])
  | pv :: pvs =>
    let r := (w.check pv).1.callback pvs
    (r.1, (w.check pv).2.toList ++ r.2)

end Watch

end

/-- What a notification finds when its task runs. -/
structure Surroundings where
  timestamp : DateTime
  clock : Nat → DateTime
  uuids : Nat → String

/-- The plugin and the server that takes its notifications in the order of their tasks. -/
structure AnchorWatch where
  plugin : AnchorPlugin
  server : ServerState
  /-- the last valid position since the start (history) -/
  last : Option AnchorPosition

inductive AnchorEvent where
  | start (config : Json)
  | stop
  /-- the callback comes to a value, and a notification that it spawns is applied -/
  | value (pv : PathValue) (around : Surroundings)

namespace AnchorWatch

def begin (server : ServerState) : AnchorWatch where
  plugin := .stopped
  server := server
  last := none

/-- `raise_notification`: through the filter of the notification manager to the store. -/
def raise [JsonText] (server : ServerState) (around : Surroundings) (n : Notification) :
    ServerState :=
  let r := server.notificationManager.enrichDelta around.uuids
    (raiser.raiseNotification around.timestamp n)
  { store := (server.store.applyDelta around.clock r.2).1
    notificationManager := r.1 }

/-- The state of the notification that the store holds. -/
def stored (s : AnchorWatch) : Option NotificationState :=
  (s.server.store.getSelfPath raiser.storePath).bind fun sv =>
    (Notification.fromValue sv.value).map (·.state)

variable [DistanceMath] [JsonText]

def step (s : AnchorWatch) : AnchorEvent → AnchorWatch × List Notification
  | .start config =>
    match s.plugin with
    | .stopped => ({ s with plugin := s.plugin.start config, last := none }, [])
    | _ => ({ s with plugin := s.plugin.start config }, [])
  | .stop => ({ s with plugin := s.plugin.stop }, [])
  | .value pv around =>
    match s.plugin with
    | .watching w =>
      let r := w.check pv
      ({ plugin := .watching r.1
         server := r.2.elim s.server (raise s.server around)
         last := (positionOf pv).or s.last }, r.2.toList)
    | _ => (s, [])

/-- The callback goes over a delta as over its values one by one. -/
theorem callback_eq (w : Watch) (server : ServerState) (last : Option AnchorPosition)
    (pvs : List (PathValue × Surroundings)) :
    let r := Machine.exec step ⟨.watching w, server, last⟩
      (pvs.map fun e => AnchorEvent.value e.1 e.2)
    (w.callback (pvs.map Prod.fst)).2 = r.2 ∧
      r.1.plugin = .watching (w.callback (pvs.map Prod.fst)).1 := by
  induction pvs generalizing w server last with
  | nil => exact ⟨rfl, rfl⟩
  | cons e pvs ih =>
    obtain ⟨hout, hplugin⟩ := ih (w.check e.1).1
      ((w.check e.1).2.elim server (raise server e.2)) ((positionOf e.1).or last)
    exact ⟨congrArg _ hout, hplugin⟩

/-- What is owed after a valid position. -/
def Shows (s : AnchorWatch) : Prop :=
  ∀ w, s.plugin = .watching w → ∀ pos, s.last = some pos →
    (s.stored = some .alarm ↔ w.isOutside pos = true) ∧
      (w.isOutside pos = false →
        s.server.store.getSelfPath raiser.storePath = none ∨ s.stored = some .normal)

/-- The first position after a start is outside of the radius, if it finds an alarm. -/
def Dragging (s : AnchorWatch) (e : AnchorEvent) : Prop :=
  ∀ w pv around pos, s.plugin = .watching w → e = .value pv around → positionOf pv = some pos →
    s.last = none → s.stored = some .alarm → w.isOutside pos = true

/-- The flag is that of the last position, and the alarm stands while it is set. -/
structure Flagged (s : AnchorWatch) : Prop where
  flag : ∀ w, s.plugin = .watching w → w.alarming = s.last.any w.isOutside
  stands : ∀ w, s.plugin = .watching w → w.alarming = true → s.stored = some .alarm
  own : ∀ sv, s.server.store.getSelfPath raiser.storePath = some sv →
    sv.source = makeSourceRef (Source.plugin raiser.pluginId) ∧
      (s.stored = some .alarm ∨ s.stored = some .normal)

omit [DistanceMath] in
/-- A notification of the plugin is stored, since no other source writes there. -/
theorem stored_raise {server : ServerState}
    (hown : ∀ sv, server.store.getSelfPath raiser.storePath = some sv →
      sv.source = makeSourceRef (Source.plugin raiser.pluginId))
    (around : Surroundings) (n : Notification) :
    ∃ n' : Notification, n'.state = n.state ∧
      (raise server around n).store.getSelfPath raiser.storePath =
        some (SignalKValue.new n'.toValue (makeSourceRef (Source.plugin raiser.pluginId))
          around.timestamp) := by
  obtain ⟨n', hdelta, hstate, -⟩ := raiser.enrich_raiseNotification around.uuids
    server.notificationManager around.timestamp n
  refine ⟨n', hstate, ?_⟩
  rw [raise, hdelta, Raiser.raiseNotification]
  have haccepts : server.store.ledger.accepts (around.clock 0)
      (Write.of server.store.selfUri (makeSourceRef (Source.plugin raiser.pluginId))
        around.timestamp ⟨raiser.storePath, n'.toValue⟩) = true := by
    rw [← Bool.not_eq_false]
    intro hr
    cases hc : server.store.ledger.active server.store.selfUri raiser.storePath with
    | none => simp [Ledger.accepts, Write.of, hc] at hr
    | some c => exact Ledger.source_ne_of_rejected hc hr (hown c hc).symm
  exact (SignalKStore.getSelfPath_single _ _ _ _ _ _).trans (if_pos ⟨rfl, haccepts⟩)

variable {s : AnchorWatch}

theorem Flagged.own_source (h : Flagged s) : ∀ sv,
    s.server.store.getSelfPath raiser.storePath = some sv →
      sv.source = makeSourceRef (Source.plugin raiser.pluginId) := fun sv hsv => (h.own sv hsv).1

omit [DistanceMath] in
/-- What a state without another writer of the path looks like after a notification. -/
theorem stored_of_raise (around : Surroundings) (n : Notification) (plugin : AnchorPlugin)
    (last : Option AnchorPosition) {server : ServerState}
    (hown : ∀ sv, server.store.getSelfPath raiser.storePath = some sv →
      sv.source = makeSourceRef (Source.plugin raiser.pluginId)) :
    let next : AnchorWatch := ⟨plugin, raise server around n, last⟩
    next.stored = some n.state ∧ ∀ sv,
      next.server.store.getSelfPath raiser.storePath = some sv →
        sv.source = makeSourceRef (Source.plugin raiser.pluginId) := by
  obtain ⟨n', hstate, hget⟩ := stored_raise hown around n
  constructor
  · rw [stored, hget, Option.bind_some]
    simp [SignalKValue.new, Notification.fromValue_toValue, hstate]
  · intro sv hsv
    obtain rfl := Option.some.inj (hget.symm.trans hsv)
    rfl

/-- The three things that a valid position can do. -/
inductive Checks (w : Watch) (pos : AnchorPosition) : Watch × Option Notification → Prop
  | alarmed : w.isOutside pos = true → w.alarming = false →
      Checks w pos ({ w with alarming := true },
        some (notification (w.distance pos) w.config.radius true))
  | cleared : w.isOutside pos = false → w.alarming = true →
      Checks w pos ({ w with alarming := false },
        some (notification (w.distance pos) w.config.radius false))
  | kept : w.alarming = w.isOutside pos → Checks w pos (w, none)

omit [JsonText] in
theorem checks {w : Watch} {pv : PathValue} {pos : AnchorPosition} (h : positionOf pv = some pos) :
    Checks w pos (w.check pv) := by
  unfold Watch.check
  simp only [h]
  cases hout : w.isOutside pos with
  | false =>
    cases hflag : w.alarming with
    | false => exact .kept (hflag.trans hout.symm)
    | true => exact .cleared hout hflag
  | true =>
    cases hflag : w.alarming with
    | false => exact .alarmed hout hflag
    | true => exact .kept (hflag.trans hout.symm)

theorem flagged_step (h : Flagged s) (e : AnchorEvent) : Flagged (s.step e).1 := by
  obtain ⟨plugin, server, last⟩ := s
  cases e with
  | stop =>
    cases plugin with
    | watching w => exact ⟨fun _ hw => (nomatch hw), fun _ hw => (nomatch hw), h.own⟩
    | stopped => exact h
    | failed => exact h
  | start config =>
    cases plugin with
    | watching w => exact h
    | failed => exact h
    | stopped =>
      simp only [step, AnchorPlugin.start]
      cases AnchorConfig.fromValue config with
      | none => exact ⟨fun _ hw => (nomatch hw), fun _ hw => (nomatch hw), h.own⟩
      | some config =>
        refine ⟨fun w hw => ?_, fun w hw hflag => ?_, h.own⟩
        · cases hw
          rfl
        · cases hw
          cases hflag
  | value pv around =>
    cases plugin with
    | stopped => exact h
    | failed => exact h
    | watching w =>
      simp only [step]
      cases hpos : positionOf pv with
      | none =>
        have hcheck : w.check pv = (w, none) := by simp only [Watch.check, hpos]
        rw [hcheck]
        exact h
      | some pos =>
        have hchecks := checks (w := w) hpos
        generalize w.check pv = r at hchecks ⊢
        cases hchecks with
        | alarmed hout hflag =>
          obtain ⟨hstored, hsource⟩ := stored_of_raise around
            (notification (w.distance pos) w.config.radius true)
            (.watching { w with alarming := true }) (some pos) h.own_source
          refine ⟨fun w' hw' => ?_, fun w' hw' _ => hstored, fun sv hsv => ⟨hsource sv hsv, .inl hstored⟩⟩
          cases hw'
          exact hout.symm
        | cleared hout hflag =>
          obtain ⟨hstored, hsource⟩ := stored_of_raise around
            (notification (w.distance pos) w.config.radius false)
            (.watching { w with alarming := false }) (some pos) h.own_source
          refine ⟨fun w' hw' => ?_, fun w' hw' hon => ?_, fun sv hsv => ⟨hsource sv hsv, .inr hstored⟩⟩
          · cases hw'
            exact hout.symm
          · cases hw'
            cases hon
        | kept hflag =>
          refine ⟨fun w' hw' => ?_, fun w' hw' hon => ?_, h.own⟩
          · cases hw'
            exact hflag
          · cases hw'
            exact h.stands w rfl hon

/-- With the flag as it is, all that can go wrong is an alarm that stands inside. -/
theorem Flagged.shows_iff (h : Flagged s) : Shows s ↔
    ∀ w pos, s.plugin = .watching w → s.last = some pos → w.isOutside pos = false →
      s.stored ≠ some .alarm := by
  constructor
  · intro hs w pos hw hpos hin hstored
    have hout := (hs w hw pos hpos).1.mp hstored
    exact nomatch hout.symm.trans hin
  · intro hs w hw pos hpos
    have hflag : w.alarming = w.isOutside pos := by
      rw [h.flag w hw, hpos]
      rfl
    refine ⟨⟨fun hstored => ?_, fun hout => h.stands w hw (hflag.trans hout)⟩, fun hin => ?_⟩
    · by_contra hin
      exact hs w pos hw hpos (Bool.not_eq_true _ ▸ hin) hstored
    · cases hget : s.server.store.getSelfPath raiser.storePath with
      | none => exact .inl rfl
      | some sv => exact .inr ((h.own sv hget).2.resolve_left (hs w pos hw hpos hin))

/-- A step keeps what is owed exactly when no first position inside finds an alarm. -/
theorem shows_step_iff (h : Flagged s) (hs : Shows s) (e : AnchorEvent) :
    Shows (s.step e).1 ↔ Dragging s e := by
  rw [(flagged_step h e).shows_iff]
  rw [h.shows_iff] at hs
  obtain ⟨plugin, server, last⟩ := s
  have hquiet : (∀ pv around, e ≠ .value pv around) → Dragging ⟨plugin, server, last⟩ e :=
    fun hne w pv around pos _ he => absurd he (hne pv around)
  cases e with
  | stop =>
    refine ⟨fun _ => hquiet fun _ _ => (nomatch ·), fun _ => ?_⟩
    cases plugin with
    | watching w => exact fun _ _ hw => nomatch hw
    | stopped => exact hs
    | failed => exact hs
  | start config =>
    refine ⟨fun _ => hquiet fun _ _ => (nomatch ·), fun _ => ?_⟩
    cases plugin with
    | watching w => exact hs
    | failed => exact hs
    | stopped => exact fun _ _ _ hpos => nomatch hpos
  | value pv around =>
    cases plugin with
    | stopped => exact ⟨fun _ _ _ _ _ hw => (nomatch hw), fun _ => hs⟩
    | failed => exact ⟨fun _ _ _ _ _ hw => (nomatch hw), fun _ => hs⟩
    | watching w =>
      simp only [step]
      cases hpos : positionOf pv with
      | none =>
        have hcheck : w.check pv = (w, none) := by simp only [Watch.check, hpos]
        rw [hcheck]
        refine ⟨fun _ w' pv' around' pos' _ he hpos' => ?_, fun _ => hs⟩
        cases he
        exact nomatch hpos.symm.trans hpos'
      | some pos =>
        have hflag := h.flag w rfl
        simp only at hflag
        have hchecks := checks (w := w) hpos
        generalize w.check pv = r at hchecks ⊢
        cases hchecks with
        | alarmed hout hoff =>
          constructor
          · intro _ w' pv' around' pos' hw' he hpos' _ _
            cases he
            cases hw'
            obtain rfl := Option.some.inj (hpos.symm.trans hpos')
            exact hout
          · intro _ w' pos' hw' hpos' hin
            cases hw'
            cases hpos'
            exact nomatch hout.symm.trans hin
        | cleared hin hon =>
          obtain ⟨hstored, -⟩ := stored_of_raise around
            (notification (w.distance pos) w.config.radius false)
            (.watching { w with alarming := false }) (some pos) h.own_source
          constructor
          · -- the flag is set, so this is not the first position
            intro _ w' pv' around' pos' hw' _ _ hlast
            cases hw'
            obtain rfl : last = none := hlast
            exact nomatch hon.symm.trans hflag
          · intro _ w' pos' _ _ _ halarm
            exact nomatch hstored.symm.trans halarm
        | kept hsame =>
          constructor
          · intro hnext w' pv' around' pos' hw' he hpos' hlast hstored
            cases hw'
            cases he
            obtain rfl := Option.some.inj (hpos.symm.trans hpos')
            by_contra hin
            exact hnext w pos rfl rfl (Bool.not_eq_true _ ▸ hin) hstored
          · intro hd w' pos' hw' hpos' hin hstored
            cases hw'
            cases hpos'
            cases hlast : last with
            | none =>
              have hout := hd w pv around pos rfl rfl hpos hlast hstored
              exact nomatch hout.symm.trans hin
            | some before =>
              -- inside now, and so was the last position
              rw [hlast, hsame, hin] at hflag
              exact hs w before rfl hlast hflag.symm hstored

/-- In every state of a run the store shows the last position, exactly when no position
that is the first after a start and inside of the radius finds an alarm. -/
theorem shows_last_position (server : ServerState)
    (hnew : server.store.getSelfPath raiser.storePath = none) (es : List AnchorEvent) :
    (∀ fs, fs <+: es → Shows (Machine.run step (begin server) fs)) ↔
      Machine.Meets step Dragging (begin server) es := by
  have hflagged : ∀ fs, Flagged (Machine.run step (begin server) fs) := by
    intro fs
    have hstep : ∀ s e, Flagged s → True → Flagged (step s e).1 := fun _ e h _ => flagged_step h e
    have hstart : Flagged (begin server) := ⟨fun _ hw => (nomatch hw), fun _ hw => (nomatch hw),
      fun sv hsv => (nomatch hnew.symm.trans hsv)⟩
    exact Machine.run_inv hstep hstart (Machine.meets_true _ _ fs)
  have hbegin : Shows (begin server) := fun _ hw => nomatch hw
  constructor
  · intro h
    refine Machine.meets_iff_prefix.mpr fun fs e hfs => ?_
    have hbefore := h fs ((List.prefix_append fs [e]).trans hfs)
    have hafter := h (fs ++ [e]) hfs
    rw [Machine.run_append] at hafter
    exact (shows_step_iff (hflagged fs) hbefore e).mp hafter
  · rintro h fs ⟨gs, rfl⟩
    have hstep : ∀ s e, Flagged s ∧ Shows s → Dragging s e →
        Flagged (step s e).1 ∧ Shows (step s e).1 := fun _ e hs hd =>
      ⟨flagged_step hs.1 e, (shows_step_iff hs.1 hs.2 e).mpr hd⟩
    exact (Machine.run_inv hstep ⟨hflagged [], hbegin⟩ (Machine.meets_append.mp h).1).2

end AnchorWatch

namespace AnchorWatch

/-- Along a meridian, with whole meters. -/
@[reducible] def meridian : DistanceMath where
  haversineMeters lat1 _ lat2 _ := .finite (|lat2 - lat1| * 111195)
  rounded
    | .finite q => toString ⌊q + 1 / 2⌋.toNat
    | _ => ""

attribute [local instance] meridian JsonText.unused

def anchoredAt (radius : ℚ) : Json :=
  .ofFields [("position", .ofFields [("latitude", .ofF64 49), ("longitude", .ofF64 (-123))]),
    ("radius", .ofF64 radius)]

/-- One degree to the north of the anchor. -/
def adrift : AnchorEvent :=
  .value ⟨"navigation.position",
      .ofFields [("latitude", .ofF64 50), ("longitude", .ofF64 (-123))]⟩
    { timestamp := 1704067200, clock := fun _ => 1704067200, uuids := fun _ => "a" }

def newServer : ServerState := ⟨.new "urn:mrn:signalk:uuid:1", ∅⟩

/-- The plugin is started again, with another radius, while the vessel is adrift. -/
def restarted (radius : ℚ) : List AnchorEvent :=
  [.start (anchoredAt 50), adrift, .stop, .start (anchoredAt radius)]

/-- Adrift before the restart and after it. -/
theorem shows_last_position_adrift :
    Shows (Machine.run step (begin newServer) (restarted 75 ++ [adrift])) := by
  have hnorth : positionOf ⟨"navigation.position",
      .ofFields [("latitude", .ofF64 50), ("longitude", .ofF64 (-123))]⟩ = some ⟨50, -123⟩ := by
    decide +kernel
  refine (shows_last_position newServer (by decide +kernel) _).mpr ?_ _ (List.prefix_refl _)
  refine ⟨?_, ?_, ?_, ?_, ?_, trivial⟩
  · exact fun _ _ _ _ _ he => nomatch he
  · intro w pv around pos hw he hpos _ _
    cases he
    have hwatch : (Machine.run step (begin newServer) [.start (anchoredAt 50)]).plugin =
        .watching ⟨⟨⟨49, -123⟩, 50⟩, false⟩ := by
      decide +kernel
    obtain rfl := AnchorPlugin.watching.inj (hw.symm.trans hwatch)
    obtain rfl := Option.some.inj (hnorth.symm.trans hpos)
    decide +kernel
  · exact fun _ _ _ _ _ he => nomatch he
  · exact fun _ _ _ _ _ he => nomatch he
  · intro w pv around pos hw he hpos _ _
    cases he
    have hwatch : (Machine.run step (begin newServer) (restarted 75)).plugin =
        .watching ⟨⟨⟨49, -123⟩, 75⟩, false⟩ := by
      decide +kernel
    obtain rfl := AnchorPlugin.watching.inj (hw.symm.trans hwatch)
    obtain rfl := Option.some.inj (hnorth.symm.trans hpos)
    decide +kernel

/-- The vessel lies inside of the new radius, and the alarm of the old one stands. -/
theorem alarm_outlives_restart :
    ¬∀ fs, fs <+: restarted 200000 ++ [adrift] →
      Shows (Machine.run step (begin newServer) fs) := by
  intro h
  have hend := h _ (List.prefix_refl _)
  have hwatch : (Machine.run step (begin newServer) (restarted 200000 ++ [adrift])).plugin =
      .watching ⟨⟨⟨49, -123⟩, 200000⟩, false⟩ := by
    decide +kernel
  have hlast : (Machine.run step (begin newServer) (restarted 200000 ++ [adrift])).last =
      some ⟨50, -123⟩ := by
    decide +kernel
  have hstored : (Machine.run step (begin newServer) (restarted 200000 ++ [adrift])).stored =
      some .alarm := by
    decide +kernel
  have hout := (hend _ hwatch _ hlast).1.mp hstored
  revert hout
  decide +kernel

end AnchorWatch

end SignalK.AnchorAlarm

import SignalK.Lib.Topics
import SignalK.Plugins.Bridge
import SignalK.Ws.Connection

/-! The streams of values in the bridge: one WebSocket to the server, opened again after it was
closed, from which the values go to a bus for every path. -/
namespace SignalK.StreamBundle
open Topics (Listener Board)

/-! A WebSocket and the two programs at its ends. -/

inductive ReadyState where
  | connecting
  | opened
  | closing
  | closed
  deriving DecidableEq

/-- A WebSocket with what is under way on it. A message that is no delta is `none`, such as the
first one of the server. -/
structure Link where
  readyState : ReadyState
  subscriptions : Subscriptions
  toServer : List InboundMessage
  toClient : List (Option Delta)

namespace Link

/-- The client asks for `subscribe=none`. -/
def new : Link :=
  ⟨.connecting, initialSubscriptions .none, [], [none]⟩

/-- `ws.close()`: the event of the closing comes later. -/
def close (l : Link) : Link :=
  match l.readyState with
  | .connecting | .opened => { l with readyState := .closing }
  | .closing | .closed => l

/-- The next message for the client, which may still come after `ws.close()`. -/
def arriving (l : Link) : Option (Option Delta) :=
  if l.readyState = .opened ∨ l.readyState = .closing then l.toClient.head? else none

/-- The server filters a delta for its client. -/
def broadcast (order : List String) (clock : Nat → Reading) (delta : Delta) (l : Link) : Link :=
  if l.readyState = .closed then l
  else
    let r := filterDelta order clock l.subscriptions delta
    { l with subscriptions := r.1, toClient := l.toClient ++ r.2.map some }

/-- The server handles a message of the client. -/
def handle (l : Link) : Link :=
  { l with
    subscriptions := handleClientMessage l.toServer.head? l.subscriptions
    toServer := l.toServer.tail }

end Link

/-- The object of the source, the streams it has handed out, its sockets and timers. An active
stream is one of the bus of its path. -/
structure BundleState where
  buses : Finset String
  latest : HashMap String Json
  ws : Option Nat
  connected : Bool
  reconnectTimer : Option Nat
  streams : List (Listener String Json)
  links : List Link
  timers : List Nat
  nextTimer : Nat

/-- What can be seen from outside. -/
inductive Sign where
  | opened
  | pushed (path : String) (value : Json) (context : Option String)
  | threw

inductive BundleEvent where
  | start
  | stop
  | wsOpen (i : Nat)
  | wsMessage (i : Nat)
  | wsClose (i : Nat)
  | wsError (i : Nat)
  | timer (t : Nat)
  | getSelfStream (path : String)
  | getSelfBus (path : String)
  | broadcast (i : Nat) (order : List String) (clock : Nat → Reading) (delta : Delta)
  | handle (i : Nat)

namespace BundleState

def new : BundleState where
  buses := ∅
  latest := ∅
  ws := none
  connected := false
  reconnectTimer := none
  streams := []
  links := []
  timers := []
  nextTimer := 0

def modifyLink (s : BundleState) (i : Nat) (f : Link → Link) : BundleState :=
  { s with links := s.links.modify i f }

def readyState (s : BundleState) (i : Nat) : Option ReadyState :=
  s.links[i]?.map (·.readyState)

def connect (s : BundleState) : BundleState × List Sign :=
  ({ s with ws := some s.links.length, links := s.links ++ [Link.new] }, [.opened])

/-- `clearTimeout` -/
def clearTimeout (s : BundleState) (t : Nat) : BundleState :=
  { s with timers := s.timers.filter (· ≠ t) }

/-- The timer that is remembered is cleared, the last socket is closed, and every bus ends. -/
def stop (s : BundleState) : BundleState :=
  let s := s.reconnectTimer.elim s s.clearTimeout
  let s := s.ws.elim s fun i => s.modifyLink i Link.close
  { s with
    reconnectTimer := none
    ws := none
    streams := s.streams.map fun l =>
      { l with active := l.active && decide (l.topic ∉ s.buses) }
    buses := ∅
    latest := ∅
    connected := false }

def getOrCreateBus (s : BundleState) (path : String) : BundleState :=
  { s with buses := insert path s.buses }

/-- The stream begins with the value that is known, and goes on with the bus. -/
def getSelfStream (s : BundleState) (path : String) : BundleState :=
  { s.getOrCreateBus path with
    streams := s.streams ++ [⟨path, true, (s.latest.lookup path).toList⟩] }

/-- The subscription goes to the socket that was opened last. -/
def onOpen (s : BundleState) : BundleState × List Sign :=
  let s := { s with connected := true }
  match s.ws with
  | none => (s, [.threw])
  | some j =>
    if s.readyState j = some .opened then
      (s.modifyLink j fun l =>
        { l with toServer := l.toServer ++
          [.subscribe ⟨"vessels.self", [Subscription.ofPath "**"]⟩] }, [])
    else if s.readyState j = some .connecting then (s, [.threw])
    else (s, [])

def onClose (s : BundleState) : BundleState :=
  { s with
    connected := false
    reconnectTimer := some s.nextTimer
    timers := s.timers ++ [s.nextTimer]
    nextTimer := s.nextTimer + 1 }

end BundleState

/-- The values of a delta that have a path, as they are after `JSON.parse`. -/
def valuesOf (d : Delta) : List (String × Json) :=
  (d.pathValues.filter fun pv => pv.path ≠ "").map fun pv =>
    (pv.path, pv.value.mapNumbers Number.asF64)

namespace BundleState

/-- One value of a delta in this context. -/
def push (context : Option String) (s : BundleState) (e : String × Json) :
    BundleState × List Sign :=
  let s := { s with latest := s.latest.insert e.1 e.2 }
  if e.1 ∈ s.buses then
    ({ s with streams := s.streams.map (·.hear e) }, [.pushed e.1 e.2 context])
  else (s, [])

/-- The context of the delta is not looked at. -/
def processDelta (s : BundleState) (d : Delta) : BundleState × List Sign :=
  Machine.exec (push d.context) s (valuesOf d)

def arriving (s : BundleState) (i : Nat) : Option (Option Delta) :=
  s.links[i]?.bind Link.arriving

/-- An event that cannot come changes nothing. -/
def step (s : BundleState) : BundleEvent → BundleState × List Sign
  | .start => s.connect
  | .stop => (s.stop, [])
  | .wsOpen i =>
    if s.readyState i = some .connecting then
      (s.modifyLink i fun l => { l with readyState := .opened }).onOpen
    else (s, [])
  | .wsMessage i =>
    match s.arriving i with
    | none => (s, [])
    | some message =>
      let s := s.modifyLink i fun l => { l with toClient := l.toClient.tail }
      message.elim (s, []) s.processDelta
  | .wsClose i =>
    if s.readyState i = none ∨ s.readyState i = some .closed then (s, [])
    else ((s.modifyLink i fun l => { l with readyState := .closed }).onClose, [])
  | .wsError _ => (s, [])
  | .timer t => if t ∈ s.timers then (s.clearTimeout t).connect else (s, [])
  | .getSelfStream path => (s.getSelfStream path, [])
  | .getSelfBus path => (s.getOrCreateBus path, [])
  | .broadcast i order clock delta => (s.modifyLink i (·.broadcast order clock delta), [])
  | .handle i => (s.modifyLink i Link.handle, [])

end BundleState

/-! What was to be seen. -/

/-- The delta is of the own vessel. -/
def Own (selfUri : String) (d : Delta) : Prop :=
  resolveContext selfUri d.context = "vessels." ++ selfUri

instance (selfUri : String) (d : Delta) : Decidable (Own selfUri d) :=
  inferInstanceAs (Decidable (_ = _))

/-- The delta that an event brings. -/
def delivered (s : BundleState) : BundleEvent → Option Delta
  | .wsMessage i => (s.arriving i).join
  | _ => none

/-- What an event means for those who listen to the own vessel's values, when the bundle is
started or not. -/
def meaning (selfUri : String) (s : BundleState) (running : Bool) (e : BundleEvent) :
    Option (Topics.Act String Json) :=
  match e with
  | .stop => some .hush
  | .getSelfStream path => some (.listen path)
  | _ =>
    ((delivered s e).filter fun d => Own selfUri d).map fun d => .tell running (valuesOf d)

def runningAfter (running : Bool) : BundleEvent → Bool
  | .start => true
  | .stop => false
  | _ => running

/-- A run with what the streams were to hear, and everything that was seen, with whether the
bundle was started at the time. -/
structure Watched where
  state : BundleState
  board : Board String Json
  running : Bool
  signs : List (Bool × Sign)

namespace Watched

def start : Watched :=
  ⟨BundleState.new, ⟨[], []⟩, false, []⟩

def step (selfUri : String) (w : Watched) (e : BundleEvent) : Watched × List Empty :=
  ({ state := (w.state.step e).1
     board := (meaning selfUri w.state w.running e).elim w.board w.board.act
     running := runningAfter w.running e
     signs := w.signs ++ (w.state.step e).2.map fun sign => (runningAfter w.running e, sign) }, [])

end Watched

/-- A socket is opened and a value pushed only between start and stop, and the value is one of the
own vessel. -/
def Sign.Fair (selfUri : String) (running : Bool) : Sign → Prop
  | .opened => running = true
  | .pushed _ _ context =>
    running = true ∧ resolveContext selfUri context = "vessels." ++ selfUri
  | .threw => True

/-- Every stream has yielded the latest value of the own vessel and then all later ones, a stream
that is asked for now would begin rightly, and nothing is pending after a stop. -/
structure Watched.Good (selfUri : String) (w : Watched) : Prop where
  streams : w.state.streams = w.board.listeners
  latest : ∀ path, w.state.latest.lookup path = Topics.latest w.board.told path
  timers : w.running = false → w.state.timers = []
  signs : ∀ x ∈ w.signs, x.2.Fair selfUri x.1

/-- Between stop and start no socket closes and no value comes for a bus, no timer but the last is
pending when the bundle is stopped, and deltas of other vessels bring nothing new. -/
def Watched.Careful (selfUri : String) (w : Watched) : BundleEvent → Prop
  | .stop => ∀ t ∈ w.state.timers, w.state.reconnectTimer = some t
  | .wsClose i =>
    w.state.readyState i ≠ none → w.state.readyState i ≠ some .closed → w.running = true
  | .wsMessage i => ∀ d, delivered w.state (.wsMessage i) = some d →
      w.running = true ∧ Own selfUri d ∨
      (∀ e ∈ valuesOf d, e.1 ∉ w.state.buses) ∧
        (Own selfUri d ∨ ∀ path v, Topics.latest (valuesOf d) path = some v →
          w.state.latest.lookup path = some v)
  | _ => True

/-- An active stream is one of a bus. -/
def OnBuses (s : BundleState) : Prop :=
  ∀ l ∈ s.streams, l.active = true → l.topic ∈ s.buses

/-! What a delta does. -/

theorem push_eq {s : BundleState} (h : OnBuses s) (context : Option String)
    (e : String × Json) :
    s.push context e =
      ({ s with latest := s.latest.insert e.1 e.2, streams := s.streams.map (·.hear e) },
        if e.1 ∈ s.buses then [.pushed e.1 e.2 context] else []) := by
  rw [BundleState.push]
  by_cases hbus : e.1 ∈ s.buses
  · simp only [if_pos hbus]
  · have hhear : s.streams.map (·.hear e) = s.streams := by
      refine (List.map_congr_left fun l hl => ?_).trans (List.map_id s.streams)
      exact Listener.hear_of_ne fun hactive heq => hbus (heq ▸ h l hl hactive)
    simp only [if_neg hbus, hhear]

theorem exec_push {s : BundleState} (h : OnBuses s) (context : Option String)
    (es : List (String × Json)) :
    Machine.exec (BundleState.push context) s es =
      ({ s with
          latest := es.foldl (fun m e => m.insert e.1 e.2) s.latest
          streams := s.streams.map (·.hearAll es) },
        (es.filter fun e => e.1 ∈ s.buses).map fun e => .pushed e.1 e.2 context) := by
  induction es generalizing s with
  | nil =>
    have hid : s.streams.map (·.hearAll []) = s.streams := List.map_id s.streams
    rw [hid]
    rfl
  | cons e es ih =>
    have hnext : OnBuses { s with
        latest := s.latest.insert e.1 e.2, streams := s.streams.map (·.hear e) } := by
      intro l hl hactive
      obtain ⟨l', hl', rfl⟩ := List.mem_map.mp hl
      rw [Listener.active_hear] at hactive
      rw [Listener.topic_hear]
      exact h l' hl' hactive
    have hall : (s.streams.map (·.hear e)).map (·.hearAll es) =
        s.streams.map (·.hearAll (e :: es)) := by
      rw [List.map_map]
      rfl
    rw [Machine.exec, push_eq h, ih hnext, hall, List.filter_cons]
    by_cases hbus : e.1 ∈ s.buses <;> simp [hbus]

/-- The map of the values that are known. -/
theorem lookup_foldl (es : List (String × Json)) (m : HashMap String Json) (path : String) :
    (es.foldl (fun m e => m.insert e.1 e.2) m).lookup path =
      (Topics.latest es path).or (m.lookup path) := by
  induction es using List.reverseRecOn with
  | nil => rfl
  | append_singleton es e ih =>
    rw [List.foldl_append, List.foldl_cons, List.foldl_nil, HashMap.lookup_insert,
      Topics.latest_concat, ih]
    split_ifs <;> rfl

theorem hearAll_of_notMem {buses : Finset String} {es : List (String × Json)}
    (h : ∀ e ∈ es, e.1 ∉ buses) {l : Listener String Json}
    (hl : l.active = true → l.topic ∈ buses) : l.hearAll es = l := by
  cases hactive : l.active with
  | false =>
    induction es with
    | nil => rfl
    | cons e es ih =>
      have hhear : l.hear e = l := Listener.hear_of_ne fun hc => by simp [hactive] at hc
      rw [Listener.hearAll, List.foldl_cons, hhear]
      exact ih fun f hf => h f (List.mem_cons_of_mem e hf)
  | true =>
    have hon : Topics.on l.topic es = [] := by
      simp only [Topics.on, List.map_eq_nil_iff, List.filter_eq_nil_iff, decide_eq_true_eq]
      intro e he heq
      exact h e he (heq ▸ hl hactive)
    rw [Listener.hearAll_active hactive, hon, List.append_nil]

/-! One step. -/

section
variable {selfUri : String} {w : Watched}

theorem good_step (hg : w.Good selfUri) (e : BundleEvent) :
    (w.step selfUri e).1.Good selfUri ↔
      (w.state.step e).1.streams =
        ((meaning selfUri w.state w.running e).elim w.board w.board.act).listeners ∧
      (∀ path, (w.state.step e).1.latest.lookup path =
        Topics.latest ((meaning selfUri w.state w.running e).elim w.board w.board.act).told path) ∧
      (runningAfter w.running e = false → (w.state.step e).1.timers = []) ∧
      ∀ sign ∈ (w.state.step e).2, sign.Fair selfUri (runningAfter w.running e) := by
  constructor
  · intro h
    refine ⟨h.streams, h.latest, h.timers, fun sign hsign => ?_⟩
    exact h.signs _ (List.mem_append_right _ (List.mem_map.mpr ⟨sign, hsign, rfl⟩))
  · rintro ⟨hstreams, hlatest, htimers, hsigns⟩
    refine ⟨hstreams, hlatest, htimers, fun x hx => ?_⟩
    cases List.mem_append.mp hx with
    | inl hx => exact hg.signs x hx
    | inr hx =>
      obtain ⟨sign, hsign, rfl⟩ := List.mem_map.mp hx
      exact hsigns sign hsign

/-- An event that means nothing for the streams. -/
theorem good_of_same (hg : w.Good selfUri) {e : BundleEvent}
    (hmeaning : meaning selfUri w.state w.running e = none)
    (hstreams : (w.state.step e).1.streams = w.state.streams)
    (hlatest : (w.state.step e).1.latest = w.state.latest)
    (htimers : runningAfter w.running e = false → (w.state.step e).1.timers = [])
    (hsigns : ∀ sign ∈ (w.state.step e).2, sign.Fair selfUri (runningAfter w.running e)) :
    (w.step selfUri e).1.Good selfUri := by
  rw [good_step hg, hmeaning, hstreams, hlatest]
  exact ⟨hg.streams, hg.latest, htimers, hsigns⟩

/-- Every stream ends. -/
theorem streams_stop {s : BundleState} (hbuses : OnBuses s) :
    s.stop.streams = s.streams.map fun l => { l with active := false } := by
  have hmap : s.stop.streams = s.streams.map fun l =>
      { l with active := l.active && decide (l.topic ∉ s.buses) } := by
    cases hr : s.reconnectTimer <;> cases hw : s.ws <;>
      simp [BundleState.stop, hr, hw, BundleState.clearTimeout, BundleState.modifyLink]
  rw [hmap]
  apply List.map_congr_left
  intro l hl
  cases hactive : l.active with
  | false => simp
  | true => simp [hbuses l hl hactive]

theorem good_stop_iff (hbuses : OnBuses w.state) (hg : w.Good selfUri) :
    (w.step selfUri .stop).1.Good selfUri ↔
      ∀ t ∈ w.state.timers, w.state.reconnectTimer = some t := by
  have htimers : w.state.stop.timers =
      w.state.timers.filter fun t => w.state.reconnectTimer ≠ some t := by
    cases hr : w.state.reconnectTimer <;> cases hw : w.state.ws <;>
      simp [BundleState.stop, hr, hw, BundleState.clearTimeout, BundleState.modifyLink, eq_comm]
  have hstreams := streams_stop hbuses
  rw [good_step hg]
  constructor
  · rintro ⟨-, -, hnone, -⟩ t ht
    have hempty : w.state.stop.timers = [] := hnone rfl
    rw [htimers, List.filter_eq_nil_iff] at hempty
    simpa using hempty t ht
  · intro hlast
    refine ⟨?_, fun path => ?_, fun _ => ?_, fun sign hsign => by cases hsign⟩
    · change w.state.stop.streams = _
      rw [hstreams, hg.streams]
      rfl
    · change w.state.stop.latest.lookup path = _
      exact Finmap.lookup_empty path
    · change w.state.stop.timers = []
      rw [htimers, List.filter_eq_nil_iff]
      intro t ht
      simp [hlast t ht]

/-- What the message of a delta does. -/
theorem step_wsMessage (hbuses : OnBuses w.state) {i : Nat} {d : Delta}
    (h : w.state.arriving i = some (some d)) :
    (w.state.step (.wsMessage i)).1.streams = w.state.streams.map (·.hearAll (valuesOf d)) ∧
    (∀ path, (w.state.step (.wsMessage i)).1.latest.lookup path =
      (Topics.latest (valuesOf d) path).or (w.state.latest.lookup path)) ∧
    (w.state.step (.wsMessage i)).1.timers = w.state.timers ∧
    (w.state.step (.wsMessage i)).1.buses = w.state.buses ∧
    (w.state.step (.wsMessage i)).2 =
      ((valuesOf d).filter fun e => e.1 ∈ w.state.buses).map fun e =>
        .pushed e.1 e.2 d.context := by
  have hstep : w.state.step (.wsMessage i) =
      (w.state.modifyLink i fun l => { l with toClient := l.toClient.tail }).processDelta d := by
    simp only [BundleState.step, h, Option.elim_some]
  have hlink : OnBuses (w.state.modifyLink i fun l => { l with toClient := l.toClient.tail }) :=
    hbuses
  rw [hstep, BundleState.processDelta, exec_push hlink]
  exact ⟨rfl, fun path => lookup_foldl _ _ path, rfl, rfl, rfl⟩

/-- A message that is no delta, or none. -/
theorem step_wsMessage_none {i : Nat} (h : delivered w.state (.wsMessage i) = none) :
    (w.state.step (.wsMessage i)).1.streams = w.state.streams ∧
    (w.state.step (.wsMessage i)).1.latest = w.state.latest ∧
    (w.state.step (.wsMessage i)).1.timers = w.state.timers ∧
    (w.state.step (.wsMessage i)).1.buses = w.state.buses ∧
    (w.state.step (.wsMessage i)).2 = [] := by
  cases harriving : w.state.arriving i with
  | none => simp [BundleState.step, harriving]
  | some message =>
    rw [delivered, harriving] at h
    obtain rfl : message = none := h
    simp only [BundleState.step, harriving]
    exact ⟨rfl, rfl, rfl, rfl, rfl⟩

theorem good_wsMessage_iff (hbuses : OnBuses w.state) (hg : w.Good selfUri) (i : Nat) :
    (w.step selfUri (.wsMessage i)).1.Good selfUri ↔ w.Careful selfUri (.wsMessage i) := by
  cases hdelta : delivered w.state (.wsMessage i) with
  | none =>
    obtain ⟨hstreams, hlatest, htimers, -, hsigns⟩ := step_wsMessage_none hdelta
    refine iff_of_true (good_of_same hg ?_ hstreams hlatest (fun hr => ?_) ?_) ?_
    · simp [meaning, hdelta]
    · rw [htimers]
      exact hg.timers hr
    · rw [hsigns]
      intro sign hsign
      cases hsign
    · intro d hd
      rw [hdelta] at hd
      cases hd
  | some d =>
    have harriving : w.state.arriving i = some (some d) := Option.join_eq_some_iff.mp hdelta
    obtain ⟨hstreams, hlatest, htimers, -, hsigns⟩ := step_wsMessage hbuses harriving
    have hmeaning : meaning selfUri w.state w.running (.wsMessage i) =
        if Own selfUri d then some (.tell w.running (valuesOf d)) else none := by
      by_cases hown : Own selfUri d <;> simp [meaning, hdelta, hown, Option.filter]
    have hrunning : runningAfter w.running (.wsMessage i) = w.running := rfl
    have hcareful : w.Careful selfUri (.wsMessage i) ↔
        w.running = true ∧ Own selfUri d ∨
        (∀ e ∈ valuesOf d, e.1 ∉ w.state.buses) ∧
          (Own selfUri d ∨ ∀ path v, Topics.latest (valuesOf d) path = some v →
            w.state.latest.lookup path = some v) := by
      simp only [Watched.Careful, hdelta, Option.some.injEq, forall_eq']
    rw [good_step hg, hstreams, htimers, hsigns, hmeaning, hrunning, hcareful]
    simp only [hlatest]
    constructor
    · rintro ⟨-, hknown, -, hfair⟩
      by_cases hright : w.running = true ∧ Own selfUri d
      · exact .inl hright
      · refine .inr ⟨fun e he hbus => hright ?_, ?_⟩
        · exact hfair _ (List.mem_map.mpr ⟨e, by simp [he, hbus], rfl⟩)
        · by_cases hown : Own selfUri d
          · exact .inl hown
          · refine .inr fun path v hv => ?_
            have hpath := hknown path
            rw [if_neg hown, hv, Option.elim_none, ← hg.latest path] at hpath
            exact hpath.symm
    · rintro (⟨hrun, hown⟩ | ⟨hnone, hnew⟩)
      · rw [if_pos hown, hg.streams]
        refine ⟨by simp [Board.act, hrun], fun path => ?_, fun hr => by simp [hrun] at hr, ?_⟩
        · rw [hg.latest path]
          exact (Topics.latest_append _ _ _).symm
        · intro sign hsign
          obtain ⟨e, -, rfl⟩ := List.mem_map.mp hsign
          exact ⟨hrun, hown⟩
      · have hsame : w.state.streams.map (·.hearAll (valuesOf d)) = w.state.streams := by
          refine (List.map_congr_left fun l hl => ?_).trans (List.map_id _)
          exact hearAll_of_notMem hnone (hbuses l hl)
        have hpushed : ((valuesOf d).filter fun e => e.1 ∈ w.state.buses) = [] := by
          simpa using fun a b hab => hnone (a, b) hab
        rw [hsame, hpushed, hg.streams]
        refine ⟨?_, fun path => ?_, hg.timers, fun sign hsign => by cases hsign⟩
        · by_cases hown : Own selfUri d
          · rw [if_pos hown]
            cases hr : w.running with
            | false => rfl
            | true =>
              rw [hg.streams] at hsame
              exact hsame.symm
          · rw [if_neg hown]
            rfl
        · by_cases hown : Own selfUri d
          · rw [if_pos hown, hg.latest path]
            exact (Topics.latest_append _ _ _).symm
          · rw [if_neg hown, Option.elim_none, ← hg.latest path]
            cases hl : Topics.latest (valuesOf d) path with
            | none => rfl
            | some v => exact ((hnew.resolve_left hown) path v hl).symm

theorem good_wsClose_iff (hg : w.Good selfUri) (i : Nat) :
    (w.step selfUri (.wsClose i)).1.Good selfUri ↔ w.Careful selfUri (.wsClose i) := by
  have hmeaning : meaning selfUri w.state w.running (.wsClose i) = none := rfl
  by_cases hclosed : w.state.readyState i = none ∨ w.state.readyState i = some .closed
  · have hstep : w.state.step (.wsClose i) = (w.state, []) := by
      simp only [BundleState.step, if_pos hclosed]
    refine iff_of_true (good_of_same hg hmeaning ?_ ?_ ?_ ?_) ?_
    · rw [hstep]
    · rw [hstep]
    · rw [hstep]
      exact hg.timers
    · rw [hstep]
      intro sign hsign
      cases hsign
    · intro hnone hopen
      exact absurd hclosed (not_or.mpr ⟨hnone, hopen⟩)
  · have hstep : w.state.step (.wsClose i) =
        ((w.state.modifyLink i fun l => { l with readyState := .closed }).onClose, []) := by
      simp only [BundleState.step, if_neg hclosed]
    have hcareful : w.Careful selfUri (.wsClose i) ↔ w.running = true := by
      rw [not_or] at hclosed
      exact ⟨fun h => h hclosed.1 hclosed.2, fun h _ _ => h⟩
    rw [hcareful]
    constructor
    · intro h
      by_contra hstopped
      have hnone := h.timers (Bool.eq_false_iff.mpr hstopped)
      simp only [Watched.step, hstep, BundleState.onClose] at hnone
      simp at hnone
    · intro hrun
      refine good_of_same hg hmeaning ?_ ?_ (fun hr => ?_) ?_
      · rw [hstep]
        rfl
      · rw [hstep]
        rfl
      · exact absurd (hrun.symm.trans hr) (by decide)
      · rw [hstep]
        intro sign hsign
        cases hsign

theorem good_getSelfStream (hg : w.Good selfUri) (path : String) :
    (w.step selfUri (.getSelfStream path)).1.Good selfUri := by
  rw [good_step hg]
  refine ⟨?_, hg.latest, hg.timers, fun sign hsign => by cases hsign⟩
  change w.state.streams ++ [⟨path, true, (w.state.latest.lookup path).toList⟩] =
    w.board.listeners ++ [⟨path, true, (Topics.latest w.board.told path).toList⟩]
  rw [hg.streams, hg.latest path]

/-- Whoever has subscribed on a socket that opens, nobody sees anything. -/
theorem onOpen_same (s : BundleState) :
    s.onOpen.1.streams = s.streams ∧ s.onOpen.1.latest = s.latest ∧
      s.onOpen.1.timers = s.timers ∧ s.onOpen.1.buses = s.buses ∧
      ∀ sign ∈ s.onOpen.2, sign = .threw := by
  rw [BundleState.onOpen]
  cases hws : s.ws with
  | none => exact ⟨rfl, rfl, rfl, rfl, fun sign hsign => List.mem_singleton.mp hsign⟩
  | some j =>
    dsimp only
    split_ifs
    · exact ⟨rfl, rfl, rfl, rfl, fun sign hsign => by cases hsign⟩
    · exact ⟨rfl, rfl, rfl, rfl, fun sign hsign => List.mem_singleton.mp hsign⟩
    · exact ⟨rfl, rfl, rfl, rfl, fun sign hsign => by cases hsign⟩

theorem good_wsOpen (hg : w.Good selfUri) (i : Nat) :
    (w.step selfUri (.wsOpen i)).1.Good selfUri := by
  have hmeaning : meaning selfUri w.state w.running (.wsOpen i) = none := rfl
  by_cases hconnecting : w.state.readyState i = some .connecting
  · have hstep : w.state.step (.wsOpen i) =
        (w.state.modifyLink i fun l => { l with readyState := .opened }).onOpen := by
      simp only [BundleState.step, if_pos hconnecting]
    obtain ⟨hstreams, hlatest, htimers, -, hsigns⟩ :=
      onOpen_same (w.state.modifyLink i fun l => { l with readyState := .opened })
    rw [← hstep] at hstreams hlatest htimers hsigns
    refine good_of_same hg hmeaning hstreams hlatest (fun hr => ?_) fun sign hsign => ?_
    · rw [htimers]
      exact hg.timers hr
    · rw [hsigns sign hsign]
      trivial
  · have hstep : w.state.step (.wsOpen i) = (w.state, []) := by
      simp only [BundleState.step, if_neg hconnecting]
    refine good_of_same hg hmeaning ?_ ?_ ?_ ?_
    · rw [hstep]
    · rw [hstep]
    · rw [hstep]
      exact hg.timers
    · rw [hstep]
      intro sign hsign
      cases hsign

/-- A timer that is pending runs out while the bundle is started. -/
theorem good_timer (hg : w.Good selfUri) (t : Nat) :
    (w.step selfUri (.timer t)).1.Good selfUri := by
  have hmeaning : meaning selfUri w.state w.running (.timer t) = none := rfl
  by_cases ht : t ∈ w.state.timers
  · have hrun : w.running = true := by
      by_contra hstopped
      rw [hg.timers (Bool.eq_false_iff.mpr hstopped)] at ht
      cases ht
    have hstep : w.state.step (.timer t) = (w.state.clearTimeout t).connect := by
      simp only [BundleState.step, if_pos ht]
    refine good_of_same hg hmeaning ?_ ?_ (fun hr => ?_) fun sign hsign => ?_
    · rw [hstep]
      rfl
    · rw [hstep]
      rfl
    · exact absurd (hrun.symm.trans hr) (by decide)
    · rw [hstep] at hsign
      rw [List.mem_singleton.mp hsign]
      exact hrun
  · have hstep : w.state.step (.timer t) = (w.state, []) := by
      simp only [BundleState.step, if_neg ht]
    refine good_of_same hg hmeaning ?_ ?_ ?_ ?_
    · rw [hstep]
    · rw [hstep]
    · rw [hstep]
      exact hg.timers
    · rw [hstep]
      intro sign hsign
      cases hsign

/-- One step keeps the property exactly when it is careful. -/
theorem good_step_iff (hbuses : OnBuses w.state) (hg : w.Good selfUri) (e : BundleEvent) :
    (w.step selfUri e).1.Good selfUri ↔ w.Careful selfUri e := by
  cases e with
  | start =>
    refine iff_of_true (good_of_same hg rfl rfl rfl (fun hr => by cases hr) ?_) trivial
    intro sign hsign
    rw [List.mem_singleton.mp hsign]
    rfl
  | stop => exact good_stop_iff hbuses hg
  | wsOpen i => exact iff_of_true (good_wsOpen hg i) trivial
  | wsMessage i => exact good_wsMessage_iff hbuses hg i
  | wsClose i => exact good_wsClose_iff hg i
  | timer t => exact iff_of_true (good_timer hg t) trivial
  | getSelfStream path => exact iff_of_true (good_getSelfStream hg path) trivial
  | wsError _ | getSelfBus _ | broadcast _ _ _ _ | handle _ =>
    refine iff_of_true (good_of_same hg rfl rfl rfl hg.timers ?_) trivial
    intro sign hsign
    cases hsign

/-- The streams of a step, and the buses that they need. -/
theorem onBuses_step (hbuses : OnBuses w.state) (e : BundleEvent) :
    OnBuses (w.step selfUri e).1.state := by
  change OnBuses (w.state.step e).1
  cases e with
  | stop =>
    intro l hl hactive
    have hstreams : (w.state.step .stop).1.streams =
        w.state.streams.map fun l => { l with active := false } := streams_stop hbuses
    rw [hstreams] at hl
    obtain ⟨l', -, rfl⟩ := List.mem_map.mp hl
    cases hactive
  | getSelfStream path =>
    intro l hl hactive
    cases List.mem_append.mp hl with
    | inl hl => exact Finset.mem_insert_of_mem (hbuses l hl hactive)
    | inr hl =>
      rw [List.mem_singleton.mp hl]
      exact Finset.mem_insert_self path _
  | getSelfBus path =>
    exact fun l hl hactive => Finset.mem_insert_of_mem (hbuses l hl hactive)
  | wsMessage i =>
    cases hdelta : delivered w.state (.wsMessage i) with
    | none =>
      obtain ⟨hstreams, -, -, hsame, -⟩ := step_wsMessage_none hdelta
      intro l hl hactive
      rw [hstreams] at hl
      rw [hsame]
      exact hbuses l hl hactive
    | some d =>
      obtain ⟨hstreams, -, -, hsame, -⟩ :=
        step_wsMessage hbuses (Option.join_eq_some_iff.mp hdelta)
      intro l hl hactive
      rw [hstreams] at hl
      obtain ⟨l', hl', rfl⟩ := List.mem_map.mp hl
      rw [Listener.active_hearAll] at hactive
      rw [hsame, Listener.topic_hearAll]
      exact hbuses l' hl' hactive
  | wsOpen i =>
    rw [BundleState.step]
    split_ifs
    · obtain ⟨hstreams, -, -, hsame, -⟩ :=
        onOpen_same (w.state.modifyLink i fun l => { l with readyState := .opened })
      intro l hl hactive
      rw [hstreams] at hl
      rw [hsame]
      exact hbuses l hl hactive
    · exact hbuses
  | wsClose i =>
    rw [BundleState.step]
    split_ifs
    · exact hbuses
    · exact hbuses
  | timer t =>
    rw [BundleState.step]
    split_ifs
    · exact hbuses
    · exact hbuses
  | start | wsError _ | broadcast _ _ _ _ | handle _ => exact hbuses

end

theorem good_start (selfUri : String) : Watched.start.Good selfUri := by
  refine ⟨rfl, fun path => Finmap.lookup_empty path, fun _ => rfl, fun x hx => ?_⟩
  cases hx

/-- A run keeps the property exactly when every step is careful. -/
theorem good_run_iff (selfUri : String) (events : List BundleEvent) :
    (∀ fs, fs <+: events →
        (Machine.run (Watched.step selfUri) Watched.start fs).Good selfUri) ↔
      Machine.Meets (Watched.step selfUri) (fun w e => w.Careful selfUri e) Watched.start
        events := by
  have hinv : ∀ (w : Watched) e, OnBuses w.state → True → w.Good selfUri →
      (w.step selfUri e).1.Good selfUri → OnBuses (w.step selfUri e).1.state :=
    fun w e hbuses _ _ _ => onBuses_step hbuses e
  have hgood : ∀ (w : Watched) e, OnBuses w.state → True → w.Good selfUri →
      ((w.step selfUri e).1.Good selfUri ↔ w.Careful selfUri e) :=
    fun w e hbuses _ hg => good_step_iff hbuses hg e
  have hstart : OnBuses Watched.start.state := by
    intro l hl
    cases hl
  exact Machine.always_iff_meets hinv hgood hstart (good_start selfUri) fun _ _ => trivial

/-- What the events of a run mean, in order. -/
def acts (selfUri : String) : Watched → List BundleEvent → List (Topics.Act String Json)
  | _, [] => []
  | w, e :: es =>
    (meaning selfUri w.state w.running e).toList ++ acts selfUri (w.step selfUri e).1 es

theorem board_run (selfUri : String) (w : Watched) (es : List BundleEvent) :
    (Machine.run (Watched.step selfUri) w es).board =
      (acts selfUri w es).foldl Board.act w.board := by
  induction es generalizing w with
  | nil => rfl
  | cons e es ih =>
    have hboard : (w.step selfUri e).1.board =
        (meaning selfUri w.state w.running e).toList.foldl Board.act w.board := by
      change (meaning selfUri w.state w.running e).elim w.board w.board.act = _
      cases meaning selfUri w.state w.running e <;> rfl
    rw [acts, List.foldl_append, ← hboard]
    exact ih _

theorem hush_notMem_acts {selfUri : String} {w : Watched} {es : List BundleEvent}
    (h : .stop ∉ es) : .hush ∉ acts selfUri w es := by
  induction es generalizing w with
  | nil => simp [acts]
  | cons e es ih =>
    rw [List.mem_cons, not_or] at h
    rw [acts, List.mem_append, not_or]
    refine ⟨fun hm => ?_, ih h.2⟩
    have hm := Option.mem_toList.mp hm
    cases e with
    | stop => exact h.1 rfl
    | _ => simp [meaning] at hm

/-- In a careful run, a stream yields the value that was the latest of the own vessel when the
stream was asked for, and then every one that came while the bundle was started. -/
theorem stream_yields (selfUri : String) (path : String) {before after : List BundleEvent}
    (hstop : .stop ∉ after)
    (hm : Machine.Meets (Watched.step selfUri) (fun w e => w.Careful selfUri e) Watched.start
      (before ++ .getSelfStream path :: after)) :
    let w := Machine.run (Watched.step selfUri) Watched.start before
    (Machine.run (Watched.step selfUri) Watched.start
        (before ++ .getSelfStream path :: after)).state.streams[w.state.streams.length]? =
      some ⟨path, true, (Topics.latest w.board.told path).toList ++
        Topics.on path
          ((acts selfUri (w.step selfUri (.getSelfStream path)).1 after).flatMap
            Board.loudly)⟩ := by
  intro w
  have hgood := (good_run_iff selfUri _).mpr hm
  have hw : w.Good selfUri := hgood before ⟨_, rfl⟩
  rw [(hgood _ List.prefix_rfl).streams, hw.streams, Machine.run_append]
  have hrun := board_run selfUri (w.step selfUri (.getSelfStream path)).1 after
  change (Machine.run _ (w.step selfUri (.getSelfStream path)).1 after).board.listeners[_]? = _
  rw [hrun]
  exact Board.heard_listen w.board path (hush_notMem_acts hstop)

/-- The streams yield the own vessel's values, and end for good, exactly in the runs whose every
step is careful: there each begins with the latest value, goes on with all later ones, and nothing
is opened, pending or pushed from a stop to the next start. -/
theorem streams_own_iff (selfUri : String) :
    (∀ events : List BundleEvent,
      (∀ fs, fs <+: events →
        (Machine.run (Watched.step selfUri) Watched.start fs).Good selfUri) ↔
      Machine.Meets (Watched.step selfUri) (fun w e => w.Careful selfUri e) Watched.start
        events) ∧
    ∀ (path : String) (before after : List BundleEvent), .stop ∉ after →
      Machine.Meets (Watched.step selfUri) (fun w e => w.Careful selfUri e) Watched.start
        (before ++ .getSelfStream path :: after) →
      let w := Machine.run (Watched.step selfUri) Watched.start before
      (Machine.run (Watched.step selfUri) Watched.start
          (before ++ .getSelfStream path :: after)).state.streams[w.state.streams.length]? =
        some ⟨path, true, (Topics.latest w.board.told path).toList ++
          Topics.on path
            ((acts selfUri (w.step selfUri (.getSelfStream path)).1 after).flatMap
              Board.loudly)⟩ :=
  ⟨good_run_iff selfUri, fun path _ _ hstop hm => stream_yields selfUri path hstop hm⟩

/-! A socket that closes after the bundle was stopped, and a vessel that is not the own one. -/

def closedAfterStop : List BundleEvent :=
  [.start, .stop, .wsClose 0]

/-- A delta of a vessel that was received by radio. -/
def otherVessel : Delta :=
  Delta.withContext "vessels.urn:mrn:imo:mmsi:230000001"
    [{ source := Source.nmea0183 "ttyUSB0" "AI"
       timestamp := 0
       values := [{ path := "name", value := .string "Aurora" }] }]

def otherHeard : List BundleEvent :=
  [.start, .wsOpen 0, .handle 0, .getSelfStream "name",
    .broadcast 0 ["vessels.self:**"] (fun _ => ⟨fun _ => 0, 0⟩) otherVessel,
    .wsMessage 0, .wsMessage 0]

example : (Machine.run (Watched.step "own") Watched.start otherHeard).state.streams =
    [⟨"name", true, [.string "Aurora"]⟩] := by
  decide +kernel

/-- The socket that closes is opened again. -/
theorem bundle_reconnects_after_stop : ¬ ∀ (selfUri : String) (events fs : List BundleEvent),
    fs <+: events → (Machine.run (Watched.step selfUri) Watched.start fs).Good selfUri := by
  intro h
  have hgood := h "own" closedAfterStop _ List.prefix_rfl
  have hpending : (Machine.run (Watched.step "own") Watched.start closedAfterStop).state.timers =
      [] := hgood.timers rfl
  have htimers : (Machine.run (Watched.step "own") Watched.start closedAfterStop).state.timers =
      [0] := rfl
  rw [htimers] at hpending
  cases hpending

theorem streams_own_iff_asked :
    (Machine.run (Watched.step "own") Watched.start
      ([.start] ++ .getSelfStream "name" :: [])).state.streams[0]? =
        some ⟨"name", true, []⟩ :=
  (streams_own_iff "own").2 "name" [.start] [] (by simp) ⟨trivial, trivial, trivial⟩

end SignalK.StreamBundle

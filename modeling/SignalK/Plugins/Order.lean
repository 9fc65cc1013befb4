import SignalK.Autopilot.Tick
import SignalK.Lib.Spawn
import SignalK.Plugins.Host
import SignalK.Store.Ledger

/-! In which order deltas take effect that are handed to tasks of their own: those on their
way to the store, and those to the state of the autopilot. -/
namespace SignalK
open Spawn

/-! The task that `on_delta` spawns, and plugins with `handle_message` and
`raise_notification` in it. -/

structure Ingest (φ : Type*) where
  filters : φ
  store : SignalKStore

namespace Ingest
variable {φ : Type*} [JsonText]

/-- A delta passes one handler after another and is then applied under the write lock. -/
def program (φ : Type*) :
    Program (Delta × DeltaFilterChain φ) Delta (Ingest φ) (Nat → DateTime) Empty where
  prepare _ s
    | (delta, []) => (s, .ready delta)
    | (delta, handler :: chain) =>
      match handler s.filters delta with
      | (filters, some delta) => ({ s with filters := filters }, .waiting (delta, chain))
      | (filters, none) => ({ s with filters := filters }, .finished none)
  run clock s delta := { s with store := (s.store.applyDelta clock delta).1 }
  outside _ e := nomatch e

/-- What a delta has for a path of a vessel, the last value if there are several. -/
def mentions (selfUri : String) (delta : Delta) (key : String × String) : Option Json :=
  (((deltaWrites selfUri delta).filter fun w =>
    decide (w.vessel = key.1 ∧ w.path = key.2)).getLast?).map (·.value)

/-- Priorities and ages let every value of the delta in. -/
def Accepts (clock : Nat → DateTime) (s : Ingest φ) (delta : Delta) : Prop :=
  (Machine.exec Ledger.write s.store.ledger
    (Machine.timed clock (deltaWrites s.store.selfUri delta))).2 =
    deltaWrites s.store.selfUri delta

instance (clock : Nat → DateTime) (s : Ingest φ) (delta : Delta) :
    Decidable (Accepts clock s delta) := inferInstanceAs (Decidable (_ = _))

/-- The active value of a path of a vessel. -/
def value (s : Ingest φ) (key : String × String) : Option Json :=
  (s.store.getVesselPath key.1 key.2).map (·.value)

theorem value_of_accepts {clock : Nat → DateTime} {s : Ingest φ} {delta : Delta}
    (h : Accepts clock s delta) (key : String × String) :
    value ((program φ).run clock s delta) key =
      (mentions s.store.selfUri delta key).or (value s key) := by
  have hactive := congrArg Ledger.active (s.store.applyDelta_ledger clock delta)
  rw [Ledger.exec_active, h] at hactive
  have hkey := congrFun (congrFun hactive key.1) key.2
  rw [Keyed.foldl_set₂_last] at hkey
  have hget : ((program φ).run clock s delta).store.getVesselPath key.1 key.2 =
      (s.store.applyDelta clock delta).1.ledger.active key.1 key.2 := rfl
  rw [value, hget, hkey, mentions]
  cases ((deltaWrites s.store.selfUri delta).filter fun w =>
      decide (w.vessel = key.1 ∧ w.path = key.2)).getLast? with
  | none => rfl
  | some w => rfl

/-- The tasks write the paths that their deltas mention. -/
def keyed (φ : Type*) (selfUri : String) : Spawn.Keyed (program φ) (String × String) Json where
  get := value
  puts := mentions selfUri
  Takes := Accepts
  Inv s := s.store.selfUri = selfUri
  prepares r s a hs := by
    obtain ⟨delta, chain⟩ := a
    cases chain with
    | nil => exact ⟨hs, rfl⟩
    | cons handler chain =>
      simp only [program]
      split
      · exact ⟨hs, rfl⟩
      · exact ⟨hs, rfl⟩
  unready r s a t := by
    obtain ⟨delta, chain⟩ := a
    cases chain with
    | nil => simp [program]
    | cons handler chain =>
      simp only [program]
      split <;> simp
  runs clock s delta hs := (s.store.applyDelta_selfUri clock delta).trans hs
  takes clock s delta key hs h := by
    rw [value_of_accepts h, hs]
  others s e := nomatch e

end Ingest

/-! The task that the sensor callback of the autopilot spawns. -/

namespace Sensing
variable [AngleMath]

/-- Calls, ticks and time, but no deltas. -/
abbrev Other := { e : AutopilotEvent // ∀ delta, e ≠ .sensors delta }

/-- A delta waits for the write lock, and then updates the sensors. -/
def program : Program Delta Delta AutopilotSystem Unit Other where
  prepare _ p delta := (p, .ready delta)
  run _ p delta := p.sensors delta
  outside p e := (p.step e.1).1

/-- What a delta has for a path: the last number, but no rudder command of the plugin. -/
def mentions (delta : Delta) (path : String) : Option ℚ :=
  ((AutopilotState.sourced delta).filterMap fun e =>
    AutopilotState.sensed path e.1 e.2).getLast?

def keyed : Spawn.Keyed program String ℚ where
  get p := p.state.reading
  puts := mentions
  Takes _ _ _ := True
  Inv _ := True
  prepares _ _ _ _ := ⟨trivial, rfl⟩
  unready _ _ _ _ := by simp [program]
  runs _ _ _ _ := trivial
  takes _ p delta path _ _ := p.state.reading_receive p.now delta path
  others p e _ := ⟨trivial, funext fun path => p.reading_step e.2 path⟩

end Sensing

/-- Of the deltas that have taken effect so far, the one produced last decides what is held
of a path: in every run in which none has its effect after a later one that mentions one of
its paths, and the store accepts all values. -/
theorem order_of_production {φ : Type*} [JsonText] [AngleMath] :
    (∀ (filters : φ) (st : SignalKStore)
        (es : List (Event (Delta × DeltaFilterChain φ) (Nat → DateTime) Empty)),
      let keyed := Ingest.keyed φ st.selfUri
      Machine.Meets (Ingest.program φ).step keyed.InTurn ⟨⟨filters, st⟩, []⟩ es →
      let p := Machine.run (Ingest.program φ).step ⟨⟨filters, st⟩, []⟩ es
      ∀ uri path, (p.shared.store.getVesselPath uri path).map (·.value) =
        (keyed.last p.tasks (uri, path)).or ((st.getVesselPath uri path).map (·.value))) ∧
    ∀ (start : AutopilotSystem) (es : List (Event Delta Unit Sensing.Other)),
      Machine.Meets Sensing.program.step Sensing.keyed.InTurn ⟨start, []⟩ es →
      let p := Machine.run Sensing.program.step ⟨start, []⟩ es
      ∀ path, p.shared.state.reading path =
        (Sensing.keyed.last p.tasks path).or (start.state.reading path) := by
  constructor
  · intro filters st es keyed h p uri path
    exact (keyed.inOrder_run (s := ⟨filters, st⟩) rfl h).2 (uri, path)
  · intro start es h p path
    exact (Sensing.keyed.inOrder_run (s := start) trivial h).2 path

section
attribute [local instance] JsonText.unused AngleMath.plain

/-- Two headings from one sensor, the later one greater. -/
def firstHeading : Delta := Delta.selfVessel [{
  source := Source.plugin "compass"
  timestamp := 1704067200
  values := [⟨"navigation.headingMagnetic", .ofF64 1⟩] }]

def secondHeading : Delta := Delta.selfVessel [{
  source := Source.plugin "compass"
  timestamp := 1704067201
  values := [⟨"navigation.headingMagnetic", .ofF64 2⟩] }]

/-- Both tasks run from their start to their end, in the one order or in the other. -/
def ingests (i j : Nat) : List (Event (Delta × DeltaFilterChain Unit) (Nat → DateTime) Empty) :=
  [.spawn (firstHeading, []), .spawn (secondHeading, []), .go i fun _ => 1704067202,
    .go i fun _ => 1704067202, .go j fun _ => 1704067202, .go j fun _ => 1704067202]

def readings (i j : Nat) : List (Event Delta Unit Sensing.Other) :=
  [.spawn firstHeading, .spawn secondHeading, .go i (), .go i (), .go j (), .go j ()]

/-- In the order of production, the second heading stays. -/
theorem order_of_production_heading :
    ((Machine.run (Ingest.program Unit).step ⟨⟨(), .new "vessel"⟩, []⟩
        (ingests 0 1)).shared.store.getVesselPath "vessel" "navigation.headingMagnetic").map
        (·.value) = some (.ofF64 2) ∧
      (Machine.run Sensing.program.step ⟨.start .default 0, []⟩
        (readings 0 1)).shared.state.reading "navigation.headingMagnetic" = some 2 := by
  obtain ⟨hstore, hsensors⟩ := order_of_production (φ := Unit)
  constructor
  · refine (hstore () (.new "vessel") (ingests 0 1) ?_ _ _).trans (by decide +kernel)
    refine ⟨trivial, trivial, fun _ h => (by cases h), ?_, fun _ h => (by cases h), ?_, trivial⟩
    · refine Keyed.inTurn_of_drop _ (fun delta h => ?_) rfl
      cases h
      show Ingest.Accepts _ _ _
      decide +kernel
    · refine Keyed.inTurn_of_drop _ (fun delta h => ?_) rfl
      cases h
      show Ingest.Accepts _ _ _
      decide +kernel
  · refine (hsensors (.start .default 0) (readings 0 1) ?_ _).trans (by decide +kernel)
    refine ⟨trivial, trivial, fun _ h => (by cases h), ?_, fun _ h => (by cases h), ?_, trivial⟩
    · exact Keyed.inTurn_of_drop _ (fun _ _ => trivial) rfl
    · exact Keyed.inTurn_of_drop _ (fun _ _ => trivial) rfl

/-- The other way round, the first heading replaces the second in the store and in the
state of the autopilot. -/
theorem older_heading_stays :
    (let p := Machine.run (Ingest.program Unit).step ⟨⟨(), .new "vessel"⟩, []⟩ (ingests 1 0)
     p.tasks = [.finished (some firstHeading), .finished (some secondHeading)] ∧
       ¬(p.shared.store.getVesselPath "vessel" "navigation.headingMagnetic").map (·.value) =
         (Ingest.keyed Unit "vessel").last p.tasks ("vessel", "navigation.headingMagnetic")) ∧
    (let p := Machine.run Sensing.program.step ⟨.start .default 0, []⟩ (readings 1 0)
     p.tasks = [.finished (some firstHeading), .finished (some secondHeading)] ∧
       ¬p.shared.state.reading "navigation.headingMagnetic" =
         Sensing.keyed.last p.tasks "navigation.headingMagnetic") := by
  refine ⟨⟨rfl, ?_⟩, rfl, ?_⟩
  · decide +kernel
  · decide +kernel

end

end SignalK

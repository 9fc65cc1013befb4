import SignalK.DerivedData.Environment
import SignalK.DerivedData.Navigation

/-! The plugin: which calculators are enabled, and what it does with a delta. -/
namespace SignalK.DerivedData
variable [ExactMath] [Ephemeris]

/-- `all_calculators` without windShift, the only one with a memory of its own. -/
def statelessCalculators : List Calculator := [
  -- navigation
  headingTrue,
  courseOverGroundMagnetic,
  courseOverGroundTrue,
  leewayAngle,
  leeway,
  setDrift,
  -- wind
  trueWind,
  vmgWind,
  vmgStw,
  windDirectionMagnetic,
  windDirectionMagnetic2,
  windGround,
  windGroundDirection,
  -- course
  courseBearing,
  bearingMagnetic,
  courseDistance,
  previousPointDistance,
  courseXte,
  vmgWaypoint,
  eta,
  steerError,
  -- environment
  airDensity,
  dewPoint,
  heatIndex,
  windChill,
  depthBelowKeel,
  depthBelowSurface,
  transducerToKeel,
  -- sun and moon
  suncalc,
  suntime,
  moon,
  -- propulsion and energy
  batteryPower,
  propState,
  fuelConsumption,
  propSlip,
  tankVolume]

/-- The calculators that a configuration without windShift leaves enabled. -/
def enabled (disabled : List String) : List Calculator :=
  statelessCalculators.filter fun c => c.name ∉ disabled

omit [ExactMath] [Ephemeris]

def label : String := "derived-data"

def insertValues (snapshot : Values) (values : List PathValue) : Values :=
  values.foldl (fun snap pv => snap.insert pv.path pv.value) snapshot

/-- The values of a delta that other sources report. -/
def reports (delta : Delta) : List PathValue :=
  (delta.updates.filter fun update => update.source.label ≠ label).flatMap (·.values)

def affected (changedPaths : List String) (calculator : Calculator) : Bool :=
  calculator.inputs.any fun input => changedPaths.any fun cp => pathMatchesInput cp input

/-- What the affected calculators compute on the snapshot at the start of a round. -/
def newValues (calcs : List Calculator) (iter : Iteration) (snapshot : Values)
    (changedPaths : List String) : List PathValue :=
  calcs.flatMap fun c =>
    if affected changedPaths c then (c.calculate iter snapshot).getD [] else []

/-- The rounds: the snapshot they lead to and everything derived on the way. -/
def fixpoint (calcs : List Calculator) :
    List Iteration → Values → List String → Values × List PathValue
  | [], snapshot, _ => (snapshot, [])
  | iter :: iters, snapshot, changedPaths =>
    let values := newValues calcs iter snapshot changedPaths
    if values = [] then (snapshot, [])
    else
      let rest := fixpoint calcs iters (insertValues snapshot values) (values.map (·.path))
      (rest.1, values ++ rest.2)

def maxIterations : Nat := 5

/-- A delta with the clock reading and the orders of iteration that its callback sees. -/
structure Delivery where
  delta : Delta
  now : DateTime
  rounds : Nat → Iteration
  emission : HashMap.Iteration String PathValue

/-- The one delta with all derived values, of a path the last. -/
def emit (e : Delivery) (allDerived : List PathValue) : Option Delta :=
  if allDerived = [] then none
  else
    let deduped := HashMap.collect (allDerived.map fun pv => (pv.path, pv))
    let finalValues := (e.emission.entries deduped).map Prod.snd
    some (Delta.selfVessel
      [{ source := Source.plugin label, timestamp := e.now, values := finalValues }])

def callback (calcs : List Calculator) (snapshot : Values) (e : Delivery) :
    Values × Option Delta :=
  let values := reports e.delta
  if values = [] then (snapshot, none)
  else
    let r := fixpoint calcs ((List.range maxIterations).map e.rounds)
      (insertValues snapshot values) (values.map (·.path))
    (r.1, emit e r.2)

/-! What the plugin holds, next to what it was told and what it has said. -/

structure Observed where
  snapshot : Values
  /-- the last value other sources reported for a path -/
  reported : HashMap String Json
  /-- the last value the plugin emitted for a path -/
  emitted : HashMap String Json
  /-- whether the value held for a path was written by another source last -/
  foreign : HashMap String Bool
  deriving DecidableEq

namespace Observed

def start : Observed where
  snapshot := ∅
  reported := ∅
  emitted := ∅
  foreign := ∅

def mark (written : HashMap String Bool) (values : List PathValue) (byOthers : Bool) :
    HashMap String Bool :=
  values.foldl (fun m pv => m.insert pv.path byOthers) written

/-- A delta is delivered and the callback returns. -/
def deliver (calcs : List Calculator) (o : Observed) (e : Delivery) : Observed × List Delta :=
  let r := callback calcs o.snapshot e
  let derived := r.2.elim [] Delta.pathValues
  ({ snapshot := r.1
     reported := insertValues o.reported (reports e.delta)
     emitted := insertValues o.emitted derived
     foreign := mark (mark o.foreign (reports e.delta) true) derived false },
    r.2.toList)

end Observed

end SignalK.DerivedData

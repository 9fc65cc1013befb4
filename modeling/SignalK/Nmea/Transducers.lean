import SignalK.Nmea.Buses

/-! XDR measurements with their units, against their values in SI units and paths of their own. -/
namespace SignalK.Nmea0183

/-- A measurement with the letter of its unit, which the table does not look at. -/
structure Transducer extends XdrMeasurement where
  units : Option Char

/-- What the table has a path for. -/
inductive Quantity where
  | pressure
  | waterTemperature
  | airTemperature
  | pitch
  | roll
  | humidity
  | voltage
  deriving DecidableEq

namespace Quantity

def all : List Quantity :=
  [pressure, waterTemperature, airTemperature, pitch, roll, humidity, voltage]

/-- Its type of transducer and the patterns of their names. -/
def transducers : Quantity → Char × List String
  | pressure => ('P', ["BARO*", "BAR*", "Barometer"])
  | waterTemperature => ('C', ["WTHI", "WATER*", "ENV_WATER_T"])
  | airTemperature => ('C', ["ENV_OUTAIR*", "AIR*", "TempAir"])
  | pitch => ('A', ["PTCH", "PITCH", "Pitch"])
  | roll => ('A', ["ROLL", "Roll"])
  | humidity => ('H', ["ENV_OUTSIDE_H*", "HUM*", "Humidity"])
  | voltage => ('U', ["BATT*"])

def isMeasuredBy (q : Quantity) (ttype : Char) (name : String) : Bool :=
  decide (q.transducers.1 = ttype) && q.transducers.2.any (nameMatches · name)

def path : Quantity → String
  | pressure => "environment.outside.pressure"
  | waterTemperature => "environment.water.temperature"
  | airTemperature => "environment.outside.temperature"
  | pitch => "navigation.attitude.pitch"
  | roll => "navigation.attitude.roll"
  | humidity => "environment.outside.humidity"
  | voltage => "electrical.batteries.main.voltage"

/-- The path in the table, where pitch and roll have none of their own. -/
def slot : Quantity → String
  | pitch => "ATTITUDE_PITCH"
  | roll => "ATTITUDE_ROLL"
  | q => q.path

def convert : Quantity → ℚ → ℚ
  | pressure => barToPascal
  | waterTemperature | airTemperature => celsiusToKelvin
  | pitch | roll => toRad
  | humidity => percentToRatio
  | voltage => identity

/-- The letters of its units, each with what a value in it is in the SI unit. -/
def units : Quantity → List (Char × (ℚ → ℚ))
  | pressure => [('B', (· * 100000)), ('P', id)]
  | waterTemperature | airTemperature => [('C', (· + 273.15)), ('K', id)]
  | pitch | roll => [('D', (· * degToRad)), ('R', id)]
  | humidity => [('P', (· / 100))]
  | voltage => [('V', id)]

def si (q : Quantity) (unit : Char) (x : ℚ) : Option ℚ :=
  (q.units.find? (·.1 = unit)).map (·.2 x)

/-- A value that is converted from a unit it is not in: nought is the same in any but those of
temperature. -/
def Mistaken (q : Quantity) (unit : Char) (x : ℚ) : Prop :=
  match q with
  | pressure => unit = 'P' ∧ x ≠ 0
  | waterTemperature | airTemperature => unit = 'K'
  | pitch | roll => unit = 'R' ∧ x ≠ 0
  | humidity | voltage => False

/-- Of two units the second is the SI unit. -/
theorem find?_units {c d : Char} (hcd : c ≠ d) (f : ℚ → ℚ) (unit : Char) (x : ℚ) :
    (∀ y, (([(c, f), (d, id)].find? (·.1 = unit)).map (·.2 x)) = some y → f x = y) ↔
      ¬(unit = d ∧ f x ≠ x) := by
  simp only [List.find?_cons, List.find?_nil]
  by_cases hc : c = unit
  · subst hc
    simp [hcd]
  · by_cases hd : d = unit
    · subst hd
      simp [hcd]
    · simp [hc, hd, Ne.symm hd]

theorem convert_eq_si_iff (q : Quantity) (unit : Char) (x : ℚ) :
    (∀ y, q.si unit x = some y → q.convert x = y) ↔ ¬q.Mistaken unit x := by
  have hbar : x * 100000 ≠ x ↔ x ≠ 0 :=
    not_congr ⟨fun h => by linarith, fun h => by rw [h, zero_mul]⟩
  have hcelsius : x + 273.15 ≠ x := by norm_num
  have hdegrees : x * degToRad ≠ x ↔ x ≠ 0 := by
    have hpi : degToRad ≠ 1 := by norm_num [degToRad, Consts.pi]
    rw [Ne, mul_right_eq_self₀, or_iff_right hpi]
  cases q with
  | pressure => exact (find?_units (by decide) _ _ _).trans (by rw [hbar]; rfl)
  | waterTemperature | airTemperature =>
    exact (find?_units (by decide) _ _ _).trans (not_congr (and_iff_left hcelsius))
  | pitch | roll => exact (find?_units (by decide) _ _ _).trans (by rw [hdegrees]; rfl)
  | humidity | voltage =>
    simp only [si, units, convert, Mistaken, List.find?_cons, List.find?_nil]
    split <;> simp [percentToRatio, identity]

theorem path_injective : Function.Injective path := by
  intro q q' h
  cases q <;> cases q' <;> first | rfl | simp [path] at h

/-- The rows of the table for a kind. -/
def rules (q : Quantity) : List XdrMapping :=
  q.transducers.2.map fun pattern => ⟨q.transducers.1, pattern, q.slot, q.convert⟩

theorem mappings_eq : mappings = all.flatMap rules := rfl

theorem find?_rules (q : Quantity) (ttype : Char) (name : String) :
    (q.rules.find? fun r => r.transducerType = ttype && nameMatches r.namePattern name).map
        (fun r => (r.path, r.convert)) =
      if q.isMeasuredBy ttype name then some (q.slot, q.convert) else none := by
  rw [rules, isMeasuredBy]
  generalize q.transducers.2 = patterns
  by_cases htype : q.transducers.1 = ttype
  · induction patterns with
    | nil => simp
    | cons pattern patterns ih =>
      rw [List.map_cons, List.find?_cons, List.any_cons]
      cases hmatch : nameMatches pattern name <;> simp_all
  · induction patterns <;> simp_all

theorem find?_flatMap_rules (qs : List Quantity) (ttype : Char) (name : String) :
    ((qs.flatMap rules).find?
        fun r => r.transducerType = ttype && nameMatches r.namePattern name).map
        (fun r => (r.path, r.convert)) =
      (qs.find? (·.isMeasuredBy ttype name)).map fun q => (q.slot, q.convert) := by
  induction qs with
  | nil => rfl
  | cons q qs ih =>
    rw [List.flatMap_cons, List.find?_append, Option.map_or, find?_rules, ih, List.find?_cons]
    cases q.isMeasuredBy ttype name <;> rfl

end Quantity

/-- The kind of a measurement that has a value, and the value. -/
def Transducer.reading (m : Transducer) : Option (Quantity × ℚ) := do
  let ttype ← m.transducerType
  let value ← m.value
  let q ← Quantity.all.find? (·.isMeasuredBy ttype m.name)
  return (q, value)

/-- The values of a delta, those of an object each under a path of its own. -/
def leaves (pv : PathValue) : List (String × Json) :=
  match pv.value with
  | .object fields => fields.map fun e => (pv.path ++ "." ++ e.1, e.2)
  | value => [(pv.path, value)]

@[simp] theorem leaves_ofF64 (path : String) (x : ℚ) :
    leaves ⟨path, .ofF64 x⟩ = [(path, .ofF64 x)] := rfl

def output (ms : List Transducer) : List (String × Json) :=
  (fromXdr ⟨ms.map (·.toXdrMeasurement)⟩).flatMap leaves

/-- Every measurement is put out in SI units and under a path of its own. What is put out for a
measurement is what a sentence with nothing else gives. -/
structure Kept (ms : List Transducer) : Prop where
  measured : ∀ leaf ∈ output ms, ∃ m ∈ ms, leaf ∈ output [m]
  si : ∀ m ∈ ms, ∀ q x unit y, m.reading = some (q, x) → m.units = some unit →
    q.si unit x = some y → ∀ leaf ∈ output [m], leaf.2 = .ofF64 y
  represented : ∀ m ∈ ms, ∀ q x, m.reading = some (q, x) →
    ∃ v, output [m] = [(q.path, v)] ∧ (q.path, v) ∈ output ms
  apart : ∀ m ∈ ms, ∀ m' ∈ ms, ∀ path v v', (path, v) ∈ output [m] → (path, v') ∈ output [m'] →
    m.name = m'.name

/-- No unit is mistaken, no kind comes from two transducers, and an angle once only. -/
structure Unambiguous (ms : List Transducer) : Prop where
  units : ∀ m ∈ ms, ∀ q x unit, m.reading = some (q, x) → m.units = some unit →
    ¬q.Mistaken unit x
  names : ∀ m ∈ ms, ∀ m' ∈ ms, ∀ q x x', m.reading = some (q, x) → m'.reading = some (q, x') →
    m.name = m'.name
  angles : ∀ m ∈ ms, ∀ m' ∈ ms, ∀ q x x', q = .pitch ∨ q = .roll →
    m.reading = some (q, x) → m'.reading = some (q, x') → x = x'

/-- The table by kinds. -/
theorem mapped_eq (m : Transducer) :
    m.mapped = m.reading.map fun r => (r.1.slot, r.1.convert r.2) := by
  rw [XdrMeasurement.mapped, Transducer.reading]
  cases m.transducerType with
  | none => rfl
  | some ttype =>
    cases m.value with
    | none => rfl
    | some value =>
      have htable := Quantity.find?_flatMap_rules Quantity.all ttype m.name
      rw [← Quantity.mappings_eq] at htable
      have happly := congrArg (Option.map fun e : String × (ℚ → ℚ) => (e.1, e.2 value)) htable
      simpa [Option.map_eq_bind, Option.bind_assoc, Function.comp_def] using happly

/-- What one measurement puts out by itself. -/
def Transducer.leaf (m : Transducer) : Option (String × Json) :=
  m.reading.map fun r => (r.1.path, .ofF64 (r.1.convert r.2))

def Quantity.isAngle (q : Quantity) : Bool := q = pitch || q = roll

/-- The values of a kind, in order. -/
def valuesOf (q : Quantity) (ms : List Transducer) : List ℚ :=
  ms.filterMap fun m => m.reading.bind fun r => if r.1 = q then some r.2 else none

theorem mem_valuesOf {q : Quantity} {ms : List Transducer} {x : ℚ} :
    x ∈ valuesOf q ms ↔ ∃ m ∈ ms, m.reading = some (q, x) := by
  simp only [valuesOf, List.mem_filterMap, Option.bind_eq_some_iff]
  constructor
  · rintro ⟨m, hm, ⟨q', x'⟩, hr, hx⟩
    split_ifs at hx with hq
    cases hx
    cases hq
    exact ⟨m, hm, hr⟩
  · rintro ⟨m, hm, hr⟩
    exact ⟨m, hm, (q, x), hr, if_pos rfl⟩

theorem step_eq (l : XdrLoop) (m : Transducer) : l.step m.toXdrMeasurement =
    match m.reading with
    | none => l
    | some (.pitch, x) => { l with pitchRad := some (toRad x) }
    | some (.roll, x) => { l with rollRad := some (toRad x) }
    | some (q, x) => { l with out := l.out ++ [⟨q.path, .ofF64 (q.convert x)⟩] } := by
  rw [XdrLoop.step, mapped_eq]
  cases hr : m.reading with
  | none => rfl
  | some r =>
    obtain ⟨q, x⟩ := r
    cases q <;> rfl

/-- The variables of the loop: what is put out at once, and the last pitch and the last roll. -/
theorem loop_eq (ms : List Transducer) :
    let l := (ms.map (·.toXdrMeasurement)).foldl XdrLoop.step ⟨[], none, none⟩
    (∀ leaf, leaf ∈ l.out.flatMap leaves ↔ ∃ m ∈ ms, ∃ q x, m.reading = some (q, x) ∧
      q.isAngle = false ∧ leaf = (q.path, .ofF64 (q.convert x))) ∧
    l.pitchRad = (valuesOf .pitch ms).getLast?.map toRad ∧
    l.rollRad = (valuesOf .roll ms).getLast?.map toRad := by
  induction ms using List.reverseRecOn with
  | nil => exact ⟨by simp, rfl, rfl⟩
  | append_singleton ms m ih =>
    obtain ⟨hout, hpitch, hroll⟩ := ih
    have hvalues : ∀ q, valuesOf q (ms ++ [m]) = valuesOf q ms ++ valuesOf q [m] := fun q =>
      List.filterMap_append
    simp only [List.map_append, List.map_cons, List.map_nil, List.foldl_append, List.foldl_cons,
      List.foldl_nil, step_eq, hvalues, List.getLast?_append]
    have hsingle : ∀ q, valuesOf q [m] =
        (m.reading.bind fun r => if r.1 = q then some r.2 else none).toList := fun q => by
      rw [valuesOf, List.filterMap_cons, List.filterMap_nil]
      cases m.reading.bind _ <;> rfl
    simp only [hsingle]
    cases hr : m.reading with
    | none =>
      simp [hout, hpitch, hroll, hr]
    | some r =>
      obtain ⟨q, x⟩ := r
      cases q <;> simp [hout, hpitch, hroll, hr, Quantity.isAngle]

/-- A value that gets into the output. Of several angles of a kind it is the last one. -/
def Emitted (ms : List Transducer) (q : Quantity) (x : ℚ) : Prop :=
  if q.isAngle then (valuesOf q ms).getLast? = some x else x ∈ valuesOf q ms

/-! The object of the attitude. -/

theorem leaves_pitch (x : ℚ) : leaves ⟨"navigation.attitude", .ofFields [("pitch", .ofF64 x)]⟩ =
    [("navigation.attitude.pitch", .ofF64 x)] := rfl

theorem leaves_roll (x : ℚ) : leaves ⟨"navigation.attitude", .ofFields [("roll", .ofF64 x)]⟩ =
    [("navigation.attitude.roll", .ofF64 x)] := rfl

theorem leaves_attitude (x y : ℚ) :
    leaves ⟨"navigation.attitude", .ofFields [("pitch", .ofF64 x), ("roll", .ofF64 y)]⟩ =
      [("navigation.attitude.pitch", .ofF64 x), ("navigation.attitude.roll", .ofF64 y)] := by
  have horder : ¬("roll" < "pitch") := by decide
  have hne : ¬("roll" = "pitch") := by decide
  simp only [leaves, Json.ofFields, List.foldl_cons, List.foldl_nil, SortedMap.insert,
    if_neg horder, if_neg hne]
  rfl

theorem mem_output {ms : List Transducer} {leaf : String × Json} :
    leaf ∈ output ms ↔ ∃ q x, Emitted ms q x ∧ leaf = (q.path, .ofF64 (q.convert x)) := by
  obtain ⟨hout, hpitch, hroll⟩ := loop_eq ms
  have hattitude : leaf ∈ (((ms.map (·.toXdrMeasurement)).foldl XdrLoop.step
      ⟨[], none, none⟩).attitude.flatMap leaves) ↔
      (∃ x, (valuesOf .pitch ms).getLast? = some x ∧
        leaf = (Quantity.pitch.path, .ofF64 (Quantity.pitch.convert x))) ∨
      (∃ x, (valuesOf .roll ms).getLast? = some x ∧
        leaf = (Quantity.roll.path, .ofF64 (Quantity.roll.convert x))) := by
    rw [XdrLoop.attitude, hpitch, hroll]
    cases (valuesOf .pitch ms).getLast? <;> cases (valuesOf .roll ms).getLast? <;>
      simp [leaves_pitch, leaves_roll, leaves_attitude, Quantity.path, Quantity.convert]
  rw [output, fromXdr, List.flatMap_append, List.mem_append, hout, hattitude]
  constructor
  · rintro (⟨m, hm, q, x, hr, hq, rfl⟩ | ⟨x, hx, rfl⟩ | ⟨x, hx, rfl⟩)
    · refine ⟨q, x, ?_, rfl⟩
      rw [Emitted, hq]
      exact mem_valuesOf.mpr ⟨m, hm, hr⟩
    · exact ⟨.pitch, x, hx, rfl⟩
    · exact ⟨.roll, x, hx, rfl⟩
  · rintro ⟨q, x, hx, rfl⟩
    cases hq : q.isAngle with
    | false =>
      rw [Emitted, hq] at hx
      obtain ⟨m, hm, hr⟩ := mem_valuesOf.mp hx
      exact .inl ⟨m, hm, q, x, hr, hq, rfl⟩
    | true =>
      rw [Emitted, hq] at hx
      simp only [Quantity.isAngle, Bool.or_eq_true, decide_eq_true_eq] at hq
      rcases hq with rfl | rfl
      · exact .inr (.inl ⟨x, hx, rfl⟩)
      · exact .inr (.inr ⟨x, hx, rfl⟩)

theorem output_single (m : Transducer) : output [m] = m.leaf.toList := by
  rw [Transducer.leaf, output, fromXdr, List.map_cons, List.map_nil, List.foldl_cons,
    List.foldl_nil, step_eq]
  cases m.reading with
  | none => rfl
  | some r =>
    obtain ⟨q, x⟩ := r
    cases q <;> rfl

theorem mem_output_single {m : Transducer} {leaf : String × Json} : leaf ∈ output [m] ↔
    ∃ q x, m.reading = some (q, x) ∧ leaf = (q.path, .ofF64 (q.convert x)) := by
  rw [output_single, Transducer.leaf]
  cases hr : m.reading with
  | none => simp
  | some r =>
    obtain ⟨q, x⟩ := r
    simp only [Option.map_some, Option.toList_some, List.mem_singleton, Option.some.injEq]
    constructor
    · rintro rfl
      exact ⟨q, x, rfl, rfl⟩
    · rintro ⟨q', x', hqx, rfl⟩
      cases hqx
      rfl

theorem emitted_reading {ms : List Transducer} {q : Quantity} {x : ℚ} (h : Emitted ms q x) :
    ∃ m ∈ ms, m.reading = some (q, x) := by
  apply mem_valuesOf.mp
  unfold Emitted at h
  split_ifs at h
  · exact List.mem_of_getLast? h
  · exact h

theorem convert_injective (q : Quantity) : Function.Injective q.convert := by
  have hrad : degToRad ≠ 0 := by norm_num [degToRad, Consts.pi]
  intro x y h
  cases q with
  | pressure => exact mul_right_cancel₀ (by norm_num) h
  | waterTemperature | airTemperature => exact add_right_cancel h
  | pitch | roll => exact mul_right_cancel₀ hrad h
  | humidity => exact (div_left_inj' (by norm_num)).mp h
  | voltage => exact h

/-- What a kind of which all values are the same emits. -/
theorem emitted_of_all {ms : List Transducer} {q : Quantity} {x : ℚ} (hx : x ∈ valuesOf q ms)
    (hall : q.isAngle → ∀ y ∈ valuesOf q ms, y = x) : Emitted ms q x := by
  unfold Emitted
  split_ifs with hq
  · have hlast := List.getLast?_eq_some_getLast (List.ne_nil_of_mem hx)
    rw [hlast, hall hq _ (List.mem_of_getLast? hlast)]
  · exact hx

theorem Kept.unambiguous {ms : List Transducer} (h : Kept ms) : Unambiguous ms := by
  constructor
  · intro m hm q x unit hr hunit
    rw [← Quantity.convert_eq_si_iff]
    intro y hy
    exact Nmea.ofF64_injective
      (h.si m hm q x unit y hr hunit hy _ (mem_output_single.mpr ⟨q, x, hr, rfl⟩))
  · intro m hm m' hm' q x x' hr hr'
    exact h.apart m hm m' hm' _ _ _ (mem_output_single.mpr ⟨q, x, hr, rfl⟩)
      (mem_output_single.mpr ⟨q, x', hr', rfl⟩)
  · intro m hm m' hm' q x x' hq hr hr'
    have hlast : ∀ m ∈ ms, ∀ x, m.reading = some (q, x) →
        (valuesOf q ms).getLast? = some x := by
      intro m hm x hr
      obtain ⟨v, hsingle, hv⟩ := h.represented m hm q x hr
      rw [output_single, Transducer.leaf, hr, Option.map_some, Option.toList_some,
        List.singleton_inj] at hsingle
      obtain ⟨-, rfl⟩ := Prod.mk.inj hsingle
      obtain ⟨q', x', hx', he⟩ := mem_output.mp hv
      obtain ⟨hpath, hvalue⟩ := Prod.mk.inj he
      obtain rfl := Quantity.path_injective hpath
      obtain rfl := convert_injective q (Nmea.ofF64_injective hvalue)
      have hangle : q.isAngle = true := by rcases hq with rfl | rfl <;> rfl
      rwa [Emitted, if_pos hangle] at hx'
    exact Option.some.inj ((hlast m hm x hr).symm.trans (hlast m' hm' x' hr'))

theorem Unambiguous.kept {ms : List Transducer} (h : Unambiguous ms) : Kept ms := by
  constructor
  · intro leaf hleaf
    obtain ⟨q, x, hx, rfl⟩ := mem_output.mp hleaf
    obtain ⟨m, hm, hr⟩ := emitted_reading hx
    exact ⟨m, hm, mem_output_single.mpr ⟨q, x, hr, rfl⟩⟩
  · intro m hm q x unit y hr hunit hy leaf hleaf
    obtain ⟨q', x', hr', rfl⟩ := mem_output_single.mp hleaf
    obtain ⟨rfl, rfl⟩ : q = q' ∧ x = x' := by simpa [hr] using hr'
    rw [(Quantity.convert_eq_si_iff q unit x).mpr (h.units m hm q x unit hr hunit) y hy]
  · intro m hm q x hr
    refine ⟨.ofF64 (q.convert x), by rw [output_single, Transducer.leaf, hr]; rfl, mem_output.mpr
      ⟨q, x, emitted_of_all (mem_valuesOf.mpr ⟨m, hm, hr⟩) fun hq y hy => ?_, rfl⟩⟩
    obtain ⟨m', hm', hr'⟩ := mem_valuesOf.mp hy
    simp only [Quantity.isAngle, Bool.or_eq_true, decide_eq_true_eq] at hq
    exact h.angles m' hm' m hm q y x hq hr' hr
  · intro m hm m' hm' path v v' hleaf hleaf'
    obtain ⟨q, x, hr, he⟩ := mem_output_single.mp hleaf
    obtain ⟨q', x', hr', he'⟩ := mem_output_single.mp hleaf'
    obtain ⟨rfl, -⟩ := Prod.mk.inj he
    obtain ⟨hpath, -⟩ := Prod.mk.inj he'
    obtain rfl := Quantity.path_injective hpath
    exact h.names m hm m' hm' _ _ _ hr hr'

theorem kept_iff (ms : List Transducer) : Kept ms ↔ Unambiguous ms :=
  ⟨Kept.unambiguous, Unambiguous.kept⟩

/-- A barometer that reports in pascal, and two batteries. -/
theorem pascal_and_batteries :
    ¬Kept [⟨⟨some 'P', some 101300, "BARO"⟩, some 'P'⟩] ∧
    ¬Kept [⟨⟨some 'U', some 12.6, "BATT1"⟩, some 'V'⟩,
      ⟨⟨some 'U', some 24.2, "BATT2"⟩, some 'V'⟩] := by
  constructor
  · intro h
    exact h.unambiguous.units _ (List.mem_singleton_self _) .pressure 101300 'P' rfl rfl
      ⟨rfl, by norm_num⟩
  · intro h
    have hname := h.unambiguous.names _ List.mem_cons_self _ (List.mem_cons_of_mem _
      (List.mem_singleton_self _)) .voltage 12.6 24.2 rfl rfl
    simp at hname

end SignalK.Nmea0183

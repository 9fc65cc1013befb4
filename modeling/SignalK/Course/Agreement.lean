import Mathlib.Algebra.Order.Ring.Unbundled.Rat
import Mathlib.Tactic.MkIffOfInductiveProp
import SignalK.Course.Projection

/-! The course in memory, in the store and on disk. An emission writes only the
fields that are present, so after a save the three agree exactly when the new
state has every field that the old one had and its numbers read back. -/
namespace SignalK

/-- A path that shows nothing. -/
def Blank (v : Option Json) : Prop :=
  v = none ∨ v = some .null

/-- A path shows what is expected of it, and nothing when nothing is expected. -/
def Shows (v : Option Json) : Option Json → Prop
  | some j => v = some j
  | none => Blank v

theorem CourseState.projection_ne_null (s : CourseState) {p : CoursePath}
    (hp : p ≠ .distanceRemaining) : s.projection none p ≠ some .null := by
  cases p with
  | distanceRemaining => exact absurd rfl hp
  | nextPosition => cases h : s.nextPoint <;> simp [projection, h, positionValue, Json.ofFields]
  | nextType =>
    cases h : s.nextPoint with
    | none => simp [projection, h]
    | some p => cases ht : p.type_ <;> simp [projection, h, PointType.toValue, ht]
  | previousPosition =>
    cases h : s.previousPoint <;> simp [projection, h, positionValue, Json.ofFields]
  | routeHref => cases h : s.activeRoute <;> simp [projection, h]
  | startTime => cases h : s.startTime <;> simp [projection, h]
  | targetArrivalTime => cases h : s.targetArrivalTime <;> simp [projection, h]
  | arrivalCircle => by_cases h : 0 < s.arrivalCircle <;> simp [projection, h, Json.ofF64]

/-- A state has every field that another has. -/
@[mk_iff] structure CourseState.Covers (s old : CourseState) : Prop where
  nextPoint : s.nextPoint = none → old.nextPoint = none
  previousPoint : s.previousPoint = none → old.previousPoint = none
  activeRoute : s.activeRoute = none → old.activeRoute = none
  startTime : s.startTime = none → old.startTime = none
  targetArrivalTime : s.targetArrivalTime = none → old.targetArrivalTime = none
  arrivalCircle : s.arrivalCircle ≤ 0 → old.arrivalCircle ≤ 0

theorem CourseState.covers_iff_projection (s old : CourseState) :
    s.Covers old ↔ ∀ p : CoursePath, p ≠ .distanceRemaining → s.projection none p = none →
      old.projection none p = none := by
  constructor
  · intro h p hp hs
    cases p with
    | distanceRemaining => exact absurd rfl hp
    | nextPosition => simpa [projection] using h.nextPoint (by simpa [projection] using hs)
    | nextType => simpa [projection] using h.nextPoint (by simpa [projection] using hs)
    | previousPosition =>
      simpa [projection] using h.previousPoint (by simpa [projection] using hs)
    | routeHref => simpa [projection] using h.activeRoute (by simpa [projection] using hs)
    | startTime => simpa [projection] using h.startTime (by simpa [projection] using hs)
    | targetArrivalTime =>
      simpa [projection] using h.targetArrivalTime (by simpa [projection] using hs)
    | arrivalCircle => simpa [projection] using h.arrivalCircle (by simpa [projection] using hs)
  · intro h
    constructor
    · simpa [projection] using h .nextPosition (by decide)
    · simpa [projection] using h .previousPosition (by decide)
    · simpa [projection] using h .routeHref (by decide)
    · simpa [projection] using h .startTime (by decide)
    · simpa [projection] using h .targetArrivalTime (by decide)
    · simpa [projection] using h .arrivalCircle (by decide)

namespace CourseManager

/-- What the state file decodes to, when there is one. -/
def savedState [FloatText] (m : CourseManager) : Option (Option CourseState) :=
  m.stateFile.map fun doc => CourseState.fromValue doc.reparsed

def expected (m : CourseManager) (p : CoursePath) : Option Json :=
  m.state.bind fun s => s.projection none p

/-- The store shows the projection of the state, no distance without a route, and
the state file decodes to the state. -/
structure Agrees [FloatText] (m : CourseManager) : Prop where
  fields : ∀ p, p ≠ .distanceRemaining → Shows (m.store.courseView p) (m.expected p)
  distance : m.state.bind CourseState.activeRoute = none →
    Blank (m.store.courseView .distanceRemaining)
  file : m.savedState = m.state.map some

/-- What agreement rests on: only the manager writes the course, a course has a
next point, and its numbers read back. -/
structure Sound [FloatText] (m : CourseManager) : Prop where
  owned : m.store.CourseOwned
  heading : ∀ s, m.state = some s → s.nextPoint ≠ none
  rereads : ∀ s, m.state = some s → s.reread = s

/-- The distance in the store is the one along the route from where the vessel is. -/
def Measured [Geodesy] (resources : Resources) (m : CourseManager) : Prop :=
  ∀ s route points, m.state = some s → s.activeRoute = some route →
    resolveRoutePoints resources route.href = .ok points →
    m.store.courseView .distanceRemaining =
      some (metersValue (distanceRemaining m.store s route points))

/-- A state was saved and emitted. -/
structure Saved [Geodesy] (m : CourseManager) (env : Surroundings) (s : CourseState)
    (m' : CourseManager) : Prop where
  state : m'.state = some s
  file : m'.stateFile = some s.toValue
  store : m.store.Overlaid m'.store (s.projection (measured env.resources m.store s))

/-- A manager with no file, over a store without a course. -/
theorem new_agrees [FloatText] {store : SignalKStore}
    (h : ∀ p : CoursePath, store.getSelfPath p.text = none) :
    Sound (new store) ∧ Agrees (new store) := by
  refine ⟨⟨fun p c hc => ?_, by simp [new], by simp [new]⟩, fun p _ => ?_, fun _ => ?_, rfl⟩
  · have hn : store.getSelfPath p.text = some c := hc
    rw [h p] at hn
    cases hn
  · exact .inl (by simp [SignalKStore.courseView, new, h])
  · exact .inl (by simp [SignalKStore.courseView, new, h])

theorem Agrees.blank_iff [FloatText] {m : CourseManager} (h : Agrees m) {p : CoursePath}
    (hp : p ≠ .distanceRemaining) : Blank (m.store.courseView p) ↔ m.expected p = none := by
  have hf := h.fields p hp
  cases he : m.expected p with
  | none =>
    rw [he] at hf
    exact iff_of_true hf rfl
  | some j =>
    rw [he] at hf
    have hj : j ≠ .null := by
      intro hj
      obtain ⟨s, -, hs⟩ := Option.bind_eq_some_iff.mp he
      exact s.projection_ne_null hp (hj ▸ hs)
    have hv : m.store.courseView p = some j := hf
    simp [Blank, hv, hj]

section
variable [JsonText] [Geodesy]

theorem emitDeltas_overlaid {m : CourseManager} (env : Surroundings) (s : CourseState)
    (h : m.store.CourseOwned) :
    m.store.Overlaid (m.emitDeltas env s).1.store
      (s.projection (measured env.resources m.store s)) := by
  have hc := courseValues_carries env.resources m.store s
  by_cases hv : courseValues env.resources m.store s = []
  · have hnone : ∀ p, s.projection (measured env.resources m.store s) p = none := by
      intro p
      cases hp : s.projection (measured env.resources m.store s) p with
      | none => rfl
      | some v =>
        have hmem := (hc ⟨p.text, v⟩).mpr ⟨p, rfl, hp⟩
        rw [hv] at hmem
        cases hmem
    simp only [emitDeltas, hv]
    exact SignalKStore.Overlaid.refl h hnone
  · simp only [emitDeltas, ne_eq, hv, not_false_eq_true, if_true]
    exact SignalKStore.applyDelta_overlaid env.clock env.timestamp h hc

theorem emitDeltas_frame (m : CourseManager) (env : Surroundings) (s : CourseState) :
    (m.emitDeltas env s).1.state = m.state ∧ (m.emitDeltas env s).1.stateFile = m.stateFile := by
  simp only [emitDeltas]
  split <;> exact ⟨rfl, rfl⟩

theorem update_saved {m : CourseManager} (env : Surroundings) (s : CourseState)
    (h : m.store.CourseOwned) : Saved m env s (m.update env s).manager where
  state := (emitDeltas_frame _ env s).1
  file := (emitDeltas_frame _ env s).2
  store := emitDeltas_overlaid (m := { m with state := some s }.persistState (some s)) env s h

theorem replace_saved {m : CourseManager} (env : Surroundings) (s : CourseState)
    (source : CourseSource) (h : m.store.CourseOwned) :
    Saved m env s (m.replace env s source).manager where
  state := rfl
  file := (emitDeltas_frame (m.persistState (some s)) env s).2
  store := emitDeltas_overlaid (m := m.persistState (some s)) env s h

end

section
variable [Geodesy]

theorem Saved.expected_eq {m m' : CourseManager} {env : Surroundings} {s : CourseState}
    (h : Saved m env s m') (p : CoursePath) : m'.expected p = s.projection none p := by
  simp [expected, h.state]

theorem Saved.view_eq {m m' : CourseManager} {env : Surroundings} {s : CourseState}
    (h : Saved m env s m') {p : CoursePath} (hp : p ≠ .distanceRemaining) :
    m'.store.courseView p = (s.projection none p).or (m.store.courseView p) := by
  rw [h.store.view p]
  cases p <;> first | rfl | exact absurd rfl hp

theorem distanceRemaining_congr {st st' : SignalKStore}
    (h : st'.currentVesselPosition = st.currentVesselPosition) (s : CourseState)
    (route : ActiveRoute) (points : List Position) :
    distanceRemaining st' s route points = distanceRemaining st s route points := by
  simp [distanceRemaining, h]

theorem Saved.isMeasured {m m' : CourseManager} {env : Surroundings} {s : CourseState}
    (h : Saved m env s m') : Measured env.resources m' := by
  intro t route points ht hroute hpoints
  rw [h.state] at ht
  obtain rfl := Option.some.inj ht
  rw [h.store.view, distanceRemaining_congr h.store.position]
  simp [CourseState.projection, measured, hroute, hpoints, Except.toOption]

variable [FloatText]

theorem Saved.savedState_eq {m m' : CourseManager} {env : Surroundings} {s : CourseState}
    (h : Saved m env s m') : m'.savedState = some (some s.reread) := by
  simp [savedState, h.file, CourseState.fromValue_reparsed]

/-- A path that the new state lacks shows nothing only if the old state lacked it. -/
theorem Saved.shows_iff {m m' : CourseManager} {env : Surroundings} {s : CourseState}
    (ha : Agrees m) (h : Saved m env s m') {p : CoursePath} (hp : p ≠ .distanceRemaining) :
    Shows (m'.store.courseView p) (m'.expected p) ↔
      (s.projection none p = none → m.expected p = none) := by
  rw [h.expected_eq, h.view_eq hp]
  cases hs : s.projection none p with
  | none => simpa [Shows] using ha.blank_iff hp
  | some j => simp [Shows]

/-- After a save everything agrees exactly when the numbers read back and the new
state has every field that the old one had. -/
theorem Saved.agrees_iff {m m' : CourseManager} {env : Surroundings} {s : CourseState}
    (ha : Agrees m) (h : Saved m env s m') :
    Agrees m' ↔ s.reread = s ∧ ∀ old, m.state = some old → s.Covers old := by
  constructor
  · intro ha'
    have hfile := ha'.file
    rw [h.savedState_eq, h.state] at hfile
    refine ⟨by simpa using hfile, fun old ho => (s.covers_iff_projection old).mpr fun p hp hs => ?_⟩
    have he := (h.shows_iff ha hp).mp (ha'.fields p hp) hs
    simpa [expected, ho] using he
  · intro hc
    obtain ⟨hr, hcov⟩ := hc
    refine ⟨fun p hp => (h.shows_iff ha hp).mpr fun hs => ?_, fun hroute => ?_, ?_⟩
    · cases ho : m.state with
      | none => simp [expected, ho]
      | some old =>
        have he := (s.covers_iff_projection old).mp (hcov old ho) p hp hs
        simpa [expected, ho] using he
    · have hs : s.activeRoute = none := by simpa [h.state] using hroute
      have hold : m.state.bind CourseState.activeRoute = none := by
        cases ho : m.state with
        | none => rfl
        | some old => exact (hcov old ho).activeRoute hs
      rw [h.store.view]
      simpa [CourseState.projection, measured, hs] using ha.distance hold
    · rw [h.savedState_eq, h.state, hr]
      rfl

theorem Saved.sound {m m' : CourseManager} {env : Surroundings} {s : CourseState}
    (h : Saved m env s m') (hn : s.nextPoint ≠ none) (hr : s.reread = s) : Sound m' where
  owned := h.store.owned
  heading t ht := by
    rw [h.state] at ht
    rwa [← Option.some.inj ht]
  rereads t ht := by
    rw [h.state] at ht
    rwa [← Option.some.inj ht]

/-- What an operation does to agreement, and that it measures when it emits. -/
structure Verdict (m : CourseManager) (env : Surroundings) (out : Outcome) (cond : Prop) :
    Prop where
  selfUri : out.manager.store.selfUri = m.store.selfUri
  sound : Agrees m → Agrees out.manager → Sound out.manager
  agrees : Agrees m → (Agrees out.manager ↔ cond)
  measured : out.broadcast ≠ [] → Measured env.resources out.manager

theorem Verdict.congr {m : CourseManager} {env : Surroundings} {out : Outcome} {c c' : Prop}
    (h : Verdict m env out c) (hc : c ↔ c') : Verdict m env out c' :=
  { h with agrees := fun ha => (h.agrees ha).trans hc }

/-- Nothing of the course changes. -/
theorem verdict_same {m m' : CourseManager} (env : Surroundings) (hm : Sound m)
    (r : Except PluginError Unit) (hstate : m'.state = m.state) (hstore : m'.store = m.store)
    (hfile : m'.stateFile = m.stateFile) : Verdict m env ⟨m', [], r⟩ True where
  selfUri := by rw [hstore]
  sound _ _ := by
    refine ⟨?_, ?_, ?_⟩
    · rw [hstore]
      exact hm.owned
    · rw [hstate]
      exact hm.heading
    · rw [hstate]
      exact hm.rereads
  agrees ha := by
    refine iff_true_intro ⟨?_, ?_, ?_⟩
    · rw [hstore]
      unfold expected
      rw [hstate]
      exact ha.fields
    · rw [hstate, hstore]
      exact ha.distance
    · rw [savedState, hfile, hstate]
      exact ha.file
  measured h := absurd rfl h

theorem verdict_saved {m : CourseManager} {env : Surroundings} {out : Outcome} {s : CourseState}
    (h : Saved m env s out.manager) (hn : s.nextPoint ≠ none) :
    Verdict m env out (s.reread = s ∧ ∀ old, m.state = some old → s.Covers old) where
  selfUri := h.store.selfUri
  sound ha ha' := h.sound hn ((h.agrees_iff ha).mp ha').1
  agrees ha := h.agrees_iff ha
  measured _ := h.isMeasured

/-- The course is gone from memory, store and disk. -/
theorem verdict_cleared {m : CourseManager} {env : Surroundings} {out : Outcome}
    (hstate : out.manager.state = none) (hfile : out.manager.stateFile = none)
    (hstore : m.store.Overlaid out.manager.store fun _ => some .null) :
    Verdict m env out True where
  selfUri := hstore.selfUri
  sound _ _ := ⟨hstore.owned, by simp [hstate], by simp [hstate]⟩
  agrees _ := by
    have hblank : ∀ p, Blank (out.manager.store.courseView p) := by
      intro p
      rw [hstore.view]
      exact .inr rfl
    refine iff_true_intro ⟨fun p _ => ?_, fun _ => hblank _, ?_⟩
    · simpa [expected, hstate, Shows] using hblank p
    · simp [savedState, hfile, hstate]
  measured _ s _ _ hs := by
    rw [hstate] at hs
    cases hs

end

end CourseManager
end SignalK

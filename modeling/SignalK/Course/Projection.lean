import SignalK.Course.Manager
import SignalK.Store.Replay

/-! The course in the store: eight paths, the projection of a course state onto
them, and what an emission changes. Only the course manager writes these paths,
so each of its values is accepted. -/
namespace SignalK

inductive CoursePath where
  | nextPosition | nextType | previousPosition | routeHref | startTime | targetArrivalTime
  | arrivalCircle | distanceRemaining
  deriving DecidableEq

namespace CoursePath

def text : CoursePath → String
  | nextPosition => "navigation.course.nextPoint.position"
  | nextType => "navigation.course.nextPoint.type"
  | previousPosition => "navigation.course.previousPoint.position"
  | routeHref => "navigation.course.activeRoute.href"
  | startTime => "navigation.course.startTime"
  | targetArrivalTime => "navigation.course.targetArrivalTime"
  | arrivalCircle => "navigation.course.arrivalCircle"
  | distanceRemaining => "navigation.course.activeRoute.distanceRemaining"

def all : List CoursePath :=
  [nextPosition, nextType, previousPosition, routeHref, startTime, targetArrivalTime,
    arrivalCircle, distanceRemaining]

theorem mem_all (p : CoursePath) : p ∈ all := by
  cases p <;> simp [all]

theorem text_injective : Function.Injective text := by
  intro p q h
  cases p <;> cases q <;> first | rfl | exact absurd h (by decide)

theorem text_ne_position (p : CoursePath) : p.text ≠ "navigation.position" := by
  cases p <;> decide

end CoursePath

/-- What the store should have of a state: the value of each path, none where the
field is absent. The distance is measured, not part of the state. -/
def CourseState.projection (s : CourseState) (distance : Option Json) :
    CoursePath → Option Json
  | .nextPosition => s.nextPoint.map fun p => positionValue p.position
  | .nextType => s.nextPoint.map fun p => p.type_.toValue
  | .previousPosition => s.previousPoint.map fun p => positionValue p.position
  | .routeHref => s.activeRoute.map fun r => .string r.href
  | .startTime => s.startTime.map .string
  | .targetArrivalTime => s.targetArrivalTime.map .string
  | .arrivalCircle => if 0 < s.arrivalCircle then some (.ofF64 s.arrivalCircle) else none
  | .distanceRemaining => distance

/-- The distance that an emission measures: none without a route that resolves. -/
def measured [Geodesy] (resources : Resources) (st : SignalKStore) (s : CourseState) :
    Option Json :=
  s.activeRoute.bind fun route =>
    (resolveRoutePoints resources route.href).toOption.map fun points =>
      metersValue (distanceRemaining st s route points)

/-- The emitted values are the projection, path by path. -/
theorem courseValues_eq [Geodesy] (resources : Resources) (st : SignalKStore) (s : CourseState) :
    courseValues resources st s = CoursePath.all.filterMap fun p =>
      (s.projection (measured resources st s) p).map fun v => ⟨p.text, v⟩ := by
  have hall : CoursePath.all =
      [.nextPosition, .nextType] ++ [.previousPosition] ++ [.routeHref] ++ [.startTime] ++
        [.targetArrivalTime] ++ [.arrivalCircle] ++ [.distanceRemaining] := rfl
  rw [courseValues, hall]
  simp only [List.filterMap_append]
  have happ : ∀ {a b c d : List PathValue}, a = b → c = d → a ++ c = b ++ d :=
    fun h h' => congrArg₂ _ h h'
  refine happ (happ (happ (happ (happ (happ ?_ ?_) ?_) ?_) ?_) ?_) ?_
  · cases hn : s.nextPoint <;> simp [CourseState.projection, hn, CoursePath.text]
  · cases hp : s.previousPoint <;> simp [CourseState.projection, hp, CoursePath.text]
  · cases hr : s.activeRoute <;> simp [CourseState.projection, hr, CoursePath.text]
  · cases ht : s.startTime <;> simp [CourseState.projection, ht, CoursePath.text]
  · cases ht : s.targetArrivalTime <;> simp [CourseState.projection, ht, CoursePath.text]
  · by_cases hc : 0 < s.arrivalCircle <;> simp [CourseState.projection, hc, CoursePath.text]
  · cases hr : s.activeRoute with
    | none => simp [CourseState.projection, measured, hr]
    | some route =>
      cases hp : resolveRoutePoints resources route.href <;>
        simp [CourseState.projection, measured, hr, hp, Except.toOption, CoursePath.text]

/-- The values are those that a function shows on the course paths. -/
def Carries (values : List PathValue) (shown : CoursePath → Option Json) : Prop :=
  ∀ pv, pv ∈ values ↔ ∃ p : CoursePath, pv.path = p.text ∧ shown p = some pv.value

theorem carries_filterMap {paths : List CoursePath} (h : ∀ p, p ∈ paths)
    (shown : CoursePath → Option Json) :
    Carries (paths.filterMap fun p => (shown p).map fun v => ⟨p.text, v⟩) shown := by
  intro pv
  rw [List.mem_filterMap]
  constructor
  · intro hmem
    obtain ⟨p, -, hp⟩ := hmem
    obtain ⟨v, hv, rfl⟩ := Option.map_eq_some_iff.mp hp
    exact ⟨p, rfl, hv⟩
  · intro hex
    obtain ⟨p, hpath, hv⟩ := hex
    exact ⟨p, h p, by rw [hv, Option.map_some, ← hpath]⟩

theorem courseValues_carries [Geodesy] (resources : Resources) (st : SignalKStore)
    (s : CourseState) :
    Carries (courseValues resources st s) (s.projection (measured resources st s)) := by
  rw [courseValues_eq]
  exact carries_filterMap CoursePath.mem_all _

theorem clearValues_carries : Carries clearValues fun _ => some .null := by
  have hclear : clearValues = [CoursePath.nextPosition, .nextType, .arrivalCircle,
      .targetArrivalTime, .previousPosition, .routeHref, .distanceRemaining,
      .startTime].filterMap fun p => (some Json.null).map fun v => ⟨p.text, v⟩ := rfl
  rw [hclear]
  exact carries_filterMap (fun p => by cases p <;> simp) _

namespace SignalKStore

/-- What the store shows on a course path. -/
def courseView (st : SignalKStore) (p : CoursePath) : Option Json :=
  (st.getSelfPath p.text).map SignalKValue.value

/-- The active value of every course path is the course manager's. -/
def CourseOwned (st : SignalKStore) : Prop :=
  ∀ p : CoursePath, ∀ c, st.getSelfPath p.text = some c → c.source = "course-manager"

/-- What an emission changes: it lays some values over the course paths. -/
structure Overlaid (st st' : SignalKStore) (shown : CoursePath → Option Json) : Prop where
  selfUri : st'.selfUri = st.selfUri
  view : ∀ p, st'.courseView p = (shown p).or (st.courseView p)
  owned : st'.CourseOwned
  position : st'.currentVesselPosition = st.currentVesselPosition

theorem currentVesselPosition_congr {st st' : SignalKStore}
    (h : st'.getSelfPath "navigation.position" = st.getSelfPath "navigation.position") :
    st'.currentVesselPosition = st.currentVesselPosition := by
  rw [currentVesselPosition, currentVesselPosition, h]

theorem Overlaid.refl {st : SignalKStore} (h : st.CourseOwned)
    {shown : CoursePath → Option Json} (hs : ∀ p, shown p = none) : Overlaid st st shown where
  selfUri := rfl
  view p := by simp [hs p]
  owned := h
  position := rfl

/-- The course manager's writes to paths that only it has written are accepted. -/
theorem exec_courseWrites (clock : Nat → DateTime) {st : SignalKStore} (timestamp : DateTime)
    {values : List PathValue} {shown : CoursePath → Option Json} (howned : st.CourseOwned)
    (hv : Carries values shown) :
    (Machine.exec Ledger.write st.ledger (Machine.timed clock
      (values.map (Write.of st.selfUri "course-manager" timestamp)))).2 =
      values.map (Write.of st.selfUri "course-manager" timestamp) := by
  have hmem : ∀ tw ∈ Machine.timed clock
      (values.map (Write.of st.selfUri "course-manager" timestamp)),
      ∃ pv ∈ values, tw.2 = Write.of st.selfUri "course-manager" timestamp pv := by
    intro tw htw
    have hsnd := List.mem_map_of_mem (f := Prod.snd) htw
    rw [Machine.timed_snd] at hsnd
    obtain ⟨pv, hpv, he⟩ := List.mem_map.mp hsnd
    exact ⟨pv, hpv, he.symm⟩
  rw [Ledger.exec_unrivalled (s := "course-manager"), Machine.timed_snd]
  · intro tw htw
    obtain ⟨pv, -, he⟩ := hmem tw htw
    rw [he]
    rfl
  · intro tw htw c hc
    obtain ⟨pv, hpv, he⟩ := hmem tw htw
    obtain ⟨p, hp, -⟩ := (hv pv).mp hpv
    rw [he] at hc
    refine howned p c ?_
    rw [← hp]
    exact hc

theorem applyDelta_course [JsonText] (clock : Nat → DateTime) {st : SignalKStore}
    (timestamp : DateTime) {values : List PathValue} {shown : CoursePath → Option Json}
    (howned : st.CourseOwned) (hv : Carries values shown) :
    let st' := (st.applyDelta clock
      (Delta.selfVessel [⟨Source.plugin "course-manager", timestamp, values⟩])).1
    st'.selfUri = st.selfUri ∧ st'.getVesselPath =
      (values.map (Write.of st.selfUri "course-manager" timestamp)).foldl
        (fun active w => Keyed.set₂ active w.vessel w.path (some w.entry)) st.getVesselPath := by
  intro st'
  have hsrc : makeSourceRef (Source.plugin "course-manager") = "course-manager" := by
    simp [makeSourceRef, Source.plugin]
  have hl := st.applyDelta_ledger clock
    (Delta.selfVessel [⟨Source.plugin "course-manager", timestamp, values⟩])
  rw [deltaWrites_selfVessel, hsrc] at hl
  constructor
  · have hself := congrArg Ledger.self hl
    rw [Ledger.exec_self] at hself
    exact hself
  · have hactive := congrArg Ledger.active hl
    rw [Ledger.exec_active, exec_courseWrites clock timestamp howned hv] at hactive
    exact hactive

/-- A delta of the course manager lays its values over the course paths and
touches nothing else. -/
theorem applyDelta_overlaid [JsonText] (clock : Nat → DateTime) {st : SignalKStore}
    (timestamp : DateTime) {values : List PathValue} {shown : CoursePath → Option Json}
    (howned : st.CourseOwned) (hv : Carries values shown) :
    Overlaid st (st.applyDelta clock
      (Delta.selfVessel [⟨Source.plugin "course-manager", timestamp, values⟩])).1 shown := by
  obtain ⟨hself, hactive⟩ := applyDelta_course clock timestamp howned hv
  generalize (st.applyDelta clock
    (Delta.selfVessel [⟨Source.plugin "course-manager", timestamp, values⟩])).1 = st'
    at hself hactive ⊢
  have hkeep : ∀ path, (∀ pv ∈ values, pv.path ≠ path) →
      st'.getSelfPath path = st.getSelfPath path := by
    intro path hne
    rw [getSelfPath, hself, hactive]
    refine Keyed.foldl_set₂_ne _ _ _ (fun w hw _ => ?_) _
    obtain ⟨pv, hpv, rfl⟩ := List.mem_map.mp hw
    exact hne pv hpv
  have hnone : ∀ p, shown p = none → st'.getSelfPath p.text = st.getSelfPath p.text := by
    intro p hp
    refine hkeep p.text fun pv hpv he => ?_
    obtain ⟨q, hq, hs⟩ := (hv pv).mp hpv
    rw [CoursePath.text_injective (hq.symm.trans he), hp] at hs
    cases hs
  have hsome : ∀ p v, shown p = some v →
      st'.getSelfPath p.text = some (SignalKValue.new v "course-manager" timestamp) := by
    intro p v hp
    have hmem : (⟨p.text, v⟩ : PathValue) ∈ values := (hv _).mpr ⟨p, rfl, hp⟩
    rw [getSelfPath, hself, hactive]
    refine Keyed.foldl_set₂_eq _ _ _ (fun w hw _ hwp => ?_) _
      (.inr ⟨_, List.mem_map_of_mem hmem, rfl, rfl⟩)
    obtain ⟨pv, hpv, rfl⟩ := List.mem_map.mp hw
    obtain ⟨q, hq, hs⟩ := (hv pv).mp hpv
    have hqp : q = p := CoursePath.text_injective (hq.symm.trans hwp)
    rw [hqp, hp] at hs
    rw [Option.some.inj hs]
    rfl
  refine ⟨hself, fun p => ?_, fun p c hc => ?_, currentVesselPosition_congr ?_⟩
  · cases hp : shown p with
    | none => rw [courseView, hnone p hp, Option.none_or, courseView]
    | some v => rw [courseView, hsome p v hp, Option.some_or, Option.map_some, SignalKValue.new]
  · cases hp : shown p with
    | none => exact howned p c ((hnone p hp).symm.trans hc)
    | some v =>
      rw [hsome p v hp] at hc
      rw [← Option.some.inj hc, SignalKValue.new]
  · refine hkeep _ fun pv hpv he => ?_
    obtain ⟨p, hp, -⟩ := (hv pv).mp hpv
    exact p.text_ne_position (hp.symm.trans he)

/-- An event that addresses no course path of the own vessel. -/
def LeavesCourse [JsonText] (selfUri : String) : StoreEvent → Prop
  | .applyDelta _ delta =>
    ∀ w ∈ deltaWrites selfUri delta, w.vessel = selfUri → ∀ p : CoursePath, w.path ≠ p.text
  | _ => True

theorem step_getSelfPath [JsonText] {st : SignalKStore} {e : StoreEvent}
    (h : LeavesCourse st.selfUri e) (p : CoursePath) :
    (st.step e).1.getSelfPath p.text = st.getSelfPath p.text := by
  rw [getSelfPath, Replay.step_selfUri]
  cases e with
  | applyDelta clock delta =>
    have hactive := congrArg Ledger.active (st.applyDelta_ledger clock delta)
    rw [Ledger.exec_active] at hactive
    refine (congrFun (congrFun hactive st.selfUri) p.text).trans ?_
    refine Keyed.foldl_set₂_ne _ _ _ (fun w hw hvessel => ?_) _
    have hmem := Ledger.exec_emitted hw
    rw [Machine.timed_snd] at hmem
    exact h w hmem hvessel p
  | setSourcePriorities priorities => rfl
  | setSourceTtls ttls => rfl
  | setVesselIdentity uri name mmsi =>
    have hactive := congrArg Ledger.active (st.setVesselIdentity_ledger uri name mmsi)
    exact congrFun (congrFun hactive st.selfUri) p.text

end SignalKStore
end SignalK

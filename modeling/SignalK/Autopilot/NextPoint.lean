import SignalK.Autopilot.State
import SignalK.Course.Atomicity
import SignalK.Plugins.Manager

/-! The request for the next point of the route. The handler advances the course before it
looks for the autopilot, and nothing takes the advance back. -/
namespace SignalK.Plugins

namespace AutopilotManager
variable {H : Type}

def get (m : AutopilotManager H) (id : String) : Option H :=
  (m.providers.lookup id).map (·.provider)

def resolveId (m : AutopilotManager H) (id : String) : Option String :=
  if id = "_default" then m.defaultId
  else if (m.providers.lookup id).isSome then some id
  else none

/-- `resolve_provider!` -/
def resolveProvider (m : AutopilotManager H) (deviceId : String) : Option H :=
  (m.resolveId deviceId).bind m.get

end AutopilotManager

/-- What a request to an autopilot is answered. -/
inductive AutopilotReply where
  | noContent
  | badRequest (message : String)
  | notFound (message : String)
  | internalServerError (message : String)
  deriving DecidableEq

namespace AutopilotReply

def pluginErr : PluginError → AutopilotReply
  | .notFound message => .notFound (PluginError.notFound message).text
  | .badRequest message => .badRequest (PluginError.badRequest message).text
  | e => .internalServerError e.text

end AutopilotReply

/-- The course, the registered providers and the state behind each of them. -/
structure CourseAutopilots (H : Type) where
  courseManager : CourseManager
  autopilotManager : AutopilotManager H
  pilots : H → AutopilotState

/-- A request, with what it finds around it. -/
structure NextPointRequest where
  deviceId : String
  env : Surroundings
  disk : Disk

namespace CourseAutopilots
variable {H : Type} [DecidableEq H] [AngleMath] [JsonText] [Geodesy]

def courseNextPoint (s : CourseAutopilots H) (r : NextPointRequest) :
    CourseAutopilots H × AutopilotReply :=
  let advanced := s.courseManager.attempt r.env r.disk (.advanceNextPoint 1)
  let s := { s with courseManager := advanced.manager }
  match advanced.result with
  | .error e => (s, .badRequest ("Failed to advance waypoint: " ++ e.text))
  | .ok () =>
    match s.autopilotManager.resolveProvider r.deviceId with
    | none => (s, .notFound ("Autopilot not found: " ++ r.deviceId))
    | some provider =>
      match (s.pilots provider).call .courseNextPoint with
      | .ok st => ({ s with pilots := Function.update s.pilots provider st }, .noContent)
      | .error e => (s, .pluginErr e)

/-- The course, its file and its store, and what a client sees of the autopilots. -/
structure Unchanged (s s' : CourseAutopilots H) : Prop where
  state : s'.courseManager.state = s.courseManager.state
  file : s'.courseManager.stateFile = s.courseManager.stateFile
  store : ∀ path, s'.courseManager.store.getSelfPath path = s.courseManager.store.getSelfPath path
  mode : ∀ h, (s'.pilots h).mode = (s.pilots h).mode
  target : ∀ h, (s'.pilots h).targetRad = (s.pilots h).targetRad
  enabled : ∀ h, (s'.pilots h).enabled = (s.pilots h).enabled

/-- The route has gone on by one point, which the course heads for. -/
def AdvancedByOne (resources : Resources) (m m' : CourseManager) : Prop :=
  ∃ course course' route route' points, m.state = some course ∧ m'.state = some course' ∧
    course.activeRoute = some route ∧ course'.activeRoute = some route' ∧
    resolveRoutePoints resources route.href = .ok points ∧
    route'.pointIndex.toNat = route.pointIndex.toNat + 1 ∧
    course'.nextPoint =
      (directed route.reverse points)[route'.pointIndex.toNat]?.map CoursePoint.onRoute

def Engaged (m : AutopilotManager H) (pilots : H → AutopilotState) (deviceId : String) : Prop :=
  ∃ provider, m.resolveProvider deviceId = some provider ∧
    (pilots provider).enabled = true ∧ (pilots provider).mode = .route

def AllOrNothing (s : CourseAutopilots H) (r : NextPointRequest) : Prop :=
  let out := s.courseNextPoint r
  (out.2 ≠ .noContent → s.Unchanged out.1) ∧
    (out.2 = .noContent →
      AdvancedByOne r.env.resources s.courseManager out.1.courseManager ∧
        Engaged s.autopilotManager out.1.pilots r.deviceId)

omit [DecidableEq H] [AngleMath] [JsonText] [Geodesy] in
/-- Whenever there is a next point to go to, the course can be saved and the autopilot is
there; the index of the point is not the largest of its type. -/
def Coordinated (s : CourseAutopilots H) (r : NextPointRequest) : Prop :=
  ∀ course route points, s.courseManager.following = .ok (course, route) →
    resolveRoutePoints r.env.resources route.href = .ok points →
    let newIndex := route.pointIndex.toInt64 + 1
    0 ≤ newIndex → newIndex.toUInt64.toNat < points.length →
      r.disk.Saves ∧ (s.autopilotManager.resolveProvider r.deviceId).isSome = true ∧
        route.pointIndex.toNat + 1 < UInt64.size

end CourseAutopilots
end Plugins

/-! The advance alone. -/

namespace CourseManager
variable [JsonText] [Geodesy]

omit [JsonText] [Geodesy] in
/-- Either there is no next point, and nothing has changed, or the course heads for it. -/
theorem advanced_cases (env : Surroundings) (m : CourseManager) :
    (∃ e, m.advanced env 1 = m.unchanged e ∧
      ∀ course route points, m.following = .ok (course, route) →
        resolveRoutePoints env.resources route.href = .ok points →
        0 ≤ route.pointIndex.toInt64 + 1 →
          ¬ (route.pointIndex.toInt64 + 1).toUInt64.toNat < points.length) ∨
    ∃ course route points, m.following = .ok (course, route) ∧
      resolveRoutePoints env.resources route.href = .ok points ∧
      0 ≤ route.pointIndex.toInt64 + 1 ∧
      (route.pointIndex.toInt64 + 1).toUInt64.toNat < points.length ∧
      m.advanced env 1 =
        changed (heading course route points (route.pointIndex.toInt64 + 1).toUInt64) := by
  cases hf : m.following with
  | error e =>
    left
    exact ⟨e, by rw [advanced, hf], fun _ _ _ h => by cases h⟩
  | ok followed =>
    obtain ⟨course, route⟩ := followed
    cases hp : resolveRoutePoints env.resources route.href with
    | error e =>
      left
      refine ⟨e, by simp only [advanced, hf, hp], fun course' route' points h hp' => ?_⟩
      cases h
      cases hp.symm.trans hp'
    | ok points =>
      by_cases hout : route.pointIndex.toInt64 + 1 < 0 ∨
          points.length ≤ (route.pointIndex.toInt64 + 1).toUInt64.toNat
      · left
        refine ⟨outOfRange (toString (route.pointIndex.toInt64 + 1)) (toString points.length),
          ?_, fun course' route' points' h hp' hlow hhigh => ?_⟩
        · simp only [advanced, hf, hp]
          exact if_pos hout
        · cases h
          obtain rfl := Except.ok.inj (hp.symm.trans hp')
          obtain hneg | hlarge := hout
          · exact Int64.not_lt.mpr hlow hneg
          · omega
      · right
        obtain ⟨hlow, hhigh⟩ := not_or.mp hout
        refine ⟨course, route, points, rfl, hp, Int64.not_lt.mp hlow, by omega, ?_⟩
        simp only [advanced, hf, hp]
        exact if_neg hout

theorem attempt_unchanged {m : CourseManager} {env : Surroundings} {e : PluginError}
    (h : m.advanced env 1 = m.unchanged e) (disk : Disk) :
    m.attempt env disk (.advanceNextPoint 1) = ⟨m, [], .error e⟩ := by
  simp [attempt, CourseThread.ofOp, CourseThread.revise, Thread.alone, h, unchanged,
    CourseThread.outcome, Tracked.setState, broadcasts]

/-- The course in memory is changed whether or not it can be saved. -/
theorem attempt_changed {m : CourseManager} {env : Surroundings} {state : CourseState}
    (h : m.advanced env 1 = changed state) (disk : Disk) :
    (m.attempt env disk (.advanceNextPoint 1)).manager.state = some state ∧
      ((m.attempt env disk (.advanceNextPoint 1)).result = .ok () ↔ disk.Saves) := by
  simp only [attempt, CourseThread.ofOp, CourseThread.revise, Thread.alone, h, changed,
    CourseThread.alone_persistState]
  generalize ht : (⟨m, {}⟩ : Tracked).setState (some state) .api = t
  have htm : t.manager = { m with state := some state } := by
    rw [← ht]
    rfl
  obtain ⟨doc, hdoc⟩ := CourseThread.persisted_frame disk (some state) .api t
  rw [htm] at hdoc
  have hsaves := CourseThread.persisted_ok_iff disk state .api t
  cases hr : (CourseThread.persisted disk (some state) .api t).2 with
  | error e =>
    rw [hr] at hsaves
    simp only [CourseThread.orReturn, Thread.alone, CourseThread.outcome, hdoc]
    exact ⟨trivial, hsaves⟩
  | ok u =>
    rw [hr] at hsaves
    have hout := CourseThread.outcome_emitDeltas env state (.done (.ok ()))
      (CourseThread.persisted disk (some state) .api t).1
    have hstate := congrArg (·.manager.state) hout
    have hresult := congrArg Outcome.result hout
    have hkept := (emitDeltas_frame (CourseThread.persisted disk (some state) .api t).1.manager
      env state).1
    have hmemory := congrArg CourseManager.state hdoc
    exact ⟨hstate.trans (hkept.trans hmemory), by rw [← hsaves]; exact Eq.congr_left hresult⟩

end CourseManager

theorem next_index (i : UInt64) : (i.toInt64 + 1).toUInt64 = i + 1 := by
  rw [Int64.toUInt64_add]
  rfl

theorem next_index_ne (i : UInt64) : i + 1 ≠ i := by
  intro h
  have hmod := congrArg UInt64.toNat h
  rw [UInt64.toNat_add] at hmod
  have hlt := i.toNat_lt
  simp only [UInt64.reduceToNat] at hmod
  omega

theorem next_index_toNat (i : UInt64) :
    (i + 1).toNat = i.toNat + 1 ↔ i.toNat + 1 < UInt64.size := by
  have hlt := (i + 1).toNat_lt
  rw [UInt64.toNat_add] at hlt ⊢
  simp only [UInt64.reduceToNat, UInt64.size] at hlt ⊢
  omega

namespace Plugins.CourseAutopilots
open CourseManager
variable {H : Type} [DecidableEq H] [AngleMath] [JsonText] [Geodesy]

/-- What a request does, by the place where it ends. -/
theorem courseNextPoint_cases (s : CourseAutopilots H) (r : NextPointRequest) :
    (∃ e, s.courseManager.advanced r.env 1 = s.courseManager.unchanged e ∧
      s.courseNextPoint r = (s, .badRequest ("Failed to advance waypoint: " ++ e.text))) ∨
    ∃ state, s.courseManager.advanced r.env 1 = changed state ∧
      (s.courseNextPoint r).1.courseManager.state = some state ∧
      ((s.courseNextPoint r).2 = .noContent ↔
        r.disk.Saves ∧ (s.autopilotManager.resolveProvider r.deviceId).isSome = true) ∧
      ∀ provider, r.disk.Saves → s.autopilotManager.resolveProvider r.deviceId = some provider →
        ((s.courseNextPoint r).1.pilots provider).enabled = true ∧
          ((s.courseNextPoint r).1.pilots provider).mode = .route := by
  obtain ⟨e, he, -⟩ | ⟨course, route, points, -, -, -, -, hc⟩ :=
    advanced_cases r.env s.courseManager
  · left
    refine ⟨e, he, ?_⟩
    simp only [courseNextPoint, attempt_unchanged he]
  · right
    refine ⟨_, hc, ?_⟩
    obtain ⟨hstate, hsaves⟩ := attempt_changed hc r.disk
    simp only [courseNextPoint]
    generalize s.courseManager.attempt r.env r.disk (.advanceNextPoint 1) = advanced at *
    cases hr : advanced.result with
    | error e =>
      rw [hr] at hsaves
      have hno : ¬ r.disk.Saves := fun hs => nomatch hsaves.mpr hs
      exact ⟨hstate, iff_of_false (fun h => nomatch h) fun h => hno h.1,
        fun _ hs _ => absurd hs hno⟩
    | ok u =>
      rw [hr] at hsaves
      have hs : r.disk.Saves := hsaves.mp rfl
      cases hp : s.autopilotManager.resolveProvider r.deviceId with
      | none =>
        exact ⟨hstate, iff_of_false (fun h => nomatch h) fun h => (nomatch h.2),
          fun _ _ h => nomatch h⟩
      | some provider =>
        by_cases hmode : (s.pilots provider).mode = .route
        · simp only [AutopilotState.call, hmode]
          refine ⟨hstate, iff_of_true rfl ⟨hs, rfl⟩, fun p _ hsome => ?_⟩
          obtain rfl := Option.some.inj hsome
          simp [AutopilotState.enable, hmode]
        · simp only [AutopilotState.call, ne_eq, hmode, not_false_eq_true, if_true]
          refine ⟨hstate, iff_of_true trivial ⟨hs, rfl⟩, fun p _ hsome => ?_⟩
          obtain rfl := Option.some.inj hsome
          simp [AutopilotState.enable, AutopilotState.switch]

/-- A request is answered with a failure and changes nothing, or goes on by one point,
exactly when the course that would advance can be saved and the autopilot is there. -/
theorem nextPoint_all_or_nothing_iff (s : CourseAutopilots H) (r : NextPointRequest) :
    s.AllOrNothing r ↔ s.Coordinated r := by
  obtain ⟨e, he, hout⟩ | ⟨state, hc, hstate, hreply, hpilot⟩ := s.courseNextPoint_cases r
  · have hall : s.AllOrNothing r := by
      rw [AllOrNothing, hout]
      exact ⟨fun _ => ⟨rfl, rfl, fun _ => rfl, fun _ => rfl, fun _ => rfl, fun _ => rfl⟩,
        fun h => nomatch h⟩
    refine iff_of_true hall fun course route points hf hp hlow hhigh => ?_
    obtain ⟨e', -, hnone⟩ | ⟨_, _, _, -, -, -, -, hc⟩ := advanced_cases r.env s.courseManager
    · exact absurd hhigh (hnone course route points hf hp hlow)
    · have hsaved := congrArg Revision.saved (he.symm.trans hc)
      cases hsaved
  · obtain ⟨e, he, -⟩ | ⟨course, route, points, hf, hp, hlow, hhigh, hc'⟩ :=
      advanced_cases r.env s.courseManager
    · have hsaved := congrArg Revision.saved (he.symm.trans hc)
      cases hsaved
    obtain ⟨hcourse, hroute⟩ := following_eq_ok.mp hf
    have hheading : state = heading course route points (route.pointIndex + 1) := by
      rw [← next_index]
      exact Option.some.inj (congrArg Revision.state (hc.symm.trans hc'))
    subst hheading
    have hchanged : ¬ s.Unchanged (s.courseNextPoint r).1 := by
      intro hsame
      have hstill := hstate.symm.trans (hsame.state.trans hcourse)
      have hroutes := congrArg CourseState.activeRoute (Option.some.inj hstill)
      rw [hroute] at hroutes
      exact next_index_ne _ (congrArg ActiveRoute.pointIndex (Option.some.inj hroutes))
    constructor
    · intro hall course' route' points' hf' hp' newIndex _ _
      obtain ⟨rfl, rfl⟩ := Prod.mk.inj (Except.ok.inj (hf.symm.trans hf'))
      have hno : (s.courseNextPoint r).2 = .noContent := by
        by_contra hne
        exact hchanged (hall.1 hne)
      obtain ⟨hsaves, hprovider⟩ := hreply.mp hno
      obtain ⟨course₀, course₁, route₀, route₁, points₀, h₀, h₁, hr₀, hr₁, -, hindex, -⟩ :=
        (hall.2 hno).1
      obtain rfl := Option.some.inj (hcourse.symm.trans h₀)
      obtain rfl := Option.some.inj (hstate.symm.trans h₁)
      obtain rfl := Option.some.inj (hroute.symm.trans hr₀)
      obtain rfl := Option.some.inj hr₁
      exact ⟨hsaves, hprovider, (next_index_toNat _).mp hindex⟩
    · intro hcoord
      obtain ⟨hsaves, hprovider, hsize⟩ := hcoord course route points hf hp hlow hhigh
      obtain ⟨provider, hsome⟩ := Option.isSome_iff_exists.mp hprovider
      have hno : (s.courseNextPoint r).2 = .noContent := hreply.mpr ⟨hsaves, hprovider⟩
      refine ⟨fun hne => absurd hno hne, fun _ => ⟨?_, ⟨provider, hsome, hpilot provider hsaves hsome⟩⟩⟩
      exact ⟨course, _, route, _, points, hcourse, hstate, hroute, rfl, hp,
        (next_index_toNat _).mpr hsize, rfl⟩

end Plugins.CourseAutopilots

namespace Plugins

section
attribute [local instance] AngleMath.plain JsonText.unused Geodesy.unused

/-- One autopilot, the default one, and a course along a route of two points. -/
def oneAutopilot : CourseAutopilots Unit where
  courseManager := Machine.run CourseManager.attemptStep
    (CourseManager.new (SignalKStore.new "urn:mrn:signalk:uuid:test"))
    [.op CourseManager.twoPointRoute Disk.working
      (.setActiveRoute ⟨"/resources/routes/r", false⟩)]
  autopilotManager := AutopilotManager.register ⟨∅, none⟩ "default" () "autopilot"
  pilots _ := .new .compass

/-- A request that cannot find its autopilot, and one that cannot save the course. -/
theorem failed_request_advances :
    let unknown := oneAutopilot.courseNextPoint
      ⟨"no-such", CourseManager.twoPointRoute, Disk.working⟩
    let unsaved := oneAutopilot.courseNextPoint
      ⟨"_default", CourseManager.twoPointRoute, ⟨.error "read-only", .ok (), true⟩⟩
    (unknown.2 = .notFound "Autopilot not found: no-such" ∧
      ¬ oneAutopilot.AllOrNothing ⟨"no-such", CourseManager.twoPointRoute, Disk.working⟩) ∧
    unsaved.2 = .badRequest
        "Failed to advance waypoint: runtime error: mkdir course dir: read-only" ∧
      ¬ oneAutopilot.AllOrNothing
        ⟨"_default", CourseManager.twoPointRoute, ⟨.error "read-only", .ok (), true⟩⟩ := by
  intro unknown unsaved
  have hbefore : (oneAutopilot.courseManager.state.bind CourseState.activeRoute).map
      ActiveRoute.pointIndex = some 0 := by
    decide +kernel
  have hunknown : unknown.2 = .notFound "Autopilot not found: no-such" := by decide +kernel
  have hunsaved : unsaved.2 = .badRequest
      "Failed to advance waypoint: runtime error: mkdir course dir: read-only" := by
    decide +kernel
  refine ⟨⟨hunknown, fun hall => ?_⟩, hunsaved, fun hall => ?_⟩
  · have hsame := (hall.1 (by rw [hunknown]; decide)).state
    have hafter : (unknown.1.courseManager.state.bind CourseState.activeRoute).map
        ActiveRoute.pointIndex = some 1 := by
      decide +kernel
    rw [hsame, hbefore] at hafter
    cases hafter
  · have hsame := (hall.1 (by rw [hunsaved]; decide)).state
    have hafter : (unsaved.1.courseManager.state.bind CourseState.activeRoute).map
        ActiveRoute.pointIndex = some 1 := by
      decide +kernel
    rw [hsame, hbefore] at hafter
    cases hafter

end
end Plugins
end SignalK

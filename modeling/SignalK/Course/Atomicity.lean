import SignalK.Course.Calls
import SignalK.Course.Coverage

/-! A call with nothing in between. When the file system works it is the operation
of the manager; when it fails, or a resource is missing, what was changed before
the failure stays changed. -/
namespace SignalK
namespace CourseThread

section
variable {ρ : Type}

theorem alone_look {α : Type} (f : CourseManager → α) (k : α → CourseThread ρ) (t : Tracked) :
    (look f k).alone t = (k (f t.manager)).alone t := rfl

theorem alone_write (f : Tracked → Tracked) (k : CourseThread ρ) (t : Tracked) :
    (write f k).alone t = k.alone (f t) := rfl

/-- What `persist_state` does to the file, and its result. -/
def persisted (disk : Disk) (state : Option CourseState) (setBy : CourseSource) (t : Tracked) :
    Tracked × CourseResult :=
  match disk.mkdir with
  | .error e => (t, .error (.runtime ("mkdir course dir: " ++ e)))
  | .ok () =>
    match state with
    | some state =>
      match disk.write with
      | .error (e, left) => (t.setFile left setBy, .error (.runtime ("write course state: " ++ e)))
      | .ok () => (t.setFile (some state.toValue) setBy, .ok ())
    | none => (if disk.removes then t.setFile none setBy else t, .ok ())

theorem alone_persistState (disk : Disk) (state : Option CourseState) (setBy : CourseSource)
    (k : CourseResult → CourseThread ρ) (t : Tracked) :
    (persistState disk state setBy k).alone t =
      (k (persisted disk state setBy t).2).alone (persisted disk state setBy t).1 := by
  cases hm : disk.mkdir with
  | error e => simp [persistState, persisted, hm]
  | ok u =>
    cases state with
    | some state =>
      cases hw : disk.write <;> simp [persistState, persisted, hm, hw, alone_write]
    | none =>
      by_cases hr : disk.removes <;> simp [persistState, persisted, hm, hr, alone_write]

/-- Only the file is touched. -/
theorem persisted_frame (disk : Disk) (state : Option CourseState) (setBy : CourseSource)
    (t : Tracked) :
    ∃ doc, (persisted disk state setBy t).1.manager = { t.manager with stateFile := doc } := by
  unfold persisted
  split
  · exact ⟨_, rfl⟩
  · split
    · split <;> exact ⟨_, rfl⟩
    · split <;> exact ⟨_, rfl⟩

theorem persisted_working (state : Option CourseState) (setBy : CourseSource) (t : Tracked) :
    persisted Disk.working state setBy t =
      (t.setFile (state.map CourseState.toValue) setBy, .ok ()) := by
  cases state <;> rfl

end

/-- What the caller and the listeners of the store see of a call. -/
def outcome (out : (Tracked × List CourseNote) × CourseResult) : Outcome :=
  ⟨out.1.1.manager, broadcasts out.1.2, out.2⟩

theorem broadcasts_append (notes notes' : List CourseNote) :
    broadcasts (notes ++ notes') = broadcasts notes ++ broadcasts notes' :=
  List.filterMap_append

theorem broadcasts_map (deltas : List Delta) :
    broadcasts (deltas.map .broadcast) = deltas := by
  induction deltas with
  | nil => rfl
  | cons delta deltas ih => exact congrArg (List.cons delta) ih

section
variable [JsonText]

theorem outcome_emit (env : Surroundings) (values : List PathValue)
    (k : CourseThread CourseResult) (t : Tracked) :
    outcome ((emit env values k).alone t) =
      let emitted := t.manager.applyDelta env values
      let rest := outcome (k.alone { t with manager := emitted.1 })
      ⟨rest.manager, emitted.2 ++ rest.broadcast, rest.result⟩ := by
  simp [emit, Thread.alone, outcome, broadcasts_append, broadcasts_map]

theorem outcome_clear (env : Surroundings) (t : Tracked) :
    outcome ((clear env Disk.working).alone t) = t.manager.clear env := by
  rw [clear, alone_write, alone_persistState, persisted_working]
  refine (outcome_emit env clearValues _ _).trans ?_
  simp [Thread.alone, outcome, broadcasts, CourseManager.clear, CourseManager.emitClearDeltas,
    CourseManager.persistState, Tracked.setFile, Tracked.setState]

theorem outcome_enableApiOnly (env : Surroundings) (t : Tracked) :
    outcome ((enableApiOnly env Disk.working).alone t) = t.manager.enableApiOnly env := by
  rw [enableApiOnly, alone_write, enableApiOnly.examine, alone_look]
  by_cases hs : t.manager.source = .nmea
  · rw [if_pos (by simpa [Tracked.setConfig] using hs)]
    rw [enableApiOnly.forget, alone_write, enableApiOnly.disown, alone_write]
    refine (outcome_emit env clearValues _ _).trans ?_
    simp only [enableApiOnly.erase, alone_persistState, persisted_working]
    simp [enableApiOnly.finish, alone_write, Thread.alone, outcome, broadcasts, hs,
      CourseManager.enableApiOnly, CourseManager.emitClearDeltas, CourseManager.persistState,
      Tracked.setFile, Tracked.setState, Tracked.setSource, Tracked.setConfig,
      Tracked.setApiOnly]
  · rw [if_neg (by simpa [Tracked.setConfig] using hs)]
    simp [enableApiOnly.finish, alone_write, Thread.alone, outcome, broadcasts, hs,
      CourseManager.enableApiOnly, CourseManager.done, Tracked.setConfig, Tracked.setApiOnly]

end

section
variable [JsonText] [Geodesy]

theorem outcome_emitDeltas (env : Surroundings) (state : CourseState)
    (k : CourseThread CourseResult) (t : Tracked) :
    outcome ((emitDeltas env state k).alone t) =
      let emitted := t.manager.emitDeltas env state
      let rest := outcome (k.alone { t with manager := emitted.1 })
      ⟨rest.manager, emitted.2 ++ rest.broadcast, rest.result⟩ := by
  by_cases hv : courseValues env.resources t.manager.store state = []
  · simp [emitDeltas, alone_look, CourseManager.emitDeltas, hv, outcome]
  · simp [emitDeltas, alone_look, CourseManager.emitDeltas, hv, outcome_emit]

theorem outcome_replace (env : Surroundings) (state : CourseState) (source : CourseSource)
    (t : Tracked) :
    outcome ((replace env Disk.working state source).alone t) =
      t.manager.replace env state source := by
  rw [replace, alone_persistState, persisted_working]
  refine (outcome_emitDeltas env state _ _).trans ?_
  simp [alone_write, Thread.alone, outcome, broadcasts, CourseManager.replace,
    CourseManager.persistState, Tracked.setFile, Tracked.setState, Tracked.setSource]

/-- What is done with a revision when the file can be written. -/
def settle (env : Surroundings) (m : CourseManager) (r : Revision) : Outcome :=
  let m := { m with state := r.state }
  match r.saved with
  | .error e => m.fail e
  | .ok none => m.done
  | .ok (some state) =>
    let emitted := (m.persistState (some state)).emitDeltas env state
    ⟨emitted.1, emitted.2, .ok ()⟩

theorem outcome_revise (env : Surroundings) (f : CourseManager → Revision) (t : Tracked) :
    outcome ((revise env Disk.working f fun _ => []).alone t) =
      settle env t.manager (f t.manager) := by
  cases hs : (f t.manager).saved with
  | error e =>
    simp [revise, Thread.alone, settle, hs, outcome, broadcasts, CourseManager.fail,
      Tracked.setState]
  | ok saved =>
    cases saved with
    | none =>
      simp [revise, Thread.alone, settle, hs, outcome, broadcasts, CourseManager.done,
        Tracked.setState]
    | some state =>
      have hrest := outcome_emitDeltas env state (.done (.ok ()))
        ((t.setState (f t.manager).state t.history.setBy).setFile (some state.toValue)
          t.history.setBy)
      simp only [revise, Thread.alone, hs, alone_persistState, persisted_working, orReturn,
        settle]
      simpa [Thread.alone, outcome, broadcasts, CourseManager.persistState, Tracked.setFile,
        Tracked.setState] using hrest

@[simp] theorem settle_unchanged (env : Surroundings) (m : CourseManager) (e : PluginError) :
    settle env m (m.unchanged e) = m.fail e := rfl

@[simp] theorem settle_changed (env : Surroundings) (m : CourseManager) (state : CourseState) :
    settle env m (CourseManager.changed state) = m.update env state := rfl

theorem settle_advanced (env : Surroundings) (delta : Int32) (m : CourseManager) :
    settle env m (m.advanced env delta) = m.advanceNextPoint env delta := by
  cases hf : m.following with
  | error e => simp only [CourseManager.advanced, CourseManager.advanceNextPoint, hf, settle_unchanged]
  | ok followed =>
    obtain ⟨course, route⟩ := followed
    cases hp : resolveRoutePoints env.resources route.href with
    | error e => simp only [CourseManager.advanced, CourseManager.advanceNextPoint, hf, hp, settle_unchanged]
    | ok points =>
      simp only [CourseManager.advanced, CourseManager.advanceNextPoint, hf, hp]
      split_ifs <;> rfl

theorem settle_pointedAt (env : Surroundings) (index : UInt64) (m : CourseManager) :
    settle env m (m.pointedAt env index) = m.setPointIndex env index := by
  cases hf : m.following with
  | error e => simp only [CourseManager.pointedAt, CourseManager.setPointIndex, hf, settle_unchanged]
  | ok followed =>
    obtain ⟨course, route⟩ := followed
    cases hp : resolveRoutePoints env.resources route.href with
    | error e => simp only [CourseManager.pointedAt, CourseManager.setPointIndex, hf, hp, settle_unchanged]
    | ok points =>
      simp only [CourseManager.pointedAt, CourseManager.setPointIndex, hf, hp]
      split_ifs <;> rfl

theorem settle_reversed (env : Surroundings) (m : CourseManager) :
    settle env m (m.reversed env) = m.reverseRoute env := by
  cases hf : m.following with
  | error e => simp only [CourseManager.reversed, CourseManager.reverseRoute, hf, settle_unchanged]
  | ok followed =>
    obtain ⟨course, route⟩ := followed
    cases hp : resolveRoutePoints env.resources route.href with
    | error e =>
      simp only [CourseManager.reversed, CourseManager.reverseRoute, hf, hp]
      rfl
    | ok points =>
      simp only [CourseManager.reversed, CourseManager.reverseRoute, hf, hp]
      rfl

/-- With a working file system a call that meets no other is the operation. -/
theorem outcome_ofOp (env : Surroundings) (op : CourseOp) (t : Tracked) :
    outcome ((ofOp env Disk.working op).alone t) = t.manager.apply env op := by
  cases op with
  | setDestination req =>
    simp only [ofOp, setDestination, CourseManager.apply, CourseManager.setDestination]
    cases CourseManager.destinationPosition env req with
    | error e => rfl
    | ok position => exact outcome_replace env _ _ t
  | setActiveRoute req =>
    simp only [ofOp, setActiveRoute, CourseManager.apply, CourseManager.setActiveRoute]
    cases resolveRoutePoints env.resources req.href with
    | error e => rfl
    | ok routePoints =>
      simp only
      generalize directed req.reverse routePoints = points
      cases points with
      | nil => rfl
      | cons first rest => exact outcome_replace env _ _ t
  | advanceNextPoint delta => exact (outcome_revise env _ t).trans (settle_advanced env delta _)
  | setPointIndex index => exact (outcome_revise env _ t).trans (settle_pointedAt env index _)
  | reverseRoute => exact (outcome_revise env _ t).trans (settle_reversed env _)
  | setTargetArrivalTime time =>
    refine (outcome_revise env _ t).trans ?_
    simp only [CourseManager.timed, CourseManager.apply, CourseManager.setTargetArrivalTime]
    cases t.manager.state <;> rfl
  | setArrivalCircle radius =>
    refine (outcome_revise env _ _).trans ?_
    simp only [CourseManager.circled, CourseManager.apply, CourseManager.setArrivalCircle,
      Tracked.setConfig]
    cases hs : t.manager.state with
    | none => simp [settle, CourseManager.done]
    | some course => rfl
  | clear => exact outcome_clear env t
  | nmeaPosition position =>
    simp only [ofOp, applyNmeaPosition, CourseManager.apply, CourseManager.applyNmeaPosition]
    rw [alone_look]
    by_cases ha : t.manager.config.apiOnly
    · simp only [ha, if_true]
      rfl
    · simp only [ha]
      exact outcome_replace env _ _ t
  | enableApiOnly => exact outcome_enableApiOnly env t
  | disableApiOnly => rfl

end
end CourseThread

def Disk.Saves (disk : Disk) : Prop :=
  disk.mkdir = .ok () ∧ disk.write = .ok ()

/-- A failure leaves the course in memory, its source and its paths in the store. -/
def Atomic (m : CourseManager) (out : Outcome) : Prop :=
  ∀ e, out.result = .error e →
    out.manager.state = m.state ∧ out.manager.source = m.source ∧
      ∀ p, out.manager.store.courseView p = m.store.courseView p

namespace CourseManager

/-- The course already heads for this point of its route, coming from it. -/
def HeadsFor (course : CourseState) (route : ActiveRoute) (points : List Position)
    (index : UInt64) : Prop :=
  route.pointIndex = index ∧
    course.nextPoint = (directed route.reverse points)[index.toNat]?.map CoursePoint.onRoute ∧
    course.previousPoint = course.nextPoint

/-- When a failure of an operation changes nothing: it fails before it has changed
the state, or its change is none. -/
def FailsCleanly (m : CourseManager) (env : Surroundings) (disk : Disk) : CourseOp → Prop
  | .clear => disk.mkdir = .ok () ∨ m.state = none
  | .advanceNextPoint delta =>
    disk.Saves ∨ ∀ course route points, m.following = .ok (course, route) →
      resolveRoutePoints env.resources route.href = .ok points →
      let newIndex := route.pointIndex.toInt64 + delta.toInt64
      0 ≤ newIndex → newIndex.toUInt64.toNat < points.length →
        HeadsFor course route points newIndex.toUInt64
  | .setPointIndex index =>
    disk.Saves ∨ ∀ course route points, m.following = .ok (course, route) →
      resolveRoutePoints env.resources route.href = .ok points →
      index.toNat < points.length → HeadsFor course route points index
  | .reverseRoute =>
    ∀ course route, m.following = .ok (course, route) →
      disk.Saves ∧ ∃ points, resolveRoutePoints env.resources route.href = .ok points
  | .setTargetArrivalTime time =>
    disk.Saves ∨ ∀ course, m.state = some course → course.targetArrivalTime = time
  | .setArrivalCircle radius =>
    disk.Saves ∨ ∀ course, m.state = some course → course.arrivalCircle = radius
  | _ => True

theorem heading_eq_iff {course : CourseState} {route : ActiveRoute} {points : List Position}
    {index : UInt64} (h : course.activeRoute = some route) :
    heading course route points index = course ↔ HeadsFor course route points index := by
  obtain ⟨start, target, circle, active, next, previous⟩ := course
  obtain ⟨href, reverse, pointIndex, total, name, waypoints⟩ := route
  simp only at h
  subst h
  simp only [heading, HeadsFor, CourseState.mk.injEq, Option.some.injEq, ActiveRoute.mk.injEq]
  constructor
  · intro he
    obtain ⟨-, -, -, hi, hn, hp⟩ := he
    exact ⟨hi.2.2.1.symm, hn.symm, hp.symm⟩
  · intro he
    obtain ⟨rfl, hn, hp⟩ := he
    simp [← hn, ← hp]

/-- A turned route is never the old one, whether it resolves or not. -/
theorem reversed_ne {m : CourseManager} (env : Surroundings) {course : CourseState}
    {route : ActiveRoute} (hf : m.following = .ok (course, route)) :
    (m.reversed env).state ≠ m.state := by
  obtain ⟨hs, hr⟩ := following_eq_ok.mp hf
  have hturned : ((m.reversed env).state.bind CourseState.activeRoute).map ActiveRoute.reverse =
      some (!route.reverse) := by
    cases hp : resolveRoutePoints env.resources route.href <;> simp [reversed, hf, hp, changed]
  intro he
  rw [he, hs] at hturned
  simp [hr] at hturned

end CourseManager

namespace CourseThread
open CourseManager

theorem persisted_ok_iff (disk : Disk) (state : CourseState) (setBy : CourseSource)
    (t : Tracked) : (persisted disk (some state) setBy t).2 = .ok () ↔ disk.Saves := by
  unfold persisted Disk.Saves
  cases hm : disk.mkdir with
  | error e => simp
  | ok u => cases hw : disk.write <;> simp

/-- A move along the route fails cleanly when it cannot be saved only if the course
has already moved there. -/
theorem revision_iff_of_route {m : CourseManager} (env : Surroundings) {disk : Disk}
    {f : CourseManager → Revision} (inRange : ActiveRoute → List Position → Prop)
    (index : ActiveRoute → UInt64)
    (hnone : ∀ e, m.following = .error e → f m = m.unchanged e)
    (hmissing : ∀ course route e, m.following = .ok (course, route) →
      resolveRoutePoints env.resources route.href = .error e → f m = m.unchanged e)
    (hout : ∀ course route points, m.following = .ok (course, route) →
      resolveRoutePoints env.resources route.href = .ok points → ¬ inRange route points →
        ∃ e, f m = m.unchanged e)
    (hin : ∀ course route points, m.following = .ok (course, route) →
      resolveRoutePoints env.resources route.href = .ok points → inRange route points →
        f m = changed (heading course route points (index route))) :
    ((∃ e, (f m).saved = .error e) ∨ (∃ state, (f m).saved = .ok (some state)) ∧ ¬ disk.Saves →
        (f m).state = m.state) ↔
      (disk.Saves ∨ ∀ course route points, m.following = .ok (course, route) →
        resolveRoutePoints env.resources route.href = .ok points → inRange route points →
          HeadsFor course route points (index route)) := by
  cases hf : m.following with
  | error e =>
    rw [hnone e hf]
    exact iff_of_true (fun _ => rfl) (.inr fun _ _ _ h => by cases h)
  | ok followed =>
    obtain ⟨course, route⟩ := followed
    obtain ⟨hs, hr⟩ := following_eq_ok.mp hf
    cases hp : resolveRoutePoints env.resources route.href with
    | error e =>
      rw [hmissing course route e hf hp]
      refine iff_of_true (fun _ => rfl) (.inr fun course' route' points h hp' => ?_)
      cases h
      rw [hp] at hp'
      cases hp'
    | ok points =>
      by_cases hi : inRange route points
      · rw [hin course route points hf hp hi]
        have hstate : (changed (heading course route points (index route))).state = m.state ↔
            HeadsFor course route points (index route) := by
          rw [hs, ← heading_eq_iff hr]
          simp [changed]
        constructor
        · intro h
          by_cases hd : disk.Saves
          · exact .inl hd
          · refine .inr fun course' route' points' h' hp' _ => ?_
            cases h'
            rw [hp] at hp'
            cases hp'
            exact hstate.mp (h (.inr ⟨⟨_, rfl⟩, hd⟩))
        · intro h hbad
          obtain ⟨e, he⟩ | ⟨-, hd⟩ := hbad
          · cases he
          · exact hstate.mpr (h.resolve_left hd course route points rfl hp hi)
      · obtain ⟨e, he⟩ := hout course route points hf hp hi
        rw [he]
        refine iff_of_true (fun _ => rfl) (.inr fun course' route' points' h' hp' hi' => ?_)
        cases h'
        rw [hp] at hp'
        cases hp'
        exact absurd hi' hi

/-- A change of one field of the course. -/
theorem revision_iff_of_field {m : CourseManager} {disk : Disk} {r : Revision}
    (set : CourseState → CourseState) {field : CourseState → Prop}
    (hnone : m.state = none → r.state = none)
    (hsome : ∀ course, m.state = some course → r = changed (set course))
    (hfield : ∀ course, set course = course ↔ field course) :
    ((∃ e, r.saved = .error e) ∨ (∃ state, r.saved = .ok (some state)) ∧ ¬ disk.Saves →
        r.state = m.state) ↔
      (disk.Saves ∨ ∀ course, m.state = some course → field course) := by
  cases hs : m.state with
  | none => exact iff_of_true (fun _ => hnone hs) (.inr fun _ h => by cases h)
  | some course =>
    rw [hsome course hs]
    simp only [changed, Option.some.injEq, forall_eq']
    rw [hfield]
    constructor
    · intro h
      by_cases hd : disk.Saves
      · exact .inl hd
      · exact .inr (h (.inr ⟨⟨_, rfl⟩, hd⟩))
    · intro h hbad
      obtain ⟨e, he⟩ | ⟨-, hd⟩ := hbad
      · cases he
      · exact h.resolve_left hd

/-- A failure to remove the file is not reported. -/
theorem enableApiOnly_returns [JsonText] (env : Surroundings) (disk : Disk) (t : Tracked) :
    ((enableApiOnly env disk).alone t).2 = .ok () := by
  rw [enableApiOnly, alone_write, enableApiOnly.examine, alone_look]
  split_ifs
  · rw [enableApiOnly.forget, alone_write, enableApiOnly.disown, alone_write,
      enableApiOnly.announce]
    simp only [emit, Thread.alone, enableApiOnly.erase, alone_persistState,
      enableApiOnly.finish, alone_write]
  · rfl

theorem atomic_clear_iff [JsonText] (m : CourseManager) (h : History) (env : Surroundings) (disk : Disk) :
    Atomic m (outcome ((clear env disk).alone ⟨m, h⟩)) ↔
      disk.mkdir = .ok () ∨ m.state = none := by
  rw [clear, alone_write, alone_persistState]
  cases hm : disk.mkdir with
  | error e =>
    simp [persisted, hm, orReturn, Thread.alone, outcome, Atomic, Tracked.setState, eq_comm]
  | ok u =>
    refine iff_of_true (fun e he => ?_) (.inl rfl)
    have hres := congrArg Outcome.result (outcome_emit env clearValues (.done (.ok ()))
      (persisted disk none .api ((⟨m, h⟩ : Tracked).setState none .api)).1)
    simp only [persisted, hm, orReturn] at he hres
    cases hres.symm.trans he

section
variable [JsonText] [Geodesy]

theorem atomic_replace (m : CourseManager) (h : History) (env : Surroundings) (disk : Disk)
    (state : CourseState) (source : CourseSource) :
    Atomic m (outcome ((replace env disk state source).alone ⟨m, h⟩)) := by
  rw [replace, alone_persistState]
  obtain ⟨doc, hdoc⟩ := persisted_frame disk (some state) source ⟨m, h⟩
  cases hr : (persisted disk (some state) source ⟨m, h⟩).2 with
  | error e =>
    intro e' _
    simp [orReturn, Thread.alone, outcome, hdoc]
  | ok u =>
    intro e' he
    have hout := outcome_emitDeltas env state
      (write (·.setState (some state) source) <| write (·.setSource source) (.done (.ok ())))
      (persisted disk (some state) source ⟨m, h⟩).1
    simp only [orReturn] at he
    rw [hout] at he
    cases he

/-- A change in place undoes nothing: its failure is clean only if it changes nothing. -/
theorem atomic_revise_iff (m : CourseManager) (h : History) (env : Surroundings) (disk : Disk)
    (f : CourseManager → Revision) :
    Atomic m (outcome ((revise env disk f fun _ => []).alone ⟨m, h⟩)) ↔
      ((∃ e, (f m).saved = .error e) ∨ (∃ state, (f m).saved = .ok (some state)) ∧ ¬ disk.Saves →
        (f m).state = m.state) := by
  cases hs : (f m).saved with
  | error e => simp [revise, Thread.alone, hs, outcome, Atomic, Tracked.setState]
  | ok saved =>
    cases saved with
    | none => simp [revise, Thread.alone, hs, outcome, Atomic]
    | some state =>
      simp only [revise, Thread.alone, hs, alone_persistState]
      generalize ht : (⟨m, h⟩ : Tracked).setState (f m).state h.setBy = t
      have htm : t.manager = { m with state := (f m).state } := by
        rw [← ht]
        rfl
      obtain ⟨doc, hdoc⟩ := persisted_frame disk (some state) h.setBy t
      rw [htm] at hdoc
      cases hr : (persisted disk (some state) h.setBy t).2 with
      | error e =>
        have hnot : ¬ disk.Saves := by
          rw [← persisted_ok_iff disk state h.setBy t, hr]
          simp
        simp [orReturn, Thread.alone, outcome, hdoc, Atomic, hnot]
      | ok u =>
        have hsaves : disk.Saves := (persisted_ok_iff disk state h.setBy t).mp hr
        have hout := outcome_emitDeltas env state (.done (.ok ()))
          (persisted disk (some state) h.setBy t).1
        simp only [orReturn]
        refine iff_of_true (fun e he => ?_) fun hbad => ?_
        · have hres := congrArg Outcome.result hout
          cases hres.symm.trans he
        · obtain ⟨e, he⟩ | ⟨-, hn⟩ := hbad
          · cases he
          · exact absurd hsaves hn

theorem atomic_setDestination (m : CourseManager) (h : History) (env : Surroundings) (disk : Disk)
    (req : DestinationRequest) :
    Atomic m (outcome ((ofOp env disk (.setDestination req)).alone ⟨m, h⟩)) := by
  simp only [ofOp, setDestination]
  cases destinationPosition env req with
  | error e => exact fun _ _ => ⟨rfl, rfl, fun _ => rfl⟩
  | ok position => exact atomic_replace m h env disk _ _

theorem atomic_setActiveRoute (m : CourseManager) (h : History) (env : Surroundings) (disk : Disk)
    (req : ActiveRouteRequest) :
    Atomic m (outcome ((ofOp env disk (.setActiveRoute req)).alone ⟨m, h⟩)) := by
  simp only [ofOp, setActiveRoute]
  cases resolveRoutePoints env.resources req.href with
  | error e => exact fun _ _ => ⟨rfl, rfl, fun _ => rfl⟩
  | ok routePoints =>
    simp only
    generalize directed req.reverse routePoints = points
    cases points with
    | nil => exact fun _ _ => ⟨rfl, rfl, fun _ => rfl⟩
    | cons first rest => exact atomic_replace m h env disk _ _

theorem atomic_nmeaPosition (m : CourseManager) (h : History) (env : Surroundings) (disk : Disk)
    (position : Position) :
    Atomic m (outcome ((ofOp env disk (.nmeaPosition position)).alone ⟨m, h⟩)) := by
  simp only [ofOp, applyNmeaPosition]
  rw [alone_look]
  split_ifs
  · exact fun _ _ => ⟨rfl, rfl, fun _ => rfl⟩
  · exact atomic_replace m h env disk _ _

/-- A route may be moved along when its next index is one of its points. -/
theorem atomic_advanceNextPoint_iff (m : CourseManager) (h : History) (env : Surroundings)
    (disk : Disk) (delta : Int32) :
    Atomic m (outcome ((ofOp env disk (.advanceNextPoint delta)).alone ⟨m, h⟩)) ↔
      m.FailsCleanly env disk (.advanceNextPoint delta) := by
  refine (atomic_revise_iff m h env disk _).trans ?_
  refine (revision_iff_of_route env (f := advanced env delta)
    (fun route points => 0 ≤ route.pointIndex.toInt64 + delta.toInt64 ∧
      (route.pointIndex.toInt64 + delta.toInt64).toUInt64.toNat < points.length)
    (fun route => (route.pointIndex.toInt64 + delta.toInt64).toUInt64)
    ?_ ?_ ?_ ?_).trans ?_
  · intro e hf
    simp only [advanced, hf]
  · intro course route e hf hp
    simp only [advanced, hf, hp]
  · intro course route points hf hp hi
    simp only [advanced, hf, hp]
    rw [if_pos]
    · exact ⟨_, rfl⟩
    · by_contra hn
      push Not at hn
      exact hi ⟨Int64.not_lt.mp hn.1, hn.2⟩
  · intro course route points hf hp hi
    simp only [advanced, hf, hp]
    rw [if_neg]
    push Not
    exact ⟨Int64.not_lt.mpr hi.1, hi.2⟩
  · simp only [FailsCleanly, and_imp]

theorem atomic_setPointIndex_iff (m : CourseManager) (h : History) (env : Surroundings)
    (disk : Disk) (index : UInt64) :
    Atomic m (outcome ((ofOp env disk (.setPointIndex index)).alone ⟨m, h⟩)) ↔
      m.FailsCleanly env disk (.setPointIndex index) := by
  refine (atomic_revise_iff m h env disk _).trans ?_
  refine revision_iff_of_route env (f := pointedAt env index)
    (fun _ points => index.toNat < points.length) (fun _ => index)
    ?_ ?_ ?_ ?_
  · intro e hf
    simp only [pointedAt, hf]
  · intro course route e hf hp
    simp only [pointedAt, hf, hp]
  · intro course route points hf hp hi
    simp only [pointedAt, hf, hp]
    rw [if_pos (Nat.le_of_not_lt hi)]
    exact ⟨_, rfl⟩
  · intro course route points hf hp hi
    simp only [pointedAt, hf, hp]
    rw [if_neg (Nat.not_le_of_lt hi)]

/-- A reversed route is another one: it has to be read and saved. -/
theorem atomic_reverseRoute_iff (m : CourseManager) (h : History) (env : Surroundings)
    (disk : Disk) :
    Atomic m (outcome ((ofOp env disk .reverseRoute).alone ⟨m, h⟩)) ↔
      m.FailsCleanly env disk .reverseRoute := by
  refine (atomic_revise_iff m h env disk _).trans ?_
  cases hf : m.following with
  | error e =>
    refine iff_of_true (fun _ => ?_) fun _ _ h => ?_
    · simp only [reversed, hf, unchanged]
    · rw [hf] at h
      cases h
  | ok followed =>
    obtain ⟨course, route⟩ := followed
    have hcond : m.FailsCleanly env disk .reverseRoute ↔
        disk.Saves ∧ ∃ points, resolveRoutePoints env.resources route.href = .ok points := by
      simp [FailsCleanly, hf]
    rw [hcond]
    cases hp : resolveRoutePoints env.resources route.href with
    | error e =>
      refine iff_of_false (fun h => ?_) fun h => by simp at h
      exact reversed_ne env hf (h (.inl ⟨e, by simp only [reversed, hf, hp]⟩))
    | ok points =>
      have hsaved : ∃ state, (reversed env m).saved = .ok (some state) := by
        simp only [reversed, hf, hp]
        exact ⟨_, rfl⟩
      constructor
      · intro h
        by_contra hn
        refine reversed_ne env hf (h (.inr ⟨hsaved, fun hd => hn ⟨hd, points, rfl⟩⟩))
      · intro hd hbad
        obtain ⟨state, hstate⟩ := hsaved
        obtain ⟨e, he⟩ | ⟨-, hn⟩ := hbad
        · rw [hstate] at he
          cases he
        · exact absurd hd.1 hn

theorem atomic_setTargetArrivalTime_iff (m : CourseManager) (h : History) (env : Surroundings)
    (disk : Disk) (time : Option String) :
    Atomic m (outcome ((ofOp env disk (.setTargetArrivalTime time)).alone ⟨m, h⟩)) ↔
      m.FailsCleanly env disk (.setTargetArrivalTime time) := by
  refine (atomic_revise_iff m h env disk _).trans ?_
  refine revision_iff_of_field (fun course => { course with targetArrivalTime := time })
    (fun hs => ?_) (fun course hs => ?_) fun course => ?_
  · simp [timed, hs, unchanged]
  · simp only [timed, hs]
  · obtain ⟨start, target, circle, active, next, previous⟩ := course
    simp [eq_comm]

theorem atomic_setArrivalCircle_iff (m : CourseManager) (h : History) (env : Surroundings)
    (disk : Disk) (radius : ℚ) :
    Atomic m (outcome ((ofOp env disk (.setArrivalCircle radius)).alone ⟨m, h⟩)) ↔
      m.FailsCleanly env disk (.setArrivalCircle radius) := by
  refine (atomic_revise_iff _ h env disk _).trans ?_
  refine revision_iff_of_field (m := m) (fun course => { course with arrivalCircle := radius })
    (fun hs => ?_) (fun course hs => ?_) fun course => ?_
  · simp [circled, hs]
  · simp only [circled, hs]
  · obtain ⟨start, target, circle, active, next, previous⟩ := course
    simp [eq_comm]

theorem atomic_ofOp_iff (m : CourseManager) (h : History) (env : Surroundings) (disk : Disk)
    (op : CourseOp) :
    Atomic m (outcome ((ofOp env disk op).alone ⟨m, h⟩)) ↔ m.FailsCleanly env disk op := by
  cases op with
  | setDestination req => exact iff_of_true (atomic_setDestination m h env disk req) trivial
  | setActiveRoute req => exact iff_of_true (atomic_setActiveRoute m h env disk req) trivial
  | advanceNextPoint delta => exact atomic_advanceNextPoint_iff m h env disk delta
  | setPointIndex index => exact atomic_setPointIndex_iff m h env disk index
  | reverseRoute => exact atomic_reverseRoute_iff m h env disk
  | setTargetArrivalTime time => exact atomic_setTargetArrivalTime_iff m h env disk time
  | setArrivalCircle radius => exact atomic_setArrivalCircle_iff m h env disk radius
  | clear => exact atomic_clear_iff m h env disk
  | nmeaPosition position => exact iff_of_true (atomic_nmeaPosition m h env disk position) trivial
  | enableApiOnly =>
    refine iff_of_true (fun e he => ?_) trivial
    cases (enableApiOnly_returns env disk ⟨m, h⟩).symm.trans he
  | disableApiOnly =>
    refine iff_of_true (fun e he => ?_) trivial
    cases he

end
end CourseThread

/-- An operation on a file system that may fail, or something else that happens to
the store. -/
inductive CourseAttempt where
  | op (env : Surroundings) (disk : Disk) (op : CourseOp)
  | store (e : StoreEvent)

namespace CourseManager
variable [JsonText] [Geodesy]

def attempt (m : CourseManager) (env : Surroundings) (disk : Disk) (op : CourseOp) : Outcome :=
  CourseThread.outcome ((CourseThread.ofOp env disk op).alone ⟨m, {}⟩)

theorem attempt_working (m : CourseManager) (env : Surroundings) (op : CourseOp) :
    m.attempt env Disk.working op = m.apply env op :=
  CourseThread.outcome_ofOp env op ⟨m, {}⟩

def attemptStep (m : CourseManager) : CourseAttempt → CourseManager × List Delta
  | .op env disk op => ((m.attempt env disk op).manager, (m.attempt env disk op).broadcast)
  | .store e => ({ m with store := (m.store.step e).1 }, (m.store.step e).2)

def StepCleanly (m : CourseManager) : CourseAttempt → Prop
  | .op env disk op => m.FailsCleanly env disk op
  | .store _ => True

/-- Every failure of a run leaves the course as it was exactly when every operation
meets the condition on the state it finds. -/
theorem failures_atomic_iff (m : CourseManager) (attempts : List CourseAttempt) :
    (∀ as env disk op, as ++ [.op env disk op] <+: attempts →
      Atomic (Machine.run attemptStep m as) ((Machine.run attemptStep m as).attempt env disk op)) ↔
      Machine.Meets attemptStep StepCleanly m attempts := by
  rw [Machine.meets_iff_prefix]
  constructor
  · intro h as a hp
    cases a with
    | op env disk op => exact (CourseThread.atomic_ofOp_iff _ {} env disk op).mp (h as env disk op hp)
    | store e => trivial
  · intro h as env disk op hp
    exact (CourseThread.atomic_ofOp_iff _ {} env disk op).mpr (h as (.op env disk op) hp)

end CourseManager

section
local instance : JsonText := JsonText.unused
local instance : Geodesy := Geodesy.unused

/-- No resource is there any more. -/
def emptyHanded : Surroundings where
  now := "2026-01-01T00:00:00Z"
  timestamp := 0
  clock _ := 0
  resources _ _ := .ok none

/-- A route whose resource has been deleted is turned although the call fails. -/
theorem reverse_missing_route_turns :
    let m := Machine.run CourseManager.attemptStep
      (CourseManager.new (SignalKStore.new "urn:mrn:signalk:uuid:test"))
      [.op CourseManager.twoPointRoute Disk.working
        (.setActiveRoute ⟨"/resources/routes/r", false⟩)]
    let out := m.attempt emptyHanded Disk.working .reverseRoute
    out.result = .error (.runtime "Route not found: /resources/routes/r") ∧
      (m.state.bind CourseState.activeRoute).map ActiveRoute.reverse = some false ∧
      (out.manager.state.bind CourseState.activeRoute).map ActiveRoute.reverse = some true ∧
      ¬ Atomic m out := by
  intro m out
  have hresult : out.result = .error (.runtime "Route not found: /resources/routes/r") := by
    decide +kernel
  have hbefore : (m.state.bind CourseState.activeRoute).map ActiveRoute.reverse =
      some false := by decide +kernel
  have hafter : (out.manager.state.bind CourseState.activeRoute).map ActiveRoute.reverse =
      some true := by decide +kernel
  refine ⟨hresult, hbefore, hafter, fun ha => ?_⟩
  have hstate := (ha _ hresult).1
  rw [hstate, hbefore] at hafter
  cases hafter

end
end SignalK

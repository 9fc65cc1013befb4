import SignalK.Course.Atomicity

/-! What an operation leaves in memory, whatever the file system does: a new course is taken
over only when it could be saved, every other change is made before it is saved. -/
namespace SignalK

/-- The operations that make a new course. -/
def CourseOp.creates : CourseOp → Bool
  | .setDestination _ => true
  | .setActiveRoute _ => true
  | .nmeaPosition _ => true
  | _ => false

/-- What is in memory: the course and the configuration. -/
def CourseManager.memory (m : CourseManager) : Option CourseState × CourseConfig :=
  (m.state, m.config)

theorem CourseManager.emitDeltas_memory [JsonText] [Geodesy] (m : CourseManager)
    (env : Surroundings) (state : CourseState) :
    (m.emitDeltas env state).1.memory = m.memory := by
  simp only [emitDeltas]
  split_ifs <;> rfl

namespace CourseThread

theorem persisted_memory (disk : Disk) (state : Option CourseState) (setBy : CourseSource)
    (t : Tracked) : (persisted disk state setBy t).1.manager.memory = t.manager.memory := by
  obtain ⟨doc, hdoc⟩ := persisted_frame disk state setBy t
  rw [hdoc]
  rfl

section
variable [JsonText]

theorem memory_clear (env : Surroundings) (disk : Disk) (t : Tracked) :
    ((clear env disk).alone t).1.1.manager.memory = (none, t.manager.config) := by
  have hmem := persisted_memory disk none .api (t.setState none .api)
  rw [clear, alone_write, alone_persistState]
  cases hr : (persisted disk none .api (t.setState none .api)).2 with
  | error e => exact hmem
  | ok u => exact hmem

theorem memory_enableApiOnly (env : Surroundings) (disk : Disk) (t : Tracked) :
    ((enableApiOnly env disk).alone t).1.1.manager.memory =
      (t.manager.enableApiOnly env).manager.memory := by
  have hsource : (t.setConfig ({ · with apiOnly := true })).manager.source = t.manager.source := rfl
  rw [enableApiOnly, alone_write, enableApiOnly.examine, alone_look, hsource,
    CourseManager.enableApiOnly]
  by_cases hs : t.manager.source = .nmea
  · rw [if_pos hs, if_pos hs, enableApiOnly.forget, alone_write, enableApiOnly.disown, alone_write,
      enableApiOnly.announce]
    simp only [emit, Thread.alone, enableApiOnly.erase, alone_persistState, enableApiOnly.finish,
      alone_write]
    exact persisted_memory disk none .api _
  · rw [if_neg hs, if_neg hs]
    rfl

variable [Geodesy]

theorem manager_emitDeltas (env : Surroundings) (state : CourseState)
    (k : CourseThread CourseResult) (t : Tracked) :
    ((emitDeltas env state k).alone t).1.1.manager =
      (k.alone { t with manager := (t.manager.emitDeltas env state).1 }).1.1.manager :=
  congrArg Outcome.manager (outcome_emitDeltas env state k t)

theorem memory_replace (env : Surroundings) (disk : Disk) (state : CourseState)
    (source : CourseSource) (t : Tracked) :
    (disk.Saves → ((replace env disk state source).alone t).1.1.manager.memory =
      (some state, t.manager.config)) ∧
    (¬ disk.Saves → ((replace env disk state source).alone t).1.1.manager.memory =
      t.manager.memory) := by
  have hmem := persisted_memory disk (some state) source t
  have hsaves := persisted_ok_iff disk state source t
  rw [replace, alone_persistState]
  cases hr : (persisted disk (some state) source t).2 with
  | error e =>
    have hnot : ¬ disk.Saves := by
      rw [← hsaves, hr]
      simp
    exact ⟨fun h => absurd h hnot, fun _ => hmem⟩
  | ok u =>
    have hyes := hsaves.mp hr
    refine ⟨fun _ => ?_, fun h => absurd hyes h⟩
    have hemit := CourseManager.emitDeltas_memory (persisted disk (some state) source t).1.manager
      env state
    have hconfig : ((persisted disk (some state) source t).1.manager.emitDeltas env state).1.config =
        t.manager.config := congrArg Prod.snd (hemit.trans hmem)
    simp only [orReturn, manager_emitDeltas, alone_write]
    exact Prod.ext rfl hconfig

theorem memory_revise (env : Surroundings) (disk : Disk) (f : CourseManager → Revision)
    (notes : Tracked → List CourseNote) (t : Tracked) :
    ((revise env disk f notes).alone t).1.1.manager.memory =
      ((f t.manager).state, t.manager.config) := by
  cases hs : (f t.manager).saved with
  | error e =>
    simp only [revise, Thread.alone, hs]
    rfl
  | ok saved =>
    cases saved with
    | none =>
      simp only [revise, Thread.alone, hs]
      rfl
    | some state =>
      simp only [revise, Thread.alone, hs, alone_persistState]
      generalize ht : t.setState (f t.manager).state t.history.setBy = changed
      have hchanged : changed.manager.memory = ((f t.manager).state, t.manager.config) := by
        rw [← ht]
        rfl
      have hmem := (persisted_memory disk (some state) t.history.setBy changed).trans hchanged
      cases hr : (persisted disk (some state) t.history.setBy changed).2 with
      | error e => exact hmem
      | ok u =>
        have hemit := CourseManager.emitDeltas_memory
          (persisted disk (some state) t.history.setBy changed).1.manager env state
        simp only [orReturn, manager_emitDeltas]
        exact hemit.trans hmem

/-- A change in place succeeds exactly when it can be saved. -/
theorem revise_ok_iff (env : Surroundings) (disk : Disk) {f : CourseManager → Revision}
    (notes : Tracked → List CourseNote) {t : Tracked} {state : CourseState}
    (h : (f t.manager).saved = .ok (some state)) :
    ((revise env disk f notes).alone t).2 = .ok () ↔ disk.Saves := by
  simp only [revise, Thread.alone, h, alone_persistState]
  generalize t.setState (f t.manager).state t.history.setBy = changed
  rw [← persisted_ok_iff disk state t.history.setBy changed]
  cases hr : (persisted disk (some state) t.history.setBy changed).2 with
  | error e => rfl
  | ok u =>
    have hemit := outcome_emitDeltas env state (.done (.ok ()))
      (persisted disk (some state) t.history.setBy changed).1
    exact iff_of_true (congrArg Outcome.result hemit) rfl

end

end CourseThread

theorem Disk.working_saves : Disk.working.Saves := ⟨rfl, rfl⟩

namespace CourseManager
variable [JsonText] [Geodesy]

/-- A new course that is saved is taken over as by the operation, one that is not is not. -/
theorem memory_creation (m : CourseManager) (env : Surroundings) (disk : Disk) {op : CourseOp}
    (h : op.creates = true) :
    (disk.Saves →
      (m.attempt env disk op).manager.memory = (m.attempt env Disk.working op).manager.memory) ∧
    (¬ disk.Saves → (m.attempt env disk op).manager.memory = m.memory) := by
  have hreplace : ∀ state source t,
      (disk.Saves → ((CourseThread.replace env disk state source).alone t).1.1.manager.memory =
        ((CourseThread.replace env Disk.working state source).alone t).1.1.manager.memory) ∧
      (¬ disk.Saves → ((CourseThread.replace env disk state source).alone t).1.1.manager.memory =
        t.manager.memory) := by
    intro state source t
    obtain ⟨hsaved, hlost⟩ := CourseThread.memory_replace env disk state source t
    have hworking := (CourseThread.memory_replace env Disk.working state source t).1
      Disk.working_saves
    exact ⟨fun hs => (hsaved hs).trans hworking.symm, hlost⟩
  cases op with
  | setDestination req =>
    simp only [attempt, CourseThread.ofOp, CourseThread.setDestination]
    cases destinationPosition env req with
    | error e => exact ⟨fun _ => rfl, fun _ => rfl⟩
    | ok position => exact hreplace _ _ _
  | setActiveRoute req =>
    simp only [attempt, CourseThread.ofOp, CourseThread.setActiveRoute]
    cases resolveRoutePoints env.resources req.href with
    | error e => exact ⟨fun _ => rfl, fun _ => rfl⟩
    | ok routePoints =>
      simp only
      generalize directed req.reverse routePoints = points
      cases points with
      | nil => exact ⟨fun _ => rfl, fun _ => rfl⟩
      | cons first rest => exact hreplace _ _ _
  | nmeaPosition position =>
    simp only [attempt, CourseThread.ofOp, CourseThread.applyNmeaPosition,
      CourseThread.alone_look]
    split_ifs
    · exact ⟨fun _ => rfl, fun _ => rfl⟩
    · exact hreplace _ _ _
  | _ => cases h

/-- A change in place is made in memory whether or not it can be saved. -/
theorem memory_change (m : CourseManager) (env : Surroundings) (disk : Disk) {op : CourseOp}
    (h : op.creates = false) :
    (m.attempt env disk op).manager.memory = (m.attempt env Disk.working op).manager.memory := by
  have hrevise : ∀ f notes t, ((CourseThread.revise env disk f notes).alone t).1.1.manager.memory =
      ((CourseThread.revise env Disk.working f notes).alone t).1.1.manager.memory :=
    fun f notes t => (CourseThread.memory_revise env disk f notes t).trans
      (CourseThread.memory_revise env Disk.working f notes t).symm
  cases op with
  | advanceNextPoint delta => exact hrevise _ (fun _ => []) _
  | setPointIndex index => exact hrevise _ (fun _ => []) _
  | reverseRoute => exact hrevise _ (fun _ => []) _
  | setTargetArrivalTime time => exact hrevise _ (fun _ => []) _
  | setArrivalCircle radius => exact hrevise _ (fun _ => []) _
  | clear =>
    exact (CourseThread.memory_clear env disk _).trans
      (CourseThread.memory_clear env Disk.working _).symm
  | enableApiOnly =>
    exact (CourseThread.memory_enableApiOnly env disk _).trans
      (CourseThread.memory_enableApiOnly env Disk.working _).symm
  | disableApiOnly => rfl
  | _ => cases h

/-- A new course that cannot be saved is not taken over; anything else that an operation
does to the memory it does whether or not it can be saved. -/
theorem attempt_memory (m : CourseManager) (env : Surroundings) (disk : Disk) (op : CourseOp) :
    (op.creates = false ∨ disk.Saves →
      (m.attempt env disk op).manager.memory = (m.apply env op).manager.memory) ∧
    (op.creates = true ∧ ¬ disk.Saves →
      (m.attempt env disk op).manager.memory = m.memory) := by
  rw [← attempt_working]
  cases hc : op.creates with
  | true =>
    obtain ⟨hsaved, hlost⟩ := m.memory_creation env disk hc
    exact ⟨fun h => hsaved (h.resolve_left (by simp)), fun h => hlost h.2⟩
  | false => exact ⟨fun _ => m.memory_change env disk hc, fun h => by cases h.1⟩

theorem update_memory (m : CourseManager) (env : Surroundings) (state : CourseState) :
    (m.update env state).manager.memory = (some state, m.config) := by
  unfold update
  exact emitDeltas_memory _ env state

theorem replace_memory (m : CourseManager) (env : Surroundings) (state : CourseState)
    (source : CourseSource) :
    (m.replace env state source).manager.memory = (some state, m.config) := by
  have hconfig := congrArg Prod.snd (emitDeltas_memory (m.persistState (some state)) env state)
  exact Prod.ext rfl hconfig

/-- An operation that changes the course in place. -/
theorem revised_memory (m : CourseManager) (env : Surroundings) {op : CourseOp}
    {f : CourseManager → Revision}
    (h : CourseThread.ofOp env Disk.working op =
      CourseThread.revise env Disk.working f fun _ => []) :
    (m.apply env op).manager.memory = ((f m).state, m.config) := by
  have hmem := CourseThread.memory_revise env Disk.working f (fun _ => []) ⟨m, {}⟩
  rw [← h] at hmem
  rw [← attempt_working]
  exact hmem

/-- The circle goes to the configuration, and to the course if there is one. -/
theorem setArrivalCircle_memory (m : CourseManager) (env : Surroundings) (radius : ℚ) :
    (m.apply env (.setArrivalCircle radius)).manager.memory =
      ((m.circled radius).state, { m.config with arrivalCircle := radius }) := by
  rw [← attempt_working]
  exact CourseThread.memory_revise env Disk.working (circled radius) (fun _ => [])
    ((⟨m, {}⟩ : Tracked).setConfig ({ · with arrivalCircle := radius }))

end CourseManager

/-- What happens to the manager, one thing after the other: an operation, something
else in the store, or the check of the timer. -/
inductive CourseActivity where
  | attempt (a : CourseAttempt)
  | tick (env : Surroundings) (disk : Disk)

namespace CourseManager
variable [JsonText] [Geodesy]

def activityStep (m : CourseManager) : CourseActivity → CourseManager × List Delta
  | .attempt a => m.attemptStep a
  | .tick env disk =>
    let checked := (CourseThread.checkArrival env disk).alone ⟨m, {}⟩
    (checked.1.1.manager, broadcasts checked.1.2)

/-- The check leaves the memory, or advances the route by one point. -/
theorem tick_memory (m : CourseManager) (env : Surroundings) (disk : Disk) :
    (m.activityStep (.tick env disk)).1.memory = m.memory ∨
      (m.activityStep (.tick env disk)).1.memory = ((m.advanced env 1).state, m.config) := by
  simp only [activityStep, CourseThread.checkArrival, Thread.alone]
  cases m.arrival with
  | none => exact .inl rfl
  | some found =>
    obtain ⟨distance, circle, goesOn⟩ := found
    simp only [CourseThread.arrive]
    cases goesOn with
    | false => exact .inl rfl
    | true =>
      rw [if_pos rfl, Thread.alone_andThen_done]
      right
      exact CourseThread.memory_revise env disk (advanced env 1)
        (fun t => [.arrived ⟨distance, circle, none⟩ t.history.legs true]) ⟨m, {}⟩

end CourseManager

end SignalK

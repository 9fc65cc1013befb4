import SignalK.Course.Concurrency

/-! Api-only mode against the NMEA listener. Every thread guarantees what its steps
keep; the flag that says where the course came from is written after the course. -/
namespace SignalK

/-- The course in memory is there and an NMEA sentence has set it. -/
def Tracked.SetByNmea (t : Tracked) : Prop :=
  t.manager.state.isSome ∧ t.history.setBy = .nmea

/-- A change along the route leaves no course where there was none. -/
theorem CourseManager.isSome_of_following {m : CourseManager} {r : Revision}
    (h : ∀ e, m.following = .error e → r = m.unchanged e) (hr : r.state.isSome) :
    m.state.isSome := by
  cases hf : m.following with
  | error e => simpa [h e hf, unchanged] using hr
  | ok followed =>
    rw [(following_eq_ok.mp hf).1]
    rfl

/-- The operations that switch api-only mode. -/
def CourseOp.switches : CourseOp → Bool
  | .enableApiOnly => true
  | .disableApiOnly => true
  | _ => false

namespace CourseThread
variable {ρ : Type}

/-- What the steps of all operations keep, apart from those of the listener and of
api-only mode. -/
structure Kept (keeps : Tracked → Tracked × List CourseNote → Prop) : Prop where
  look : ∀ t, keeps t (t, [])
  setFile : ∀ t doc filedBy, keeps t (t.setFile doc filedBy, [])
  setSource : ∀ t source, keeps t (t.setSource source, [])
  setCircle : ∀ t radius, keeps t (t.setConfig ({ · with arrivalCircle := radius }), [])
  setState : ∀ t state, keeps t (t.setState state .api, [])
  revise : ∀ t state, (state.isSome → t.manager.state.isSome) →
    keeps t (t.setState state t.history.setBy, [])
  setStore : ∀ t store (deltas : List Delta),
    keeps t ({ t with manager := { t.manager with store := store } }, deltas.map .broadcast)

/-- A step brings in no course of an NMEA sentence. -/
def NoNmea (t : Tracked) (out : Tracked × List CourseNote) : Prop :=
  out.1.SetByNmea → t.SetByNmea

/-- A step leaves api-only mode as it is. -/
def KeepsMode (t : Tracked) (out : Tracked × List CourseNote) : Prop :=
  out.1.manager.config.apiOnly = t.manager.config.apiOnly ∧
    out.1.history.apiOnly = t.history.apiOnly

theorem kept_noNmea : Kept NoNmea where
  look _ := id
  setFile _ _ _ := id
  setSource _ _ := id
  setCircle _ _ := id
  setState _ _ h := by cases h.2
  revise _ _ hs h := ⟨hs h.1, h.2⟩
  setStore _ _ _ := id

theorem kept_keepsMode : Kept KeepsMode where
  look _ := ⟨rfl, rfl⟩
  setFile _ _ _ := ⟨rfl, rfl⟩
  setSource _ _ := ⟨rfl, rfl⟩
  setCircle _ _ := ⟨rfl, rfl⟩
  setState _ _ := ⟨rfl, rfl⟩
  revise _ _ _ := ⟨rfl, rfl⟩
  setStore _ _ _ := ⟨rfl, rfl⟩

section
variable {keeps : Tracked → Tracked × List CourseNote → Prop} {rely : Tracked → Prop}

theorem under_look (hk : Kept keeps) {α : Type} {f : CourseManager → α}
    {k : α → CourseThread ρ} (h : ∀ t : Tracked, rely t → (k (f t.manager)).Under rely keeps) :
    (look f k).Under rely keeps :=
  fun t ht => ⟨hk.look t, h t ht⟩

theorem under_write {f : Tracked → Tracked} {k : CourseThread ρ}
    (hf : ∀ t, keeps t (f t, [])) (h : k.Under rely keeps) : (write f k).Under rely keeps :=
  fun t _ => ⟨hf t, h⟩

theorem under_persistState (hk : Kept keeps) (disk : Disk) (state : Option CourseState)
    (setBy : CourseSource) {k : CourseResult → CourseThread ρ}
    (h : ∀ r, (k r).Under rely keeps) : (persistState disk state setBy k).Under rely keeps := by
  unfold persistState
  split
  · exact h _
  · split
    · split
      · exact under_write (fun t => hk.setFile t _ _) (h _)
      · exact under_write (fun t => hk.setFile t _ _) (h _)
    · split
      · exact under_write (fun t => hk.setFile t _ _) (h _)
      · exact h _

theorem under_orReturn {k : CourseThread CourseResult} (h : k.Under rely keeps)
    (r : CourseResult) : (orReturn k r).Under rely keeps := by
  cases r with
  | error e => trivial
  | ok u => exact h

theorem under_finish (hf : ∀ t, keeps t (t.setApiOnly true, [])) :
    (enableApiOnly.finish).Under rely keeps :=
  under_write hf trivial

theorem under_erase (hk : Kept keeps) (hf : ∀ t, keeps t (t.setApiOnly true, [])) (disk : Disk) :
    (enableApiOnly.erase disk).Under rely keeps :=
  under_persistState hk disk none .api fun _ => under_finish hf

theorem erase_eq (disk : Disk) :
    enableApiOnly.erase disk = enableApiOnly.finish ∨
      enableApiOnly.erase disk = write (·.setFile none .api) enableApiOnly.finish := by
  unfold enableApiOnly.erase CourseThread.persistState
  split
  · exact .inl rfl
  · simp only
    split
    · exact .inr rfl
    · exact .inl rfl

section
variable [JsonText]

theorem under_emit (hk : Kept keeps) (env : Surroundings) (values : List PathValue)
    {k : CourseThread ρ} (h : k.Under rely keeps) : (emit env values k).Under rely keeps :=
  fun t _ => ⟨hk.setStore t _ _, h⟩

theorem under_clear (hk : Kept keeps) (env : Surroundings) (disk : Disk) :
    (clear env disk).Under rely keeps :=
  under_write (fun t => hk.setState t none) <|
  under_persistState hk disk none .api <| under_orReturn <|
  under_emit hk env clearValues trivial

theorem under_announce (hk : Kept keeps) (hf : ∀ t, keeps t (t.setApiOnly true, []))
    (env : Surroundings) (disk : Disk) : (enableApiOnly.announce env disk).Under rely keeps :=
  under_emit hk env clearValues (under_erase hk hf disk)

theorem under_disown (hk : Kept keeps) (hf : ∀ t, keeps t (t.setApiOnly true, []))
    (env : Surroundings) (disk : Disk) : (enableApiOnly.disown env disk).Under rely keeps :=
  under_write (fun t => hk.setSource t .api) (under_announce hk hf env disk)

theorem under_forget (hk : Kept keeps) (hf : ∀ t, keeps t (t.setApiOnly true, []))
    (env : Surroundings) (disk : Disk) : (enableApiOnly.forget env disk).Under rely keeps :=
  under_write (fun t => hk.setState t none) (under_disown hk hf env disk)

theorem under_examine (hk : Kept keeps) (hf : ∀ t, keeps t (t.setApiOnly true, []))
    (env : Surroundings) (disk : Disk) : (enableApiOnly.examine env disk).Under rely keeps := by
  refine under_look hk fun t _ => ?_
  split_ifs
  · exact under_forget hk hf env disk
  · exact under_finish hf

end

variable [JsonText] [Geodesy]

theorem under_emitDeltas (hk : Kept keeps) (env : Surroundings) (state : CourseState)
    {k : CourseThread ρ} (h : k.Under rely keeps) :
    (emitDeltas env state k).Under rely keeps := by
  refine under_look hk fun t _ => ?_
  by_cases hv : courseValues env.resources t.manager.store state = []
  · simpa [hv] using h
  · simpa [hv] using under_emit hk env _ h

theorem under_replace (hk : Kept keeps) (env : Surroundings) (disk : Disk) (state : CourseState)
    {source : CourseSource} (hs : ∀ t, keeps t (t.setState (some state) source, [])) :
    (replace env disk state source).Under rely keeps :=
  under_persistState hk disk (some state) source <| under_orReturn <|
  under_emitDeltas hk env state <|
  under_write hs <| under_write (fun t => hk.setSource t source) trivial

theorem under_revise (hk : Kept keeps) (env : Surroundings) (disk : Disk)
    {f : CourseManager → Revision} {notes : Tracked → List CourseNote}
    (hnotes : ∀ t out, keeps t (out, []) → keeps t (out, notes t))
    (hf : ∀ m, (f m).state.isSome → m.state.isSome) :
    (revise env disk f notes).Under rely keeps := by
  intro t _
  have hstate := hk.revise t _ (hf t.manager)
  refine ⟨?_, ?_⟩
  · beta_reduce
    split
    · exact hnotes t _ hstate
    · exact hstate
  · beta_reduce
    split
    · trivial
    · trivial
    · exact under_persistState hk disk _ _ (under_orReturn (under_emitDeltas hk env _ trivial))

/-- The check of the listener stops it when api-only mode is on. -/
theorem under_applyNmeaPosition (hk : Kept keeps) (env : Surroundings) (disk : Disk)
    (position : Position)
    (h : (∀ t, rely t → t.manager.config.apiOnly = true) ∨
      ∀ t state, keeps t (t.setState (some state) .nmea, [])) :
    (applyNmeaPosition env disk position).Under rely keeps := by
  refine under_look hk fun t ht => ?_
  by_cases ha : t.manager.config.apiOnly
  · simp only [ha, if_true]
    trivial
  · simp only [ha, Bool.false_eq_true, if_false]
    refine under_look hk fun _ _ => under_replace hk env disk _ fun t' => ?_
    obtain hmode | hset := h
    · exact absurd (hmode t ht) ha
    · exact hset t' _

theorem under_setDestination (hk : Kept keeps) (env : Surroundings) (disk : Disk)
    (req : DestinationRequest) : (setDestination env disk req).Under rely keeps := by
  unfold setDestination
  split
  · trivial
  · exact under_look hk fun _ _ => under_look hk fun _ _ =>
      under_replace hk env disk _ fun t => hk.setState t _

theorem under_setActiveRoute (hk : Kept keeps) (env : Surroundings) (disk : Disk)
    (req : ActiveRouteRequest) : (setActiveRoute env disk req).Under rely keeps := by
  unfold setActiveRoute
  split
  · trivial
  · simp only
    split
    · trivial
    · exact under_look hk fun _ _ => under_look hk fun _ _ =>
        under_replace hk env disk _ fun t => hk.setState t _

theorem under_ofOp (hk : Kept keeps) (env : Surroundings) (disk : Disk) {op : CourseOp}
    (hop : op.switches = false)
    (h : (∀ t, rely t → t.manager.config.apiOnly = true) ∨
      ∀ t state, keeps t (t.setState (some state) .nmea, [])) :
    (ofOp env disk op).Under rely keeps := by
  cases op with
  | setDestination req => exact under_setDestination hk env disk req
  | setActiveRoute req => exact under_setActiveRoute hk env disk req
  | advanceNextPoint delta =>
    exact under_revise hk env disk (fun _ _ => id) fun m =>
      m.isSome_of_following fun e he => by simp only [CourseManager.advanced, he]
  | setPointIndex index =>
    exact under_revise hk env disk (fun _ _ => id) fun m =>
      m.isSome_of_following fun e he => by simp only [CourseManager.pointedAt, he]
  | reverseRoute =>
    exact under_revise hk env disk (fun _ _ => id) fun m =>
      m.isSome_of_following fun e he => by simp only [CourseManager.reversed, he]
  | setTargetArrivalTime time =>
    refine under_revise hk env disk (fun _ _ => id) fun m hs => ?_
    cases hm : m.state with
    | none => simp [CourseManager.timed, hm, CourseManager.unchanged] at hs
    | some course => rfl
  | setArrivalCircle radius =>
    refine under_write (fun t => hk.setCircle t radius)
      (under_revise hk env disk (fun _ _ => id) fun m hs => ?_)
    cases hm : m.state with
    | none => simp [CourseManager.circled, hm] at hs
    | some course => rfl
  | clear => exact under_clear hk env disk
  | nmeaPosition position => exact under_applyNmeaPosition hk env disk position h
  | enableApiOnly => cases hop
  | disableApiOnly => cases hop

theorem under_applyPositions (hk : Kept keeps) (around : Nat → Surroundings × Disk)
    (positions : List Position)
    (h : (∀ t, rely t → t.manager.config.apiOnly = true) ∨
      ∀ t state, keeps t (t.setState (some state) .nmea, [])) :
    (applyPositions around positions).Under rely keeps := by
  induction positions generalizing around with
  | nil => trivial
  | cons position positions ih =>
    exact Thread.under_andThen (under_applyNmeaPosition hk _ _ position h) fun _ => ih _

theorem under_checkArrival (hk : Kept keeps)
    (hnotes : ∀ t out notes notes', keeps t (out, notes) → keeps t (out, notes'))
    (env : Surroundings) (disk : Disk) : (checkArrival env disk).Under rely keeps := by
  intro t _
  refine ⟨hk.look t, ?_⟩
  beta_reduce
  split
  · trivial
  · unfold arrive
    simp only
    split
    · refine Thread.under_andThen (under_revise hk env disk (fun t out => hnotes t out _ _)
        fun m => ?_) fun _ => trivial
      exact m.isSome_of_following fun e he => by simp only [CourseManager.advanced, he]
    · exact fun t' _ => ⟨hnotes t' _ _ _ (hk.setStore t' _ []), trivial⟩

end
end CourseThread

namespace CourseParty
open CourseThread

/-- A party that does not switch api-only mode. -/
def switches : CourseParty → Bool
  | .request call => call.op.switches
  | _ => false

variable [JsonText] [Geodesy]

theorem under_thread {keeps : Tracked → Tracked × List CourseNote → Prop}
    {rely : Tracked → Prop} (hk : Kept keeps)
    (hnotes : ∀ t out notes notes', keeps t (out, notes) → keeps t (out, notes'))
    {c : CourseParty} (hc : c.switches = false)
    (h : (∀ t, rely t → t.manager.config.apiOnly = true) ∨
      ∀ t state, keeps t (t.setState (some state) .nmea, [])) :
    c.thread.Under rely keeps := by
  cases c with
  | request call => exact under_ofOp hk call.env call.disk hc h
  | received around delta => exact under_applyPositions hk around _ h
  | tick env disk => exact Thread.under_andThen (under_checkArrival hk hnotes env disk) fun _ => trivial

end CourseParty

namespace CourseManager
open CourseThread

section
variable [JsonText] [Geodesy] {ι : Type*}

abbrev PartyPool (ι : Type*) := Pool ι Tracked CourseNote CourseResult

abbrev CourseTurn (ι : Type*) := Turn ι StoreEvent (Surroundings × SignalKStore)

/-- Whatever is left of a thread, it puts no NMEA course in memory while api-only mode
is on: it is not past the check of the listener. -/
def Refuses (t : CourseThread CourseResult) : Prop :=
  t.Under (fun t => t.manager.config.apiOnly = true) NoNmea

def Steady (t : CourseThread CourseResult) : Prop :=
  t.Under (fun _ => True) KeepsMode

/-- A call of `enable_api_only` is under way. -/
def Enabling (calls : ι → CourseParty) (p : PartyPool ι) : Prop :=
  ∃ i env disk t, calls i = .request ⟨env, disk, .enableApiOnly⟩ ∧ p.stage i = .running t

/-- Api-only mode is in force or being switched on. -/
def ApiOnly (calls : ι → CourseParty) (p : PartyPool ι) : Prop :=
  p.shared.history.apiOnly = true ∨ Enabling calls p

/-- What a call of `enable_api_only` does after it has dealt with the course. -/
def Settled (env : Surroundings) (disk : Disk) (t : CourseThread CourseResult) : Prop :=
  t = enableApiOnly.disown env disk ∨ t = enableApiOnly.announce env disk ∨
    t = enableApiOnly.erase disk ∨ t = enableApiOnly.finish

/-- The turns that keep NMEA out: api-only mode is switched on when no NMEA course is
past its check and the source flag tells of an NMEA course; it is not switched off
meanwhile, and not lost by a restart; the listener is given own destinations only. -/
def Sheltered (calls : ι → CourseParty) (p : PartyPool ι) : CourseTurn ι → Prop
  | .thread i =>
    match calls i with
    | .request ⟨env, disk, .enableApiOnly⟩ =>
      (∀ u, p.stage i = .waiting u → ∀ j t, p.stage j = .running t → Refuses t) ∧
        (p.stage i = .running (enableApiOnly.examine env disk) → p.shared.SetByNmea →
          p.shared.manager.source = .nmea)
    | .request ⟨_, _, .disableApiOnly⟩ => ¬ Enabling calls p
    | .request _ => True
    | .received _ delta =>
      nmeaPositions delta ≠ [] →
        vesselUri p.shared.manager.store.selfUri delta.context =
          some p.shared.manager.store.selfUri
    | .tick _ _ => True
  | .outside _ => True
  | .crash _ => p.shared.history.apiOnly = false

/-- What the pool of calls keeps. -/
structure Guarded (calls : ι → CourseParty) (p : PartyPool ι) : Prop where
  waiting : ∀ i t, p.stage i = .waiting t → t = (calls i).thread
  steady : ∀ i, (calls i).switches = false → ∀ t, p.stage i = .running t → Steady t
  mode : ApiOnly calls p →
    p.shared.manager.config.apiOnly = true ∧ ∀ i t, p.stage i = .running t → Refuses t
  cleared : p.shared.history.apiOnly = true → ¬ p.shared.SetByNmea
  enabling : ∀ i env disk, calls i = .request ⟨env, disk, .enableApiOnly⟩ →
    ∀ t, p.stage i = .running t → t = enableApiOnly.examine env disk ∨
      t = enableApiOnly.forget env disk ∨ Settled env disk t ∧ ¬ p.shared.SetByNmea
  disabling : ∀ i env disk, calls i = .request ⟨env, disk, .disableApiOnly⟩ →
    ∀ t, p.stage i ≠ .running t

section
variable {calls : ι → CourseParty} {p p' : PartyPool ι}

/-- Steps of ordinary calls, and what happens outside, keep the guard. -/
theorem Guarded.ordinary (hp : Guarded calls p)
    (hstage : ∀ j, p'.stage j = p.stage j ∨ (calls j).switches = false ∧
      (∀ t, p'.stage j ≠ .waiting t) ∧ ∀ u, p'.stage j = .running u →
        Steady u ∧ (ApiOnly calls p → Refuses u))
    (hmode : p'.shared.manager.config.apiOnly = p.shared.manager.config.apiOnly ∧
      p'.shared.history.apiOnly = p.shared.history.apiOnly)
    (hnmea : ApiOnly calls p → p'.shared.SetByNmea → p.shared.SetByNmea) :
    Guarded calls p' := by
  have henabling : ∀ i env disk, calls i = .request ⟨env, disk, .enableApiOnly⟩ →
      p'.stage i = p.stage i := by
    intro i env disk hi
    obtain h | ⟨h, -⟩ := hstage i
    · exact h
    · rw [hi] at h
      cases h
  have hon : ApiOnly calls p' → ApiOnly calls p := by
    intro h
    obtain h | ⟨i, env, disk, t, hi, ht⟩ := h
    · exact .inl (hmode.2 ▸ h)
    · exact .inr ⟨i, env, disk, t, hi, (henabling i env disk hi) ▸ ht⟩
  refine ⟨fun i t ht => ?_, fun i hi t ht => ?_, fun h => ⟨?_, fun i t ht => ?_⟩, fun h hn => ?_,
    fun i env disk hi t ht => ?_, fun i env disk hi t ht => ?_⟩
  · obtain h | ⟨-, h, -⟩ := hstage i
    · exact hp.waiting i t (h ▸ ht)
    · exact absurd ht (h t)
  · obtain h | ⟨-, -, h⟩ := hstage i
    · exact hp.steady i hi t (h ▸ ht)
    · exact (h t ht).1
  · rw [hmode.1]
    exact (hp.mode (hon h)).1
  · obtain hs | ⟨-, -, hs⟩ := hstage i
    · exact (hp.mode (hon h)).2 i t (hs ▸ ht)
    · exact (hs t ht).2 (hon h)
  · have h' : p.shared.history.apiOnly = true := hmode.2 ▸ h
    exact hp.cleared h' (hnmea (.inl h') hn)
  · have ht' : p.stage i = .running t := (henabling i env disk hi) ▸ ht
    obtain h | h | ⟨h, hn⟩ := hp.enabling i env disk hi t ht'
    · exact .inl h
    · exact .inr (.inl h)
    · exact .inr (.inr ⟨h, fun hn' => hn (hnmea (.inr ⟨i, env, disk, t, hi, ht'⟩) hn')⟩)
  · obtain h | ⟨h, -⟩ := hstage i
    · exact hp.disabling i env disk hi t (h ▸ ht)
    · rw [hi] at h
      cases h

variable [DecidableEq ι]

theorem Guarded.go_ordinary {k : ι} (hp : Guarded calls p) (hk : (calls k).switches = false) :
    Guarded calls (p.go k).1 := by
  cases hr : p.rest k with
  | none =>
    rw [Pool.go_of_none hr]
    exact hp
  | some t =>
    rw [Pool.go_of_rest hr]
    have hsteady : Steady t := by
      obtain hs | hs := Pool.stage_of_rest hr
      · rw [hp.waiting k t hs]
        exact CourseParty.under_thread kept_keepsMode (fun _ _ _ _ => id) hk (.inr fun _ _ => ⟨rfl, rfl⟩)
      · exact hp.steady k hk t hs
    have hrefuses : ApiOnly calls p → Refuses t := by
      intro hon
      obtain hs | hs := Pool.stage_of_rest hr
      · rw [hp.waiting k t hs]
        exact CourseParty.under_thread kept_noNmea (fun _ _ _ _ => id) hk (.inl fun _ h => h)
      · exact (hp.mode hon).2 k t hs
    have hothers : ∀ j, j ≠ k → (p.advance k t).1.stage j = p.stage j :=
      fun j hj => p.advance_stage_ne t hj
    cases t with
    | done r =>
      refine hp.ordinary (fun j => ?_) ⟨rfl, rfl⟩ fun _ => id
      by_cases hj : j = k
      · refine .inr ⟨hj ▸ hk, ?_⟩
        simp [hj]
      · exact .inl (hothers j hj)
    | step act next =>
      obtain ⟨hmode, hnext⟩ := hsteady p.shared trivial
      refine hp.ordinary (fun j => ?_) hmode fun hon =>
        (hrefuses hon p.shared (hp.mode hon).1).1
      by_cases hj : j = k
      · rw [hj]
        refine .inr ⟨hk, fun u => ?_, fun u hu => ?_⟩
        · rw [Pool.advance_step_stage]
          exact Thread.Stage.of_ne_waiting _ u
        · rw [Pool.advance_step_stage] at hu
          rw [Thread.Stage.of_eq_running hu]
          exact ⟨hnext, fun hon => (hrefuses hon p.shared (hp.mode hon).1).2⟩
      · exact .inl (hothers j hj)

/-- A step of a call of `enable_api_only`. -/
theorem Guarded.advance_enabling {k : ι} {env : Surroundings} {disk : Disk}
    (hp : Guarded calls p) (hk : calls k = .request ⟨env, disk, .enableApiOnly⟩)
    {act : Tracked → Tracked × List CourseNote} {next : Tracked → CourseThread CourseResult}
    (hothers : ∀ j t, p.stage j = .running t → Refuses t)
    (hmode : (act p.shared).1.manager.config.apiOnly = true)
    (hnext : Refuses (next p.shared) ∧ (next p.shared = enableApiOnly.examine env disk ∨
      next p.shared = enableApiOnly.forget env disk ∨
      (Settled env disk (next p.shared) ∨ next p.shared = .done (.ok ())) ∧
        ¬ (act p.shared).1.SetByNmea))
    (hforce : (act p.shared).1.history.apiOnly = true → ¬ (act p.shared).1.SetByNmea)
    (hnmea : (act p.shared).1.SetByNmea → p.shared.SetByNmea) :
    Guarded calls (p.advance k (.step act next)).1 := by
  have hne : ∀ j, j ≠ k → (p.advance k (.step act next)).1.stage j = p.stage j :=
    fun j hj => p.advance_stage_ne _ hj
  refine ⟨fun i t ht => ?_, fun i hi t ht => ?_, fun _ => ⟨hmode, fun i t ht => ?_⟩, hforce,
    fun i env' disk' hi t ht => ?_, fun i env' disk' hi t ht => ?_⟩
  · by_cases hik : i = k
    · rw [hik, Pool.advance_step_stage] at ht
      exact absurd ht (Thread.Stage.of_ne_waiting _ t)
    · exact hp.waiting i t (hne i hik ▸ ht)
  · have hik : i ≠ k := by
      intro he
      rw [he, hk] at hi
      cases hi
    exact hp.steady i hi t (hne i hik ▸ ht)
  · by_cases hik : i = k
    · rw [hik, Pool.advance_step_stage] at ht
      rw [Thread.Stage.of_eq_running ht]
      exact hnext.1
    · exact hothers i t (hne i hik ▸ ht)
  · by_cases hik : i = k
    · rw [hik, hk] at hi
      cases hi
      rw [hik, Pool.advance_step_stage] at ht
      have hu := Thread.Stage.of_eq_running ht
      obtain h | h | ⟨h, hn⟩ := hnext.2
      · exact .inl (hu.trans h)
      · exact .inr (.inl (hu.trans h))
      · obtain h | h := h
        · exact .inr (.inr ⟨hu ▸ h, hn⟩)
        · rw [h] at ht
          cases ht
    · obtain h | h | ⟨h, hn⟩ := hp.enabling i env' disk' hi t (hne i hik ▸ ht)
      · exact .inl h
      · exact .inr (.inl h)
      · exact .inr (.inr ⟨h, fun hs => hn (hnmea hs)⟩)
  · have hik : i ≠ k := by
      intro he
      rw [he, hk] at hi
      cases hi
    exact hp.disabling i env' disk' hi t (hne i hik ▸ ht)

end

section
variable {calls : ι → CourseParty} {p : PartyPool ι} [DecidableEq ι]

theorem Guarded.go_settled {k : ι} {env : Surroundings} {disk : Disk} (hp : Guarded calls p)
    (hk : calls k = .request ⟨env, disk, .enableApiOnly⟩) {t : CourseThread CourseResult}
    (ht : p.stage k = .running t) (hs : Settled env disk t) (hn : ¬ p.shared.SetByNmea) :
    Guarded calls (p.go k).1 := by
  obtain ⟨hon, hrefuses⟩ := hp.mode (.inr ⟨k, env, disk, t, hk, ht⟩)
  have hr : p.rest k = some t := by rw [Pool.rest, ht]
  rw [Pool.go_of_rest hr]
  have hfinish : Guarded calls (p.advance k enableApiOnly.finish).1 :=
    hp.advance_enabling hk hrefuses hon ⟨trivial, .inr (.inr ⟨.inr rfl, hn⟩)⟩ (fun _ => hn) id
  obtain rfl | rfl | rfl | rfl := hs
  · exact hp.advance_enabling hk hrefuses hon
      ⟨under_announce kept_noNmea (fun _ => id) env disk,
        .inr (.inr ⟨.inl (.inr (.inl rfl)), hn⟩)⟩ (fun _ => hn) id
  · exact hp.advance_enabling hk hrefuses hon
      ⟨under_erase kept_noNmea (fun _ => id) disk,
        .inr (.inr ⟨.inl (.inr (.inr (.inl rfl))), hn⟩)⟩ (fun _ => hn) id
  · obtain he | he := erase_eq disk
    · rw [he]
      exact hfinish
    · rw [he]
      exact hp.advance_enabling hk hrefuses hon
        ⟨under_finish (fun _ => id), .inr (.inr ⟨.inl (.inr (.inr (.inr rfl))), hn⟩)⟩ (fun _ => hn) id
  · exact hfinish

theorem Guarded.go_enable {k : ι} {env : Surroundings} {disk : Disk} (hp : Guarded calls p)
    (hk : calls k = .request ⟨env, disk, .enableApiOnly⟩)
    (hbegin : ∀ u, p.stage k = .waiting u → ∀ j t, p.stage j = .running t → Refuses t)
    (hflag : p.stage k = .running (enableApiOnly.examine env disk) → p.shared.SetByNmea →
      p.shared.manager.source = .nmea) : Guarded calls (p.go k).1 := by
  cases hr : p.rest k with
  | none =>
    rw [Pool.go_of_none hr]
    exact hp
  | some t =>
    obtain hs | hs := Pool.stage_of_rest hr
    · have ht := hp.waiting k t hs
      rw [hk] at ht
      subst ht
      rw [Pool.go_of_rest hr]
      exact hp.advance_enabling hk (hbegin _ hs) rfl
        ⟨under_examine kept_noNmea (fun _ => id) env disk, .inl rfl⟩
        hp.cleared id
    · obtain ⟨hon, hrefuses⟩ := hp.mode (.inr ⟨k, env, disk, t, hk, hs⟩)
      obtain rfl | rfl | ⟨hset, hn⟩ := hp.enabling k env disk hk t hs
      · rw [Pool.go_of_rest hr]
        by_cases hsource : p.shared.manager.source = .nmea
        · refine hp.advance_enabling hk hrefuses hon ?_ hp.cleared id
          simp only [hsource, if_true]
          exact ⟨under_forget kept_noNmea (fun _ => id) env disk, .inr (.inl trivial)⟩
        · refine hp.advance_enabling hk hrefuses hon ?_ hp.cleared id
          simp only [hsource, if_false]
          exact ⟨under_finish (fun _ => id), .inr (.inr ⟨.inl (.inr (.inr (.inr rfl))),
            fun hn => hsource (hflag hs hn)⟩)⟩
      · rw [Pool.go_of_rest hr]
        have hn : ¬ (p.shared.setState none .api).SetByNmea := fun hn => by cases hn.2
        exact hp.advance_enabling hk hrefuses hon
          ⟨under_disown kept_noNmea (fun _ => id) env disk, .inr (.inr ⟨.inl (.inl rfl), hn⟩)⟩
          (fun _ => hn)
          fun h => absurd h hn
      · exact hp.go_settled hk hs hset hn

theorem Guarded.go_disable {k : ι} {env : Surroundings} {disk : Disk} (hp : Guarded calls p)
    (hk : calls k = .request ⟨env, disk, .disableApiOnly⟩) (hoff : ¬ Enabling calls p) :
    Guarded calls (p.go k).1 := by
  cases hr : p.rest k with
  | none =>
    rw [Pool.go_of_none hr]
    exact hp
  | some t =>
    obtain hs | hs := Pool.stage_of_rest hr
    · have ht := hp.waiting k t hs
      rw [hk] at ht
      subst ht
      rw [Pool.go_of_rest hr]
      change Guarded calls (p.advance k CourseThread.disableApiOnly).1
      have hne : ∀ j, j ≠ k → (p.advance k CourseThread.disableApiOnly).1.stage j = p.stage j :=
        fun j hj => p.advance_stage_ne _ hj
      have hk' : (p.advance k CourseThread.disableApiOnly).1.stage k = .returned (.ok ()) := by
        simp [CourseThread.disableApiOnly, write, Thread.Stage.of]
      have hrunning : ∀ j t, (p.advance k CourseThread.disableApiOnly).1.stage j = .running t →
          p.stage j = .running t := by
        intro j t ht
        by_cases hj : j = k
        · rw [hj, hk'] at ht
          cases ht
        · exact hne j hj ▸ ht
      have hoff' : ¬ ApiOnly calls (p.advance k CourseThread.disableApiOnly).1 := by
        intro h
        obtain h | ⟨i, env', disk', t, hi, ht⟩ := h
        · cases h
        · exact hoff ⟨i, env', disk', t, hi, hrunning i t ht⟩
      refine ⟨fun i t ht => ?_, fun i hi t ht => hp.steady i hi t (hrunning i t ht),
        fun h => absurd h hoff', fun h => absurd (.inl h) hoff', fun i env' disk' hi t ht => ?_,
        fun i env' disk' hi t ht => hp.disabling i env' disk' hi t (hrunning i t ht)⟩
      · by_cases hik : i = k
        · rw [hik, hk'] at ht
          cases ht
        · exact hp.waiting i t (hne i hik ▸ ht)
      · exact absurd ⟨i, env', disk', t, hi, hrunning i t ht⟩ hoff
    · exact absurd hs (hp.disabling k env disk hk t)

theorem Guarded.crash {start : Surroundings × SignalKStore} [FloatText] (hp : Guarded calls p)
    (hoff : p.shared.history.apiOnly = false) :
    Guarded calls (p.step Tracked.outside Tracked.restart (.crash start)).1 := by
  have hrunning : ∀ j t, (p.stage j).crashed ≠ .running t := by
    intro j t
    cases p.stage j <;> simp [Thread.Stage.crashed]
  have hoff' : ¬ ApiOnly calls (p.step Tracked.outside Tracked.restart (.crash start)).1 := by
    intro h
    obtain h | ⟨i, env, disk, t, -, ht⟩ := h
    · have hsame : p.shared.history.apiOnly = true := h
      rw [hoff] at hsame
      cases hsame
    · exact hrunning i t ht
  refine ⟨fun i t ht => ?_, fun i _ t ht => absurd ht (hrunning i t), fun h => absurd h hoff',
    fun h => absurd (.inl h) hoff', fun i _ _ _ t ht => absurd ht (hrunning i t),
    fun i _ _ _ t => hrunning i t⟩
  refine hp.waiting i t ?_
  have hs : (p.stage i).crashed = .waiting t := ht
  cases h : p.stage i with
  | waiting u =>
    rw [h] at hs
    exact hs
  | running u =>
    rw [h] at hs
    cases hs
  | returned r =>
    rw [h] at hs
    cases hs
  | lost =>
    rw [h] at hs
    cases hs

theorem Guarded.step [FloatText] (hp : Guarded calls p) {turn : CourseTurn ι}
    (hturn : Sheltered calls p turn) :
    Guarded calls (p.step Tracked.outside Tracked.restart turn).1 := by
  cases turn with
  | thread k =>
    by_cases hs : (calls k).switches = false
    · exact hp.go_ordinary hs
    · cases hk : calls k with
      | request call =>
        obtain ⟨env, disk, op⟩ := call
        rw [hk] at hs
        cases op with
        | enableApiOnly =>
          simp only [Sheltered, hk] at hturn
          exact hp.go_enable hk hturn.1 hturn.2
        | disableApiOnly =>
          simp only [Sheltered, hk] at hturn
          exact hp.go_disable hk hturn
        | _ => exact absurd rfl hs
      | received around delta =>
        rw [hk] at hs
        exact absurd rfl hs
      | tick env disk =>
        rw [hk] at hs
        exact absurd rfl hs
  | outside e => exact hp.ordinary (fun _ => .inl rfl) ⟨rfl, rfl⟩ fun _ => id
  | crash start => exact hp.crash hturn

def partyPool (t : Tracked) (calls : ι → CourseParty) : PartyPool ι :=
  Pool.start t fun i => (calls i).thread

/-- While api-only mode is in force no NMEA sentence has set the course, and the
listener changes the course only because of deltas of the own vessel. -/
theorem sheltered_keeps_nmea_out [FloatText] (m : CourseManager) (h : History)
    (hh : h.apiOnly = false) (calls : ι → CourseParty) (turns : List (CourseTurn ι))
    (hmeets : Machine.Meets (Pool.step Tracked.outside Tracked.restart) (Sheltered calls)
      (partyPool ⟨m, h⟩ calls) turns) :
    ∀ ts, ts <+: turns →
      let p := Machine.run (Pool.step Tracked.outside Tracked.restart) (partyPool ⟨m, h⟩ calls) ts
      (p.shared.history.apiOnly = true → ¬ p.shared.SetByNmea) ∧
      ∀ i around delta, ts ++ [.thread i] <+: turns → calls i = .received around delta →
        (p.go i).1.shared.manager ≠ p.shared.manager →
        vesselUri p.shared.manager.store.selfUri delta.context =
          some p.shared.manager.store.selfUri := by
  intro ts hts p
  have hstart : Guarded calls (partyPool ⟨m, h⟩ calls) := by
    have hrunning : ∀ i t, (partyPool ⟨m, h⟩ calls).stage i ≠ .running t := by
      intro i t ht
      cases ht
    refine ⟨fun i t ht => ?_, fun i _ t ht => absurd ht (hrunning i t), fun hon => ?_,
      fun hon => ?_, fun i _ _ _ t ht => absurd ht (hrunning i t), fun i _ _ _ t => hrunning i t⟩
    · exact (Thread.Stage.waiting.inj ht).symm
    · obtain hon | ⟨i, _, _, t, -, ht⟩ := hon
      · exact absurd (hh.symm.trans hon) (by simp)
      · exact absurd ht (hrunning i t)
    · exact absurd (hh.symm.trans hon) (by simp)
  obtain ⟨rest, rfl⟩ := hts
  have hp : Guarded calls p :=
    Machine.run_inv (fun _ _ hg hs => hg.step hs) hstart (Machine.meets_append.mp hmeets).1
  refine ⟨hp.cleared, fun i around delta hi hcall hchange => ?_⟩
  have hturn := Machine.meets_iff_prefix.mp hmeets ts (.thread i) hi
  simp only [Sheltered, hcall] at hturn
  refine hturn fun hnone => hchange ?_
  have hthread : (calls i).thread = .done (.ok ()) := by
    rw [hcall, CourseParty.thread, hnone]
    rfl
  have hidle : p.stage i = .waiting (.done (.ok ())) ∨ p.stage i = .returned (.ok ()) := by
    have hstep : ∀ (q : PartyPool ι) (turn : CourseTurn ι),
        (q.stage i = .waiting (.done (.ok ())) ∨ q.stage i = .returned (.ok ())) → True →
        ((q.step Tracked.outside Tracked.restart turn).1.stage i = .waiting (.done (.ok ())) ∨
          (q.step Tracked.outside Tracked.restart turn).1.stage i = .returned (.ok ())) :=
      fun q turn hq _ => Pool.step_idle turn hq
    exact Machine.run_inv hstep (.inl (congrArg _ hthread)) (Machine.meets_true _ _ _)
  rw [Pool.go_idle_shared hidle]

end
end

section
local instance : JsonText := JsonText.unused
local instance : Geodesy := Geodesy.unused
local instance : FloatText := FloatText.exact

/-- A destination from an NMEA sentence. -/
def nmeaDestination (latitude longitude : ℚ) : Delta :=
  Delta.selfVessel [⟨Source.nmea0183 "gps" "GP", 0,
    [⟨"navigation.courseGreatCircle.nextPoint.position",
      (⟨latitude, longitude, none⟩ : Position).toValue⟩]⟩]

/-- The listener with a destination, and a caller who switches api-only mode on. -/
def destinationAndApiOnly (i : Bool) : CourseParty :=
  if i then .received (fun _ => (emptyHanded, Disk.working)) (nmeaDestination 50 (-124))
  else .request ⟨emptyHanded, Disk.working, .enableApiOnly⟩

theorem sheltered_keeps_nmea_out_refused :
    let p := Machine.run (Pool.step Tracked.outside Tracked.restart)
      (partyPool ⟨new (SignalKStore.new "urn:mrn:signalk:uuid:test"), {}⟩ destinationAndApiOnly)
      [.thread false, .thread false, .thread false, .thread true]
    p.shared.history.apiOnly = true ∧ ¬ p.shared.SetByNmea := by
  intro p
  have hon : p.shared.history.apiOnly = true := by decide +kernel
  refine ⟨hon, (sheltered_keeps_nmea_out (new (SignalKStore.new "urn:mrn:signalk:uuid:test")) {}
    rfl destinationAndApiOnly [.thread false, .thread false, .thread false, .thread true] ?_ _
    List.prefix_rfl).1 hon⟩
  refine ⟨⟨fun u _ j t ht => ?_, fun ht => ?_⟩, ⟨fun u hu => ?_, fun _ hn => ?_⟩,
    ⟨fun u hu => ?_, fun _ hn => ?_⟩, fun _ => ?_, trivial⟩
  · cases ht
  · cases ht
  · cases hu
  · cases hn.1
  · cases hu
  · cases hn.1
  · decide +kernel

/-- A destination that is past the listener's check when api-only mode is switched on
becomes the course afterwards. -/
theorem pending_destination_set :
    let p := Machine.run (Pool.step Tracked.outside Tracked.restart)
      (partyPool ⟨new (SignalKStore.new "urn:mrn:signalk:uuid:test"), {}⟩ destinationAndApiOnly)
      ([.thread true] ++ List.replicate 3 (.thread false) ++ List.replicate 6 (.thread true))
    (p.stage false).result = some (.ok ()) ∧ p.shared.history.apiOnly = true ∧
      p.shared.manager.config.apiOnly = true ∧
      (nextPointOf p.shared.manager.state).map CoursePoint.position = some ⟨50, -124, none⟩ ∧
      p.shared.SetByNmea := by
  refine ⟨?_, ?_, ?_, ?_, ?_, ?_⟩ <;> decide +kernel

end
end CourseManager
end SignalK

import SignalK.Course.ApiOnly

/-! The arrival check among the other parties. A leg lasts as long as the point that is
headed for and its place in the route; the check is timely when the distance it reads
was written on the leg on which it acts. -/
namespace SignalK

namespace CourseThread
variable {ρ : Type}

/-- What the steps of all parties keep, apart from the arrivals. -/
structure KeptByAll (keeps : Tracked → Tracked × List CourseNote → Prop) : Prop
    extends Kept keeps where
  setMode : ∀ t, keeps t (t.setConfig ({ · with apiOnly := true }), [])
  inForce : ∀ t, keeps t (t.setApiOnly true, [])
  leave : ∀ t, keeps t ((t.setConfig ({ · with apiOnly := false })).setApiOnly false, [])
  setNmea : ∀ t state, keeps t (t.setState (some state) .nmea, [])

/-- A step does not go back to an earlier leg and declares no arrival. -/
def Calm (t : Tracked) (out : Tracked × List CourseNote) : Prop :=
  t.history.legs ≤ out.1.history.legs ∧
    ∀ reading leg advances, .arrived reading leg advances ∉ out.2

theorem legs_le_setState (t : Tracked) (state : Option CourseState) (setBy : CourseSource) :
    t.history.legs ≤ (t.setState state setBy).history.legs := by
  by_cases h : legOf state = legOf t.manager.state
  · simp [Tracked.setState, h]
  · simp [Tracked.setState, h]

theorem keptByAll_calm : KeptByAll Calm where
  look _ := ⟨le_rfl, by simp⟩
  setFile _ _ _ := ⟨le_rfl, by simp⟩
  setSource _ _ := ⟨le_rfl, by simp⟩
  setCircle _ _ := ⟨le_rfl, by simp⟩
  setState t state := ⟨legs_le_setState t state .api, by simp⟩
  revise t state _ := ⟨legs_le_setState t state _, by simp⟩
  setStore _ _ _ := ⟨le_rfl, by simp⟩
  setMode _ := ⟨le_rfl, by simp⟩
  inForce _ := ⟨le_rfl, by simp⟩
  leave _ := ⟨le_rfl, by simp⟩
  setNmea t state := ⟨legs_le_setState t (some state) .nmea, by simp⟩

variable [JsonText] [Geodesy]
variable {keeps : Tracked → Tracked × List CourseNote → Prop} {rely : Tracked → Prop}

theorem under_request (hk : KeptByAll keeps) (call : CourseCall) :
    call.thread.Under rely keeps := by
  obtain ⟨env, disk, op⟩ := call
  show (ofOp env disk op).Under rely keeps
  cases op with
  | enableApiOnly =>
    show (enableApiOnly env disk).Under rely keeps
    exact under_write hk.setMode (under_examine hk.toKept hk.inForce env disk)
  | disableApiOnly =>
    show disableApiOnly.Under rely keeps
    exact under_write hk.leave trivial
  | _ => exact under_ofOp hk.toKept env disk rfl (.inr hk.setNmea)

/-- What the arrival check does about an arrival that it has found. -/
def acting (env : Surroundings) (disk : Disk) (reading : ArrivalReading) (goesOn : Bool) :
    CourseThread CourseResult :=
  (arrive env disk reading goesOn).andThen fun _ => .done (.ok ())

theorem thread_tick (env : Surroundings) (disk : Disk) :
    (CourseParty.tick env disk).thread =
      .step (fun t => (t, [])) fun t =>
        match t.manager.arrival with
        | none => .done (.ok ())
        | some (distance, circle, goesOn) =>
          acting env disk ⟨distance, circle, t.history.distanceLeg⟩ goesOn := by
  refine congrArg (Thread.step fun t => (t, [])) (funext fun t => ?_)
  beta_reduce
  cases t.manager.arrival with
  | none => rfl
  | some found => rfl

end CourseThread

namespace CourseManager
open CourseThread

/-- The distance in the store is within the arrival circle of the course. -/
def Near (m : CourseManager) : Prop :=
  ∃ course value distance, m.state = some course ∧
    m.store.getSelfPath distancePath = some value ∧ value.value.asF64 = some distance ∧
    0 < course.arrivalCircle ∧ distance < course.arrivalCircle

theorem near_of_arrival {m : CourseManager} {distance circle : ℚ} {goesOn : Bool}
    (h : m.arrival = some (distance, circle, goesOn)) : m.Near ∧ distance < circle := by
  unfold arrival at h
  cases hs : m.state with
  | none => simp [hs] at h
  | some course =>
    cases hv : m.store.getSelfPath distancePath with
    | none => simp [hs, hv] at h
    | some value =>
      cases hd : value.value.asF64 with
      | none => simp [hs, hv, hd] at h
      | some d =>
        by_cases hc : 0 < course.arrivalCircle ∧ d < course.arrivalCircle
        · simp [hs, hv, hd, hc] at h
          obtain ⟨rfl, rfl, -⟩ := h
          exact ⟨⟨course, value, d, hs, hv, hd, hc.1, hc.2⟩, hc.2⟩
        · simp [hs, hv, hd, hc] at h

/-- The next place in a route is another one. -/
theorem index_advanced_ne (index : UInt64) :
    (index.toInt64 + (1 : Int32).toInt64).toUInt64 ≠ index := by
  have hone : (1 : Int32).toInt64.toUInt64 = 1 := by decide
  rw [Int64.toUInt64_add, hone]
  simp

/-- An advance along the route begins a new leg. -/
theorem legOf_advanced_ne {m : CourseManager} {env : Surroundings} {state : CourseState}
    (h : (advanced env 1 m).saved = .ok (some state)) :
    legOf (advanced env 1 m).state ≠ legOf m.state := by
  unfold advanced at h ⊢
  cases hf : m.following with
  | error e => simp [hf, unchanged] at h
  | ok followed =>
    obtain ⟨course, route⟩ := followed
    obtain ⟨hstate, hroute⟩ := following_eq_ok.mp hf
    cases hp : resolveRoutePoints env.resources route.href with
    | error e => simp [hf, hp, unchanged] at h
    | ok points =>
      simp only [hf, hp] at h ⊢
      split_ifs at h ⊢ with hrange
      · simp [unchanged] at h
      · intro he
        have hindex := (Prod.mk.inj he).2
        simp only [changed, heading, hstate, hroute, Option.bind_some, Option.map_some,
          Option.some.injEq] at hindex
        exact index_advanced_ne route.pointIndex hindex

/-- An arrival that was declared: what the check had read, and the leg it was declared on. -/
structure Arrival where
  reading : ArrivalReading
  leg : Nat
  advances : Bool

def arrivals {ι : Type*} (notes : List (Option ι × CourseNote)) : List Arrival :=
  notes.filterMap fun note =>
    match note.2 with
    | .broadcast _ => none
    | .arrived reading leg advances => some ⟨reading, leg, advances⟩

/-- The distance was written on the leg of the arrival, and was within the circle. -/
def Arrival.Current (a : Arrival) : Prop :=
  a.reading.leg = some a.leg ∧ a.reading.distance < a.reading.circle

theorem arrivals_append {ι : Type*} (xs ys : List (Option ι × CourseNote)) :
    arrivals (xs ++ ys) = arrivals xs ++ arrivals ys := by
  simp [arrivals]

theorem arrivals_broadcast {ι : Type*} (i : Option ι) (deltas : List Delta) :
    arrivals ((deltas.map CourseNote.broadcast).map (i, ·)) = [] := by
  simp [arrivals]

theorem arrivals_of_calm {ι : Type*} (i : Option ι) {notes : List CourseNote}
    (h : ∀ reading leg advances, .arrived reading leg advances ∉ notes) :
    arrivals (notes.map (i, ·)) = [] := by
  refine List.filterMap_eq_nil_iff.mpr fun x hx => ?_
  obtain ⟨note, hnote, rfl⟩ := List.mem_map.mp hx
  cases note with
  | broadcast delta => rfl
  | arrived reading leg advances => exact absurd hnote (h reading leg advances)

section
variable [JsonText] [Geodesy] {ι : Type*}

/-- The check of a timer has found an arrival and is about to act on it. -/
def Acting (calls : ι → CourseParty) (p : PartyPool ι) (i : ι) : Prop :=
  ∃ env disk reading goesOn, calls i = .tick env disk ∧
    p.stage i = .running (acting env disk reading goesOn)

/-- The turns that keep the arrival check timely: it finds the vessel near only by a
distance written on the present leg, and no other party ends the leg before it acts. -/
def Timely [DecidableEq ι] (calls : ι → CourseParty) (p : PartyPool ι) : CourseTurn ι → Prop
  | .thread i =>
    (∀ env disk, calls i = .tick env disk → ∀ t, p.stage i = .waiting t →
      p.shared.manager.Near → p.shared.history.distanceLeg = some p.shared.history.legs) ∧
    ∀ j, j ≠ i → Acting calls p j → (p.go i).1.shared.history.legs = p.shared.history.legs
  | .outside _ => True
  | .crash _ => True

/-- A check that is about to act does so on a distance of the present leg. -/
def Acts (calls : ι → CourseParty) (p : PartyPool ι) (i : ι)
    (t : CourseThread CourseResult) : Prop :=
  ∃ env disk reading goesOn, calls i = .tick env disk ∧ t = acting env disk reading goesOn ∧
    reading.leg = some p.shared.history.legs ∧ reading.distance < reading.circle

def CalmThread (t : CourseThread CourseResult) : Prop :=
  t.Under (fun _ => True) Calm

/-- What the parties keep, with the notes so far. -/
structure Timed (calls : ι → CourseParty) (p : PartyPool ι)
    (notes : List (Option ι × CourseNote)) : Prop where
  waiting : ∀ i t, p.stage i = .waiting t → t = (calls i).thread
  running : ∀ i t, p.stage i = .running t → CalmThread t ∨ Acts calls p i t
  current : ∀ a ∈ arrivals notes, a.Current
  behind : ∀ a ∈ arrivals notes, a.advances = true → a.leg < p.shared.history.legs
  passed : ((arrivals notes).filter Arrival.advances).Pairwise fun a b => a.leg < b.leg

variable {calls : ι → CourseParty} {p : PartyPool ι} {notes : List (Option ι × CourseNote)}

/-- What is left of the stages after a turn on which no leg ended before its arrival. -/
def Follows (calls : ι → CourseParty) (p p' : PartyPool ι) (j : ι) : Prop :=
  (p'.stage j = p.stage j ∧
    (Acting calls p j → p'.shared.history.legs = p.shared.history.legs)) ∨
  (∀ t, p'.stage j ≠ .waiting t) ∧ ∀ t, p'.stage j = .running t → CalmThread t ∨ Acts calls p' j t

/-- A turn that declares no arrival. -/
theorem Timed.calm (hp : Timed calls p notes) {p' : PartyPool ι}
    {more : List (Option ι × CourseNote)} (hmore : arrivals more = [])
    (hlegs : p.shared.history.legs ≤ p'.shared.history.legs)
    (hstage : ∀ j, Follows calls p p' j) : Timed calls p' (notes ++ more) := by
  have harrivals : arrivals (notes ++ more) = arrivals notes := by
    rw [arrivals_append, hmore, List.append_nil]
  refine ⟨fun i t ht => ?_, fun i t ht => ?_, ?_, fun a ha hadv => ?_, ?_⟩
  · obtain ⟨hsame, -⟩ | ⟨hwait, -⟩ := hstage i
    · exact hp.waiting i t (hsame ▸ ht)
    · exact absurd ht (hwait t)
  · obtain ⟨hsame, hleg⟩ | ⟨-, hrun⟩ := hstage i
    · obtain hcalm | ⟨env, disk, reading, goesOn, hi, rfl, hread, hnear⟩ :=
        hp.running i t (hsame ▸ ht)
      · exact .inl hcalm
      · have hlast := hleg ⟨env, disk, reading, goesOn, hi, hsame ▸ ht⟩
        exact .inr ⟨env, disk, reading, goesOn, hi, rfl, hlast ▸ hread, hnear⟩
    · exact hrun t ht
  · rw [harrivals]
    exact hp.current
  · rw [harrivals] at ha
    have hlt := hp.behind a ha hadv
    omega
  · rw [harrivals]
    exact hp.passed

/-- A turn that declares one arrival, by a distance of the present leg. -/
theorem Timed.arrive (hp : Timed calls p notes) {p' : PartyPool ι}
    {more : List (Option ι × CourseNote)} {a : Arrival} (hmore : arrivals more = [a])
    (hcurrent : a.Current) (hleg : a.leg = p.shared.history.legs)
    (hlegs : p.shared.history.legs ≤ p'.shared.history.legs)
    (hadv : a.advances = true → p.shared.history.legs < p'.shared.history.legs)
    (hstage : ∀ j, Follows calls p p' j) : Timed calls p' (notes ++ more) := by
  have hquiet : Timed calls p' (notes ++ []) := hp.calm rfl hlegs hstage
  rw [List.append_nil] at hquiet
  have harrivals : arrivals (notes ++ more) = arrivals notes ++ [a] := by
    rw [arrivals_append, hmore]
  refine ⟨hquiet.waiting, hquiet.running, fun b hb => ?_, fun b hb hbadv => ?_, ?_⟩
  · rw [harrivals] at hb
    obtain hb | hb := List.mem_append.mp hb
    · exact hp.current b hb
    · rw [List.mem_singleton.mp hb]
      exact hcurrent
  · rw [harrivals] at hb
    obtain hb | hb := List.mem_append.mp hb
    · exact hquiet.behind b hb hbadv
    · rw [List.mem_singleton.mp hb] at hbadv ⊢
      have hlt := hadv hbadv
      omega
  · rw [harrivals, List.filter_append, List.pairwise_append]
    refine ⟨hp.passed, ?_, fun b hb c hc => ?_⟩
    · exact List.Pairwise.filter _ (List.pairwise_singleton _ a)
    · obtain ⟨hb, hbadv⟩ := List.mem_filter.mp hb
      obtain rfl := List.mem_singleton.mp (List.mem_filter.mp hc).1
      have hlt := hp.behind b hb hbadv
      omega

variable [DecidableEq ι]

/-- The other parties stay where they are while one takes a step. -/
theorem follows_advance {k : ι} {t : CourseThread CourseResult}
    (hleg : ∀ j, j ≠ k → Acting calls p j →
      (p.advance k t).1.shared.history.legs = p.shared.history.legs)
    (hk : Follows calls p (p.advance k t).1 k) (j : ι) : Follows calls p (p.advance k t).1 j := by
  by_cases hj : j = k
  · rw [hj]
    exact hk
  · exact .inl ⟨p.advance_stage_ne t hj, hleg j hj⟩

theorem follows_step {k : ι} {act : Tracked → Tracked × List CourseNote}
    {next : Tracked → CourseThread CourseResult}
    (h : CalmThread (next p.shared) ∨ Acts calls (p.advance k (.step act next)).1 k (next p.shared)) :
    Follows calls p (p.advance k (.step act next)).1 k := by
  refine .inr ⟨fun u => ?_, fun u hu => ?_⟩
  · rw [Pool.advance_step_stage]
    exact Thread.Stage.of_ne_waiting _ u
  · rw [Pool.advance_step_stage] at hu
    rw [Thread.Stage.of_eq_running hu]
    exact h

theorem Timed.advance_calm {k : ι} (hp : Timed calls p notes) {t : CourseThread CourseResult}
    (ht : CalmThread t)
    (hleg : ∀ j, j ≠ k → Acting calls p j →
      (p.advance k t).1.shared.history.legs = p.shared.history.legs) :
    Timed calls (p.advance k t).1 (notes ++ (p.advance k t).2) := by
  cases t with
  | done r =>
    refine hp.calm rfl le_rfl (follows_advance hleg (.inr ⟨fun u hu => ?_, fun u hu => ?_⟩))
    · rw [Pool.advance_done_stage] at hu
      cases hu
    · rw [Pool.advance_done_stage] at hu
      cases hu
  | step act next =>
    obtain ⟨⟨hlegs, hquiet⟩, hnext⟩ := ht p.shared trivial
    exact hp.calm (arrivals_of_calm _ hquiet) hlegs (follows_advance hleg (follows_step (.inl hnext)))

/-- The look of the arrival check: it goes on when the vessel is near. -/
theorem Timed.advance_look {k : ι} (hp : Timed calls p notes) {env : Surroundings} {disk : Disk}
    (hk : calls k = .tick env disk)
    (hfresh : p.shared.manager.Near → p.shared.history.distanceLeg = some p.shared.history.legs) :
    Timed calls (p.advance k (CourseParty.tick env disk).thread).1
      (notes ++ (p.advance k (CourseParty.tick env disk).thread).2) := by
  rw [thread_tick]
  refine hp.calm rfl le_rfl (follows_advance (fun _ _ _ => rfl) (follows_step ?_))
  cases hfound : p.shared.manager.arrival with
  | none => exact .inl trivial
  | some found =>
    obtain ⟨distance, circle, goesOn⟩ := found
    obtain ⟨hnear, hlt⟩ := near_of_arrival hfound
    exact .inr ⟨env, disk, _, goesOn, hk, rfl, hfresh hnear, hlt⟩

/-- The step that advances the route, or fails to. -/
theorem Timed.advance_route {k : ι} (hp : Timed calls p notes) {env : Surroundings} {disk : Disk}
    {reading : ArrivalReading} (hread : reading.leg = some p.shared.history.legs)
    (hnear : reading.distance < reading.circle)
    (hleg : ∀ j, j ≠ k → Acting calls p j →
      (p.advance k (acting env disk reading true)).1.shared.history.legs =
        p.shared.history.legs) :
    Timed calls (p.advance k (acting env disk reading true)).1
      (notes ++ (p.advance k (acting env disk reading true)).2) := by
  have hlegs := legs_le_setState p.shared (advanced env 1 p.shared.manager).state
    p.shared.history.setBy
  have hrest : Follows calls p (p.advance k (acting env disk reading true)).1 k := by
    refine follows_step (.inl (Thread.under_andThen (Thread.under_andThen ?_ fun _ => trivial)
      fun _ => trivial))
    beta_reduce
    split
    · trivial
    · trivial
    · exact under_persistState keptByAll_calm.toKept disk _ _
        (under_orReturn (under_emitDeltas keptByAll_calm.toKept env _ trivial))
  have hstage := follows_advance hleg hrest
  cases hsaved : (advanced env 1 p.shared.manager).saved with
  | error e =>
    refine hp.calm ?_ hlegs hstage
    simp [acting, CourseThread.arrive, revise, Thread.andThen, Pool.advance, hsaved, arrivals]
  | ok saved =>
    cases saved with
    | none =>
      refine hp.calm ?_ hlegs hstage
      simp [acting, CourseThread.arrive, revise, Thread.andThen, Pool.advance, hsaved, arrivals]
    | some state =>
      refine hp.arrive (a := ⟨reading, p.shared.history.legs, true⟩) ?_ ⟨hread, hnear⟩ rfl hlegs
        (fun _ => ?_) hstage
      · simp [acting, CourseThread.arrive, revise, Thread.andThen, Pool.advance, hsaved, arrivals]
      · have hne := legOf_advanced_ne hsaved
        simp [acting, CourseThread.arrive, revise, Thread.andThen, Pool.advance, Tracked.setState,
          hne]

/-- The step that notifies the arrival at the destination. -/
theorem Timed.advance_destination {k : ι} (hp : Timed calls p notes) {env : Surroundings}
    {disk : Disk} {reading : ArrivalReading}
    (hread : reading.leg = some p.shared.history.legs)
    (hnear : reading.distance < reading.circle) :
    Timed calls (p.advance k (acting env disk reading false)).1
      (notes ++ (p.advance k (acting env disk reading false)).2) := by
  refine hp.arrive (a := ⟨reading, p.shared.history.legs, false⟩) ?_ ⟨hread, hnear⟩ rfl le_rfl
    (fun h => by cases h) (follows_advance (fun _ _ _ => rfl) (follows_step (.inl trivial)))
  simp [acting, CourseThread.arrive, Thread.andThen, Pool.advance, arrivals]

theorem Timed.go {k : ι} (hp : Timed calls p notes) (hk : Timely calls p (.thread k)) :
    Timed calls (p.go k).1 (notes ++ (p.go k).2) := by
  obtain ⟨hfresh, hleg⟩ := hk
  cases hr : p.rest k with
  | none =>
    rw [Pool.go_of_none hr, List.append_nil]
    exact hp
  | some t =>
    rw [Pool.go_of_rest hr] at hleg ⊢
    obtain hs | hs := Pool.stage_of_rest hr
    · obtain rfl := hp.waiting k t hs
      cases hparty : calls k with
      | request call =>
        rw [hparty] at hleg
        exact hp.advance_calm (under_request keptByAll_calm call) hleg
      | received around delta =>
        rw [hparty] at hleg
        exact hp.advance_calm (under_applyPositions keptByAll_calm.toKept around _
          (.inr keptByAll_calm.setNmea)) hleg
      | tick env disk => exact hp.advance_look hparty (hfresh env disk hparty _ hs)
    · obtain hcalm | ⟨env, disk, reading, goesOn, -, rfl, hread, hnear⟩ := hp.running k t hs
      · exact hp.advance_calm hcalm hleg
      · cases goesOn with
        | true => exact hp.advance_route hread hnear hleg
        | false => exact hp.advance_destination hread hnear

theorem Timed.step [FloatText] (hp : Timed calls p notes) {turn : CourseTurn ι}
    (hturn : Timely calls p turn) :
    Timed calls (p.step Tracked.outside Tracked.restart turn).1
      (notes ++ (p.step Tracked.outside Tracked.restart turn).2) := by
  cases turn with
  | thread k => exact hp.go hturn
  | outside e =>
    exact hp.calm (arrivals_broadcast none _) le_rfl fun j => .inl ⟨rfl, fun _ => rfl⟩
  | crash start =>
    refine hp.calm (arrivals_broadcast none _) (Nat.le_succ _) fun j => ?_
    -- a restart begins a new leg, but no check survives it
    cases hs : p.stage j with
    | running t =>
      refine .inr ⟨fun u hu => ?_, fun u hu => ?_⟩
      · simp [Pool.step, hs, Thread.Stage.crashed] at hu
      · simp [Pool.step, hs, Thread.Stage.crashed] at hu
    | _ =>
      refine .inl ⟨by simp [Pool.step, hs, Thread.Stage.crashed], fun hact => ?_⟩
      obtain ⟨_, _, _, _, -, hrunning⟩ := hact
      rw [hs] at hrunning
      cases hrunning

/-- Every arrival is declared on the leg on which its distance was written, within the
circle, and no leg is passed twice. -/
theorem timely_arrivals_current [FloatText] (t : Tracked) (calls : ι → CourseParty)
    (turns : List (CourseTurn ι))
    (hmeets : Machine.Meets (Pool.step Tracked.outside Tracked.restart) (Timely calls)
      (partyPool t calls) turns) :
    let found := arrivals
      (Machine.exec (Pool.step Tracked.outside Tracked.restart) (partyPool t calls) turns).2
    (∀ a ∈ found, a.Current) ∧
      (found.filter Arrival.advances).Pairwise fun a b => a.leg < b.leg := by
  intro found
  have hstart : Timed calls (partyPool t calls) [] := by
    refine ⟨fun i u hu => (Thread.Stage.waiting.inj hu).symm, fun i u hu => ?_, fun a ha => ?_,
      fun a ha => ?_, .nil⟩
    · cases hu
    · cases ha
    · cases ha
  have hstep : ∀ (q : PartyPool ι) (ns : List (Option ι × CourseNote)) (turn : CourseTurn ι),
      Timed calls q ns → Timely calls q turn →
        Timed calls (q.step Tracked.outside Tracked.restart turn).1
          (ns ++ (q.step Tracked.outside Tracked.restart turn).2) :=
    fun _ _ _ hq hs => hq.step hs
  have hend := Machine.exec_inv hstep hstart hmeets
  rw [List.nil_append] at hend
  exact ⟨hend.current, hend.passed⟩

end

section
local instance : JsonText := JsonText.unused
local instance : Geodesy := Geodesy.unused
local instance : FloatText := FloatText.exact

/-- A route of three points, whatever is asked for. -/
def threePointRoute : Surroundings where
  now := "2026-01-01T00:00:00Z"
  timestamp := 0
  clock _ := 0
  resources _ _ := .ok (some (Json.ofFields [("coordinates",
    .array [.array [.ofF64 1, .ofF64 2], .array [.ofF64 3, .ofF64 4],
      .array [.ofF64 5, .ofF64 6]])]))

/-- The distance of the own vessel, as the calculator writes it. -/
def distanceWritten (distance : ℚ) : StoreEvent :=
  .applyDelta (fun _ => 0) (Delta.selfVessel
    [⟨Source.plugin "derived-data", 0, [⟨distancePath, .ofF64 distance⟩]⟩])

def pointIndexOf (m : CourseManager) : Option UInt64 :=
  (m.state.bind CourseState.activeRoute).map ActiveRoute.pointIndex

/-- A manager on the way to the first of three points, with a circle of 100 m. -/
def underWay : Tracked where
  manager := { new (SignalKStore.new "urn:mrn:signalk:uuid:test") with
    state := some {
      startTime := none
      targetArrivalTime := none
      arrivalCircle := 100
      activeRoute := some ⟨"/resources/routes/r", false, 0, 3, none, none⟩
      nextPoint := some (CoursePoint.onRoute ⟨2, 1, none⟩)
      previousPoint := none } }
  history := {}

theorem timely_arrivals_current_once :
    let out := Machine.exec (Pool.step Tracked.outside Tracked.restart)
      (partyPool underWay fun _ : Unit => .tick threePointRoute Disk.working)
      [.outside (distanceWritten 50), .thread (), .thread ()]
    pointIndexOf out.1.shared.manager = some 1 ∧
      (arrivals out.2).map Arrival.leg = [0] ∧ ∀ a ∈ arrivals out.2, a.Current := by
  intro out
  have hout : pointIndexOf out.1.shared.manager = some 1 ∧ (arrivals out.2).map Arrival.leg = [0] := by
    decide +kernel
  have hcurrent := timely_arrivals_current underWay
    (fun _ : Unit => .tick threePointRoute Disk.working)
    [.outside (distanceWritten 50), .thread (), .thread ()] ?_
  · exact ⟨hout.1, hout.2, hcurrent.1⟩
  · refine ⟨trivial, ⟨fun _ _ _ _ _ _ => ?_, fun j hj => absurd rfl hj⟩,
      ⟨fun _ _ _ u hu => ?_, fun j hj => absurd rfl hj⟩, trivial⟩
    · decide +kernel
    · cases hu

/-- Two callers who set the route and its arrival circle, and ticks of the timer. -/
def routeAndTicks : Nat → CourseParty
  | 0 => .request ⟨threePointRoute, Disk.working, .setActiveRoute ⟨"/resources/routes/r", false⟩⟩
  | 1 => .request ⟨threePointRoute, Disk.working, .setArrivalCircle 100⟩
  | _ => .tick threePointRoute Disk.working

/-- Two ticks advance the route twice by one distance, that of its first point. -/
theorem one_distance_passes_two_points :
    let turns : List (CourseTurn Nat) :=
      List.replicate 7 (.thread 0) ++ List.replicate 5 (.thread 1) ++
        [.outside (distanceWritten 50)] ++ List.replicate 5 (.thread 2) ++
        List.replicate 2 (.thread 3)
    let start : PartyPool Nat :=
      partyPool ⟨new (SignalKStore.new "urn:mrn:signalk:uuid:test"), {}⟩ routeAndTicks
    let out := Machine.exec (Pool.step Tracked.outside Tracked.restart) start turns
    (out.1.stage 2).result = some (.ok ()) ∧ pointIndexOf out.1.shared.manager = some 2 ∧
      (arrivals out.2).map Arrival.leg = [1, 2] ∧
      (arrivals out.2).map (fun a => a.reading.leg) = [some 1, some 1] ∧
      ∃ a ∈ arrivals out.2, ¬ a.Current := by
  intro turns start out
  obtain ⟨hresult, hindex, hleg, hread⟩ : (out.1.stage 2).result = some (.ok ()) ∧
      pointIndexOf out.1.shared.manager = some 2 ∧ (arrivals out.2).map Arrival.leg = [1, 2] ∧
      (arrivals out.2).map (fun a => a.reading.leg) = [some 1, some 1] := by
    decide +kernel
  refine ⟨hresult, hindex, hleg, hread, ?_⟩
  by_contra hall
  push Not at hall
  have hsame : (arrivals out.2).map (fun a => a.reading.leg) =
      ((arrivals out.2).map Arrival.leg).map some := by
    rw [List.map_map]
    exact List.map_congr_left fun a ha => (hall a ha).1
  rw [hleg, hread] at hsame
  cases hsame

end

end CourseManager
end SignalK

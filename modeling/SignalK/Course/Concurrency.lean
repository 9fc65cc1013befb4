import SignalK.Course.Atomicity

/-! Calls of the course manager whose steps interleave. Memory, file and store are
written in different orders by different operations, so two calls under way at once
can leave three different courses; calls that do not overlap run one after another. -/
namespace SignalK

namespace CourseManager

section
variable [JsonText] [Geodesy] {ι : Type*}

abbrev CallPool (ι : Type*) := Pool ι Tracked CourseNote CourseResult

def callPool (m : CourseManager) (calls : ι → CourseCall) : CallPool ι :=
  Pool.start ⟨m, {}⟩ fun i => (calls i).thread

/-- The calls one after another. -/
def inSequence (calls : ι → CourseCall) (order : List ι) : List CourseEvent :=
  order.map fun i => .op (calls i).env (calls i).op

/-- Two accesses of different calls are made in the order of their calls, or can be
exchanged. -/
def InOrder [DecidableEq ι] (order : List ι)
    (x y : ι × CourseThread CourseResult) : Prop :=
  order.idxOf y.1 < order.idxOf x.1 → x.2.Commutes y.2

/-- In sequence the threads are the operations. -/
theorem run_sequel_manager (calls : ι → CourseCall) (order : List ι) (t : Tracked)
    (hd : ∀ i ∈ order, (calls i).disk = Disk.working) :
    (Machine.run (Pool.sequel fun i => (calls i).thread) t order).manager =
      Machine.run step t.manager (inSequence calls order) := by
  induction order generalizing t with
  | nil => rfl
  | cons i order ih =>
    have hout := CourseThread.outcome_ofOp (calls i).env (calls i).op t
    have hm := congrArg Outcome.manager hout
    have hrec := ih (Pool.sequel (fun i => (calls i).thread) t i).1
      fun j hj => hd j (List.mem_cons_of_mem _ hj)
    have hfirst : (Pool.sequel (fun i => (calls i).thread) t i).1.manager =
        (t.manager.step (.op (calls i).env (calls i).op)).1 := by
      simp only [Pool.sequel, CourseCall.thread, hd i List.mem_cons_self]
      exact hm
    rw [hfirst] at hrec
    exact hrec

variable [FloatText] [DecidableEq ι]

/-- Calls whose conflicting accesses are made in one order leave what they leave one
after another in that order; when each of them leaves nothing behind there, memory,
file and store show the same course. -/
theorem ordered_calls_serialise (m : CourseManager) (calls : ι → CourseCall)
    (schedule order : List ι) (hm : Sound m) (ha : Agrees m) (hn : order.Nodup)
    (hall : ∀ i, i ∈ order) (hd : ∀ i, (calls i).disk = Disk.working)
    (horder : (Pool.taken (callPool m calls) schedule).Pairwise (InOrder order))
    (hcovered : Machine.Meets step StepCovered m (inSequence calls order)) :
    let p := Machine.run Pool.go (callPool m calls) schedule
    (∀ i, (p.stage i).result = some (.ok ())) →
      p.shared.manager = Machine.run step m (inSequence calls order) ∧
        Agrees p.shared.manager := by
  intro p hreturned
  have hshared := Pool.run_in_order hn (p := callPool m calls) schedule
    (fun i _ => hall i) (fun i _ => rfl)
    (fun i _ => ⟨_, Thread.Stage.result_eq_some.mp (hreturned i)⟩) horder
  have hmanager : p.shared.manager = Machine.run step m (inSequence calls order) := by
    rw [show p.shared = _ from hshared]
    exact run_sequel_manager calls order _ fun i _ => hd i
  refine ⟨hmanager, ?_⟩
  have hlegal : ∀ e ∈ inSequence calls order, LeavesCourse m.store.selfUri e := by
    intro e he
    obtain ⟨i, -, rfl⟩ := List.mem_map.mp he
    trivial
  rw [hmanager]
  have hstart : Sound m ∧ m.store.selfUri = m.store.selfUri := ⟨hm, rfl⟩
  have hstep : ∀ m' e, Sound m' ∧ m'.store.selfUri = m.store.selfUri →
      LeavesCourse m.store.selfUri e → Agrees m' → Agrees (m'.step e).1 →
        Sound (m'.step e).1 ∧ (m'.step e).1.store.selfUri = m.store.selfUri :=
    fun _ e => step_sound e
  exact (Machine.always_of_meets hstep (fun _ e => step_agrees_iff e) hstart ha hlegal
    hcovered _ List.prefix_rfl).2

end

section
local instance : JsonText := JsonText.unused
local instance : Geodesy := Geodesy.unused
local instance : FloatText := FloatText.exact

/-- A clear and the end of api-only mode, at the same time. -/
def clearWhileDisabling (i : Bool) : CourseCall where
  env := emptyHanded
  disk := Disk.working
  op := if i then .disableApiOnly else .clear

theorem ordered_calls_serialise_overlapping :
    let m := new (SignalKStore.new "urn:mrn:signalk:uuid:test")
    let p := Machine.run Pool.go (callPool m clearWhileDisabling) [false, true, false, false]
    p.shared.manager = Machine.run step m (inSequence clearWhileDisabling [false, true]) ∧
      Agrees p.shared.manager := by
  intro m p
  have hempty : ∀ p : CoursePath,
      (SignalKStore.new "urn:mrn:signalk:uuid:test").getSelfPath p.text = none :=
    fun p => by simp [SignalKStore.getSelfPath]
  have hnew := new_agrees hempty
  refine ordered_calls_serialise m clearWhileDisabling _ [false, true] hnew.1 hnew.2
    (by decide) (by decide) (fun i => rfl) ?_ ?_ ?_
  · refine .cons (fun y _ h => absurd h (Nat.not_lt_zero _)) ?_
    refine .cons ?_ ?_
    · refine List.forall_mem_cons.mpr ⟨fun _ s => ⟨rfl, rfl, rfl⟩, ?_⟩
      refine List.forall_mem_cons.mpr ⟨fun _ s => ⟨rfl, rfl, rfl⟩, ?_⟩
      intro y hy
      cases hy
    · refine .cons (fun y _ h => absurd h (Nat.not_lt_zero _)) ?_
      exact .cons (fun y _ h => absurd h (Nat.not_lt_zero _)) .nil
  · exact ⟨trivial, trivial, trivial⟩
  · intro i
    cases i <;> decide +kernel

/-- Two destinations at the same time. -/
def twoDestinations (i : Bool) : CourseCall where
  env := emptyHanded
  disk := Disk.working
  op := .setDestination ⟨some (if i then ⟨60, 20, none⟩ else ⟨50, -124, none⟩), none⟩

/-- The second call overtakes the first between its file and its store: memory and
store keep the first destination, the file the second. -/
theorem overtaken_call_splits_course :
    let p := Machine.run Pool.go
      (callPool (new (SignalKStore.new "urn:mrn:signalk:uuid:test")) twoDestinations)
      [false, false, false, true, true, true, true, true, true, true, false, false, false, false]
    (∀ i, (p.stage i).result = some (.ok ())) ∧
      (nextPointOf p.shared.manager.state).map CoursePoint.position = some ⟨50, -124, none⟩ ∧
      (p.shared.manager.savedState.bind nextPointOf).map CoursePoint.position =
        some ⟨60, 20, none⟩ ∧ ¬ Agrees p.shared.manager := by
  intro p
  have hmemory : (nextPointOf p.shared.manager.state).map CoursePoint.position =
      some ⟨50, -124, none⟩ := by decide +kernel
  have hfile : (p.shared.manager.savedState.bind nextPointOf).map CoursePoint.position =
      some ⟨60, 20, none⟩ := by decide +kernel
  refine ⟨by decide +kernel, hmemory, hfile, fun ha => ?_⟩
  rw [ha.file] at hfile
  have hsame : ((p.shared.manager.state.map some).bind nextPointOf) =
      nextPointOf p.shared.manager.state := by
    cases p.shared.manager.state <;> rfl
  rw [hsame, hmemory] at hfile
  exact absurd hfile (by decide +kernel)

end
end CourseManager
end SignalK

import SignalK.Lib.Machine

/-! Tasks that are spawned one after another and run in any order. Each prepares itself in
steps of its own, and then writes some keys of a shared state. -/
namespace Spawn
variable {α τ σ ρ ε κ ν : Type*}

/-- A task finishes with its effect, or without one. -/
inductive Task (α τ : Type*) where
  | waiting (a : α)
  | ready (t : τ)
  | finished (t : Option τ)
  deriving DecidableEq

def Task.unfinished : Task α τ → Bool
  | .finished _ => false
  | _ => true

/-- What tasks do; each step sees some reading, such as of a clock. -/
structure Program (α τ σ ρ ε : Type*) where
  prepare : ρ → σ → α → σ × Task α τ
  run : ρ → σ → τ → σ
  outside : σ → ε → σ

structure Pool (α τ σ : Type*) where
  shared : σ
  /-- in the order in which they were spawned -/
  tasks : List (Task α τ)

inductive Event (α ρ ε : Type*) where
  | spawn (a : α)
  /-- some task takes a step -/
  | go (i : Nat) (reading : ρ)
  | outside (e : ε)

namespace Program

def step (P : Program α τ σ ρ ε) (p : Pool α τ σ) : Event α ρ ε → Pool α τ σ × List Empty
  | .spawn a => ({ p with tasks := p.tasks ++ [.waiting a] }, [])
  | .go i reading =>
    match p.tasks[i]? with
    | some (.waiting a) =>
      ({ shared := (P.prepare reading p.shared a).1
         tasks := p.tasks.set i (P.prepare reading p.shared a).2 }, [])
    | some (.ready t) =>
      ({ shared := P.run reading p.shared t
         tasks := p.tasks.set i (.finished (some t)) }, [])
    | _ => (p, [])
  | .outside e => ({ p with shared := P.outside p.shared e }, [])

end Program

/-- How effects write keys: where one takes, it puts its values over those that are there. -/
structure Keyed (P : Program α τ σ ρ ε) (κ ν : Type*) where
  get : σ → κ → Option ν
  puts : τ → κ → Option ν
  Takes : ρ → σ → τ → Prop
  Inv : σ → Prop
  prepares : ∀ r s a, Inv s → Inv (P.prepare r s a).1 ∧ get (P.prepare r s a).1 = get s
  /-- a task that is being prepared has had no effect -/
  unready : ∀ r s a t, (P.prepare r s a).2 ≠ .finished (some t)
  runs : ∀ r s t, Inv s → Inv (P.run r s t)
  takes : ∀ r s t k, Inv s → Takes r s t → get (P.run r s t) k = (puts t k).or (get s k)
  others : ∀ s e, Inv s → Inv (P.outside s e) ∧ get (P.outside s e) = get s

namespace Keyed
variable {P : Program α τ σ ρ ε} (K : Keyed P κ ν)

/-- What a task has put under a key. -/
def put (k : κ) : Task α τ → Option ν
  | .finished (some t) => K.puts t k
  | _ => none

/-- What the last task has put under a key, in the order of spawning. -/
def last (tasks : List (Task α τ)) (k : κ) : Option ν :=
  (tasks.filterMap (K.put k)).getLast?

/-- A task has its effect before all that were spawned after it and write one of its keys. -/
def InTurn (p : Pool α τ σ) : Event α ρ ε → Prop
  | .go i reading => ∀ t, p.tasks[i]? = some (.ready t) → K.Takes reading p.shared t ∧
      ∀ j t', i < j → p.tasks[j]? = some (.finished (some t')) →
        ∀ k, K.puts t k ≠ none → K.puts t' k = none
  | _ => True

/-- It is a task's turn when no task that was spawned after it has finished. -/
theorem inTurn_of_drop {p : Pool α τ σ} {i : Nat} {reading : ρ}
    (htakes : ∀ t, p.tasks[i]? = some (.ready t) → K.Takes reading p.shared t)
    (h : (p.tasks.drop (i + 1)).all Task.unfinished = true) :
    K.InTurn p (.go i reading : Event α ρ ε) := by
  intro t ht
  refine ⟨htakes t ht, fun j t' hj ht' => ?_⟩
  have hmem : Task.finished (some t') ∈ p.tasks.drop (i + 1) := by
    refine List.mem_iff_getElem?.mpr ⟨j - (i + 1), ?_⟩
    rw [List.getElem?_drop, ← ht']
    congr 1
    omega
  exact nomatch List.all_eq_true.mp h _ hmem

/-- Every key has the value of the last task that has put one there. -/
def InOrder (start : κ → Option ν) (p : Pool α τ σ) : Prop :=
  K.Inv p.shared ∧ ∀ k, K.get p.shared k = (K.last p.tasks k).or (start k)

theorem last_append (l r : List (Task α τ)) (k : κ) :
    K.last (l ++ r) k = (K.last r k).or (K.last l k) := by
  rw [last, List.filterMap_append, List.getLast?_append]
  rfl

/-- A task that has put nothing under a key can change in any way that puts nothing. -/
theorem last_set {tasks : List (Task α τ)} {i : Nat} {old new : Task α τ} {k : κ}
    (h : tasks[i]? = some old) (hold : K.put k old = none) (hnew : K.put k new = none) :
    K.last (tasks.set i new) k = K.last tasks k := by
  obtain ⟨hi, rfl⟩ := List.getElem?_eq_some_iff.mp h
  have hset := List.set_eq_take_append_cons_drop (l := tasks) (i := i) (a := new)
  rw [if_pos hi] at hset
  have hsame : tasks.filterMap (K.put k) =
      (tasks.take i ++ tasks[i] :: tasks.drop (i + 1)).filterMap (K.put k) := by
    rw [← List.drop_eq_getElem_cons hi, List.take_append_drop]
  rw [last, last, hset, hsame, List.filterMap_append, List.filterMap_append,
    List.filterMap_cons, List.filterMap_cons, hold, hnew]

/-- A task that puts a value under a key becomes its last one, if no later task has. -/
theorem last_set_put {tasks : List (Task α τ)} {i : Nat} {new : Task α τ} {k : κ} {v : ν}
    (hi : i < tasks.length) (hnew : K.put k new = some v)
    (hlater : ∀ j (hj : j < tasks.length), i < j → K.put k tasks[j] = none) :
    K.last (tasks.set i new) k = some v := by
  have hset := List.set_eq_take_append_cons_drop (l := tasks) (i := i) (a := new)
  rw [if_pos hi] at hset
  have hnone : (tasks.drop (i + 1)).filterMap (K.put k) = [] := by
    refine List.filterMap_eq_nil_iff.mpr fun task hmem => ?_
    obtain ⟨j, hj, rfl⟩ := List.getElem_of_mem hmem
    rw [List.getElem_drop]
    exact hlater _ _ (by omega)
  rw [hset, last, List.filterMap_append, List.filterMap_cons, hnew, hnone]
  simp

theorem inOrder_step {start : κ → Option ν} {p : Pool α τ σ} {e : Event α ρ ε}
    (h : K.InOrder start p) (hturn : K.InTurn p e) : K.InOrder start (P.step p e).1 := by
  obtain ⟨hinv, hget⟩ := h
  cases e with
  | spawn a =>
    refine ⟨hinv, fun k => ?_⟩
    simp only [Program.step]
    rw [hget, last_append]
    rfl
  | outside e =>
    obtain ⟨hi, hg⟩ := K.others p.shared e hinv
    exact ⟨hi, fun k => (congrFun hg k).trans (hget k)⟩
  | go i reading =>
    simp only [Program.step]
    cases htask : p.tasks[i]? with
    | none => exact ⟨hinv, hget⟩
    | some task =>
      cases task with
      | waiting a =>
        obtain ⟨hi, hg⟩ := K.prepares reading p.shared a hinv
        refine ⟨hi, fun k => ?_⟩
        have hput : K.put k (P.prepare reading p.shared a).2 = none := by
          cases hp : (P.prepare reading p.shared a).2 with
          | waiting a => rfl
          | ready t => rfl
          | finished t =>
            cases t with
            | none => rfl
            | some t => exact absurd hp (K.unready reading p.shared a t)
        simp only
        rw [hg, K.last_set htask rfl hput]
        exact hget k
      | finished t => exact ⟨hinv, hget⟩
      | ready t =>
        obtain ⟨htakes, hlater⟩ := hturn t htask
        refine ⟨K.runs reading p.shared t hinv, fun k => ?_⟩
        obtain ⟨hi, -⟩ := List.getElem?_eq_some_iff.mp htask
        simp only
        rw [K.takes reading p.shared t k hinv htakes]
        cases hput : K.puts t k with
        | none =>
          have hnone : K.put k (.finished (some t) : Task α τ) = none := hput
          rw [Option.none_or, K.last_set htask rfl hnone]
          exact hget k
        | some v =>
          have hsome : K.put k (.finished (some t) : Task α τ) = some v := hput
          rw [K.last_set_put hi hsome]
          · rfl
          · intro j hj hij
            cases hother : p.tasks[j] with
            | waiting a => rfl
            | ready t' => rfl
            | finished t' =>
              cases t' with
              | none => rfl
              | some t' =>
                have hj' : p.tasks[j]? = some (.finished (some t')) := by
                  rw [List.getElem?_eq_getElem hj, hother]
                exact hlater j t' hij hj' k (by simp [hput])

/-- The rule for runs in which every task has its effect in turn. -/
theorem inOrder_run {s : σ} (hs : K.Inv s) {es : List (Event α ρ ε)}
    (h : Machine.Meets P.step K.InTurn ⟨s, []⟩ es) :
    K.InOrder (K.get s) (Machine.run P.step ⟨s, []⟩ es) :=
  Machine.run_inv (fun _ _ hp he => K.inOrder_step hp he) ⟨hs, fun _ => rfl⟩ h

end Keyed

end Spawn

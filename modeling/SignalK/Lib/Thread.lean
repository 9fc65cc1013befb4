import Mathlib.Data.List.Nodup
import Mathlib.Logic.Function.Basic
import SignalK.Lib.Machine

/-! Threads that take atomic steps on shared data, and pools of them. The steps of a
pool interleave in any order with events from outside; a crash loses every thread
that is under way. -/

inductive Thread (σ ω ρ : Type*) where
  | done (result : ρ)
  | step (act : σ → σ × List ω) (next : σ → Thread σ ω ρ)

namespace Thread
variable {σ ω ρ ρ' : Type*}

/-- All steps with nothing in between: the data, the output and the result. -/
def alone : Thread σ ω ρ → σ → (σ × List ω) × ρ
  | .done result, s => ((s, []), result)
  | .step act next, s =>
    let rest := (next s).alone (act s).1
    ((rest.1.1, (act s).2 ++ rest.1.2), rest.2)

def andThen : Thread σ ω ρ → (ρ → Thread σ ω ρ') → Thread σ ω ρ'
  | .done result, k => k result
  | .step act next, k => .step act fun s => (next s).andThen k

/-- A result that is replaced changes nothing else. -/
theorem alone_andThen_done (t : Thread σ ω ρ) (result : ρ → ρ') (s : σ) :
    ((t.andThen fun r => .done (result r)).alone s) = ((t.alone s).1, result (t.alone s).2) := by
  induction t generalizing s with
  | done r => rfl
  | step act next ih => simp only [andThen, alone, ih]

/-- Whichever of two steps comes first, both do the same and go on the same way. -/
def Commutes : Thread σ ω ρ → Thread σ ω ρ → Prop
  | .step act next, .step act' next' =>
    ∀ s, (act (act' s).1).1 = (act' (act s).1).1 ∧ next (act' s).1 = next s ∧
      next' (act s).1 = next' s
  | _, _ => True

/-- Every step keeps a relation as long as the states it finds can be relied on. -/
def Under (rely : σ → Prop) (keeps : σ → σ × List ω → Prop) : Thread σ ω ρ → Prop
  | .done _ => True
  | .step act next => ∀ s, rely s → keeps s (act s) ∧ (next s).Under rely keeps

theorem under_andThen {rely : σ → Prop} {keeps : σ → σ × List ω → Prop} {t : Thread σ ω ρ}
    {k : ρ → Thread σ ω ρ'} (ht : t.Under rely keeps) (hk : ∀ r, (k r).Under rely keeps) :
    (t.andThen k).Under rely keeps := by
  induction t with
  | done result => exact hk result
  | step act next ih => exact fun s hs => ⟨(ht s hs).1, ih s (ht s hs).2⟩

/-- A thread in a pool. -/
inductive Stage (σ ω ρ : Type*) where
  | waiting (thread : Thread σ ω ρ)
  | running (thread : Thread σ ω ρ)
  | returned (result : ρ)
  | lost

def Stage.of : Thread σ ω ρ → Stage σ ω ρ
  | .done result => .returned result
  | .step act next => .running (.step act next)

def Stage.crashed : Stage σ ω ρ → Stage σ ω ρ
  | .running _ => .lost
  | stage => stage

def Stage.result : Stage σ ω ρ → Option ρ
  | .returned result => some result
  | _ => none

theorem Stage.of_ne_waiting (t u : Thread σ ω ρ) : Stage.of t ≠ .waiting u := by
  cases t <;> simp [of]

theorem Stage.of_eq_running {t u : Thread σ ω ρ} (h : Stage.of t = .running u) : u = t := by
  cases t with
  | done r => cases h
  | step act next => exact (Stage.running.inj h).symm

theorem Stage.result_eq_some {stage : Stage σ ω ρ} {r : ρ} :
    stage.result = some r ↔ stage = .returned r := by
  cases stage <;> simp [result]

end Thread

open Thread

structure Pool (ι σ ω ρ : Type*) where
  shared : σ
  stage : ι → Stage σ ω ρ

/-- A step of one thread, an event from outside, or one that loses all threads that
are under way. -/
inductive Turn (ι ε κ : Type*) where
  | thread (i : ι)
  | outside (event : ε)
  | crash (event : κ)

namespace Pool
variable {ι σ ω ρ ε κ : Type*}

def start (s : σ) (threads : ι → Thread σ ω ρ) : Pool ι σ ω ρ where
  shared := s
  stage i := .waiting (threads i)

/-- What is left of a thread, unless it has returned or is lost. -/
def rest (p : Pool ι σ ω ρ) (i : ι) : Option (Thread σ ω ρ) :=
  match p.stage i with
  | .waiting t => some t
  | .running t => some t
  | _ => none

theorem stage_of_rest {p : Pool ι σ ω ρ} {i : ι} {t : Thread σ ω ρ} (h : p.rest i = some t) :
    p.stage i = .waiting t ∨ p.stage i = .running t := by
  unfold rest at h
  cases hs : p.stage i with
  | waiting u =>
    rw [hs] at h
    exact .inl (congrArg _ (Option.some.inj h))
  | running u =>
    rw [hs] at h
    exact .inr (congrArg _ (Option.some.inj h))
  | returned r =>
    rw [hs] at h
    cases h
  | lost =>
    rw [hs] at h
    cases h

theorem rest_of_returned {p : Pool ι σ ω ρ} {i : ι} {r : ρ} (h : p.stage i = .returned r) :
    p.rest i = none := by
  rw [rest, h]

theorem mem_head {p : Pool ι σ ω ρ} {i : ι} {x : ι × Thread σ ω ρ} :
    x ∈ (p.rest i).toList.map (i, ·) ↔ x.1 = i ∧ p.rest i = some x.2 := by
  cases hr : p.rest i with
  | none => simp
  | some t =>
    obtain ⟨j, u⟩ := x
    simp [eq_comm]

theorem filter_head (p : Pool ι σ ω ρ) (k : ι) (q : ι → Bool) :
    ((p.rest k).toList.map (k, ·)).filter (fun x => q x.1) =
      if q k then (p.rest k).toList.map (k, ·) else [] := by
  cases p.rest k with
  | none => simp
  | some t => by_cases hq : q k <;> simp [hq]

variable [DecidableEq ι]

/-- The first step of what is left of a thread. -/
def advance (p : Pool ι σ ω ρ) (i : ι) : Thread σ ω ρ → Pool ι σ ω ρ × List (Option ι × ω)
  | .done result => ({ p with stage := Function.update p.stage i (.returned result) }, [])
  | .step act next =>
    ({ shared := (act p.shared).1
       stage := Function.update p.stage i (Stage.of (next p.shared)) },
      (act p.shared).2.map (some i, ·))

/-- All of what is left of a thread. -/
def finish (p : Pool ι σ ω ρ) (i : ι) (t : Thread σ ω ρ) : Pool ι σ ω ρ where
  shared := (t.alone p.shared).1.1
  stage := Function.update p.stage i (.returned (t.alone p.shared).2)

def go (p : Pool ι σ ω ρ) (i : ι) : Pool ι σ ω ρ × List (Option ι × ω) :=
  match p.rest i with
  | some t => p.advance i t
  | none => (p, [])

def step (world : σ → ε → σ × List ω) (reboot : σ → κ → σ × List ω) (p : Pool ι σ ω ρ) :
    Turn ι ε κ → Pool ι σ ω ρ × List (Option ι × ω)
  | .thread i => p.go i
  | .outside e =>
    ({ p with shared := (world p.shared e).1 }, (world p.shared e).2.map (none, ·))
  | .crash e =>
    ({ shared := (reboot p.shared e).1
       stage i := (p.stage i).crashed }, (reboot p.shared e).2.map (none, ·))

theorem go_of_rest {p : Pool ι σ ω ρ} {i : ι} {t : Thread σ ω ρ} (h : p.rest i = some t) :
    p.go i = p.advance i t := by
  rw [go, h]

theorem go_of_none {p : Pool ι σ ω ρ} {i : ι} (h : p.rest i = none) : p.go i = (p, []) := by
  rw [go, h]

@[simp] theorem advance_done_shared (p : Pool ι σ ω ρ) (i : ι) (r : ρ) :
    (p.advance i (.done r)).1.shared = p.shared := rfl

@[simp] theorem advance_step_shared (p : Pool ι σ ω ρ) (i : ι) (act : σ → σ × List ω)
    (next : σ → Thread σ ω ρ) :
    (p.advance i (.step act next)).1.shared = (act p.shared).1 := rfl

@[simp] theorem advance_done_stage (p : Pool ι σ ω ρ) (i : ι) (r : ρ) :
    (p.advance i (.done r)).1.stage i = .returned r := by
  simp [advance]

@[simp] theorem advance_step_stage (p : Pool ι σ ω ρ) (i : ι) (act : σ → σ × List ω)
    (next : σ → Thread σ ω ρ) :
    (p.advance i (.step act next)).1.stage i = Stage.of (next p.shared) := by
  simp [advance]

theorem advance_stage_ne (p : Pool ι σ ω ρ) {i j : ι} (t : Thread σ ω ρ) (h : j ≠ i) :
    (p.advance i t).1.stage j = p.stage j := by
  cases t <;> simp [advance, Function.update_of_ne h]

/-- A step of one thread leaves the others where they are. -/
theorem go_stage_ne (p : Pool ι σ ω ρ) {i j : ι} (h : j ≠ i) :
    (p.go i).1.stage j = p.stage j := by
  cases hr : p.rest i with
  | none => rw [go_of_none hr]
  | some t => rw [go_of_rest hr, advance_stage_ne p t h]

theorem go_rest_ne (p : Pool ι σ ω ρ) {i j : ι} (h : j ≠ i) : (p.go i).1.rest j = p.rest j := by
  rw [rest, go_stage_ne p h, rest]

/-- A thread without steps is never under way. -/
theorem step_idle {world : σ → ε → σ × List ω} {reboot : σ → κ → σ × List ω}
    {p : Pool ι σ ω ρ} {i : ι} {r : ρ} (turn : Turn ι ε κ)
    (h : p.stage i = .waiting (.done r) ∨ p.stage i = .returned r) :
    (p.step world reboot turn).1.stage i = .waiting (.done r) ∨
      (p.step world reboot turn).1.stage i = .returned r := by
  cases turn with
  | thread k =>
    by_cases hk : i = k
    · subst hk
      refine .inr ?_
      obtain hs | hs := h
      · have hr : p.rest i = some (.done r) := by rw [rest, hs]
        rw [step, go_of_rest hr, advance_done_stage]
      · rw [step, go_of_none (rest_of_returned hs), hs]
    · rw [step, go_stage_ne p hk]
      exact h
  | outside e => exact h
  | crash e =>
    obtain hs | hs := h
    · exact .inl (by simp [step, hs, Stage.crashed])
    · exact .inr (by simp [step, hs, Stage.crashed])

theorem go_idle_shared {p : Pool ι σ ω ρ} {i : ι} {r : ρ}
    (h : p.stage i = .waiting (.done r) ∨ p.stage i = .returned r) :
    (p.go i).1.shared = p.shared := by
  obtain hs | hs := h
  · have hr : p.rest i = some (.done r) := by rw [rest, hs]
    rw [go_of_rest hr, advance_done_shared]
  · rw [go_of_none (rest_of_returned hs)]

theorem run_stage_ne (p : Pool ι σ ω ρ) {j : ι} {is : List ι} (h : j ∉ is) :
    (Machine.run go p is).stage j = p.stage j := by
  induction is generalizing p with
  | nil => rfl
  | cons i is ih =>
    obtain ⟨hi, his⟩ := not_or.mp (mt List.mem_cons.mpr h)
    exact (ih _ his).trans (go_stage_ne p hi)

/-- Steps of different threads that commute can be taken in either order. -/
theorem go_swap {p : Pool ι σ ω ρ} {i j : ι} (hij : i ≠ j)
    (h : ∀ t u, p.rest i = some t → p.rest j = some u → t.Commutes u) :
    ((p.go i).1.go j).1 = ((p.go j).1.go i).1 := by
  cases hi : p.rest i with
  | none =>
    have hi' : (p.go j).1.rest i = none := (go_rest_ne p hij).trans hi
    rw [go_of_none hi, go_of_none hi']
  | some t =>
    cases hj : p.rest j with
    | none =>
      have hj' : (p.go i).1.rest j = none := (go_rest_ne p hij.symm).trans hj
      rw [go_of_none hj, go_of_none hj']
    | some u =>
      have hi' : (p.advance j u).1.rest i = some t := by
        rw [← go_of_rest hj, go_rest_ne p hij, hi]
      have hj' : (p.advance i t).1.rest j = some u := by
        rw [← go_of_rest hi, go_rest_ne p hij.symm, hj]
      rw [go_of_rest hi, go_of_rest hj, go_of_rest hi', go_of_rest hj']
      have hcomm := h t u hi hj
      cases t with
      | done r => cases u <;> simp [advance, Function.update_comm hij]
      | step act next =>
        cases u with
        | done r => simp [advance, Function.update_comm hij]
        | step act' next' =>
          obtain ⟨hshared, hnext, hnext'⟩ := hcomm p.shared
          simp [advance, hshared, hnext, hnext', Function.update_comm hij]

/-- The steps that a schedule takes, with the threads that take them. -/
def taken : Pool ι σ ω ρ → List ι → List (ι × Thread σ ω ρ)
  | _, [] => []
  | p, i :: is => (p.rest i).toList.map (i, ·) ++ taken (p.go i).1 is

/-- A step that commutes with all steps of a block of another thread can be taken
after the block. -/
theorem run_block_swap {p : Pool ι σ ω ρ} {i k : ι} (hik : i ≠ k) (is : List ι)
    (his : ∀ j ∈ is, j = i)
    (h : ∀ t, p.rest k = some t → ∀ x ∈ taken (p.go k).1 is, t.Commutes x.2) :
    Machine.run go (p.go k).1 is = ((Machine.run go p is).go k).1 ∧
      taken (p.go k).1 is = taken p is := by
  induction is generalizing p with
  | nil => exact ⟨rfl, rfl⟩
  | cons j is ih =>
    obtain rfl := his j List.mem_cons_self
    have hrest : (p.go k).1.rest j = p.rest j := go_rest_ne p hik
    have hswap : ((p.go k).1.go j).1 = ((p.go j).1.go k).1 :=
      go_swap hik.symm fun t u ht hu => h t ht (j, u)
        (List.mem_append_left _ (mem_head.mpr ⟨rfl, hrest.trans hu⟩))
    have hrec := ih (p := (p.go j).1) (fun j' hj' => his j' (List.mem_cons_of_mem _ hj'))
      fun t ht x hx => by
        rw [← hswap] at hx
        exact h t ((go_rest_ne p hik.symm).symm.trans ht) x (List.mem_append_right _ hx)
    rw [← hswap] at hrec
    refine ⟨hrec.1, ?_⟩
    rw [taken, taken, hrec.2, hrest]

/-- Steps of one thread that commute with every earlier step of the others can all
be taken first. -/
theorem run_move_front {p : Pool ι σ ω ρ} {i : ι} (is : List ι)
    (h : (taken p is).Pairwise fun x y => x.1 ≠ i → y.1 = i → x.2.Commutes y.2) :
    let block := is.filter fun j => decide (j = i)
    let others := is.filter fun j => decide (j ≠ i)
    Machine.run go p is = Machine.run go (Machine.run go p block) others ∧
      taken p block = (taken p is).filter (fun x => decide (x.1 = i)) ∧
      taken (Machine.run go p block) others =
        (taken p is).filter fun x => decide (x.1 ≠ i) := by
  induction is generalizing p with
  | nil => exact ⟨rfl, rfl, rfl⟩
  | cons k is ih =>
    rw [taken, List.pairwise_append] at h
    obtain ⟨-, htail, hhead⟩ := h
    obtain ⟨hrun, hblock, hothers⟩ := ih htail
    have hfirst := filter_head p k fun j => decide (j = i)
    have hsecond := filter_head p k fun j => decide (j ≠ i)
    simp only [taken, List.filter_append, hfirst, hsecond]
    by_cases hk : k = i
    · subst hk
      simp only [List.filter_cons, decide_true, ne_eq, not_true_eq_false, decide_false,
        if_true, Bool.false_eq_true, if_false, List.nil_append]
      exact ⟨hrun, congrArg _ hblock, hothers⟩
    · simp only [List.filter_cons, hk, decide_false, ne_eq, not_false_eq_true, decide_true,
        if_true, Bool.false_eq_true, if_false, List.nil_append]
      obtain ⟨hafter, hsame⟩ := run_block_swap (p := p) (Ne.symm hk)
        (is.filter fun j => decide (j = i)) (fun j hj => by simpa using List.of_mem_filter hj)
        fun t ht x hx => by
          rw [hblock] at hx
          obtain ⟨hmem, hxi⟩ := List.mem_filter.mp hx
          exact hhead (k, t) (mem_head.mpr ⟨rfl, ht⟩) x hmem hk (by simpa using hxi)
      have hrest : (Machine.run go p (is.filter fun j => decide (j = i))).rest k = p.rest k := by
        rw [rest, run_stage_ne p (by simp [hk]), rest]
      rw [hafter] at hrun hothers
      refine ⟨hrun, hsame.symm.trans hblock, ?_⟩
      rw [taken, hrest]
      exact congrArg _ hothers

theorem run_block_returned {p : Pool ι σ ω ρ} {i : ι} {r : ρ} {is : List ι}
    (his : ∀ j ∈ is, j = i) (h : p.stage i = .returned r) : Machine.run go p is = p := by
  induction is with
  | nil => rfl
  | cons j is ih =>
    have hgo : p.go j = (p, []) := by
      rw [his j List.mem_cons_self]
      exact go_of_none (rest_of_returned h)
    have hrun : Machine.run go p (j :: is) = Machine.run go (p.go j).1 is := rfl
    rw [hrun, hgo]
    exact ih fun k hk => his k (List.mem_cons_of_mem _ hk)

theorem finish_step {p : Pool ι σ ω ρ} {i : ι} (act : σ → σ × List ω)
    (next : σ → Thread σ ω ρ) :
    p.finish i (.step act next) = (p.advance i (.step act next)).1.finish i (next p.shared) := by
  simp [finish, advance, Thread.alone]

/-- After its last step a thread has nothing left to finish. -/
theorem finish_returned {p : Pool ι σ ω ρ} {i : ι} {r : ρ} (h : p.stage i = .returned r) :
    p.finish i (.done r) = p := by
  have hu : Function.update p.stage i (.returned r) = p.stage := by
    rw [← h]
    exact Function.update_eq_self i p.stage
  simp [finish, Thread.alone, hu]

/-- A block of steps of one thread that ends with its return is the thread alone. -/
theorem run_block_finish {p : Pool ι σ ω ρ} {i : ι} {t : Thread σ ω ρ} {r : ρ} {is : List ι}
    (his : ∀ j ∈ is, j = i) (ht : p.rest i = some t)
    (hr : (Machine.run go p is).stage i = .returned r) : Machine.run go p is = p.finish i t := by
  induction is generalizing p t with
  | nil =>
    have hstage : p.stage i = .returned r := hr
    rw [rest_of_returned hstage] at ht
    cases ht
  | cons j is ih =>
    obtain rfl := his j List.mem_cons_self
    have htail : ∀ k ∈ is, k = j := fun k hk => his k (List.mem_cons_of_mem _ hk)
    have hrun : Machine.run go p (j :: is) = Machine.run go (p.advance j t).1 is := by
      rw [← go_of_rest ht]
      rfl
    rw [hrun] at hr ⊢
    cases t with
    | done r' => exact run_block_returned htail (r := r') (by simp [advance])
    | step act next =>
      rw [finish_step]
      cases hn : next p.shared with
      | done r' =>
        have hstage : (p.advance j (.step act next)).1.stage j = .returned r' := by
          simp [advance, hn, Stage.of]
        rw [run_block_returned htail hstage, finish_returned hstage]
      | step act' next' => exact ih htail (by simp [rest, advance, hn, Stage.of]) hr

/-- Whole threads, one after another. -/
def sequel (threads : ι → Thread σ ω ρ) (s : σ) (i : ι) : σ × List ω :=
  ((threads i).alone s).1

/-- Threads whose steps commute wherever a later thread of an order was faster than an
earlier one leave what they leave one after another in that order. -/
theorem run_in_order {threads : ι → Thread σ ω ρ} {order : List ι} (hn : order.Nodup)
    {p : Pool ι σ ω ρ} (is : List ι) (hall : ∀ i ∈ is, i ∈ order)
    (hrest : ∀ i ∈ order, p.rest i = some (threads i))
    (hreturned : ∀ i ∈ order, ∃ r, (Machine.run go p is).stage i = .returned r)
    (hpair : (taken p is).Pairwise fun x y =>
      order.idxOf y.1 < order.idxOf x.1 → x.2.Commutes y.2) :
    (Machine.run go p is).shared = Machine.run (sequel threads) p.shared order := by
  induction order generalizing p is with
  | nil =>
    have his : is = [] := List.eq_nil_iff_forall_not_mem.mpr fun i hi => by
      cases hall i hi
    rw [his]
    rfl
  | cons i order ih =>
    obtain ⟨hi, hn'⟩ := List.nodup_cons.mp hn
    have hidx : ∀ j, j ≠ i → (i :: order).idxOf j = order.idxOf j + 1 := fun j hj =>
      List.idxOf_cons_ne order hj.symm
    obtain ⟨hrun, -, htaken⟩ := run_move_front (p := p) (i := i) is
      (hpair.imp fun {x y} h hx hy => h (by rw [hy, hidx x.1 hx, List.idxOf_cons_self]; omega))
    generalize hblock : (is.filter fun j => decide (j = i)) = block at hrun htaken
    generalize hothers : (is.filter fun j => decide (j ≠ i)) = others at hrun htaken
    have hmemb : ∀ j ∈ block, j = i := by
      intro j hj
      rw [← hblock] at hj
      simpa using List.of_mem_filter hj
    have hmemo : ∀ j ∈ others, j ∈ is ∧ j ≠ i := by
      intro j hj
      rw [← hothers] at hj
      obtain ⟨hjis, hji⟩ := List.mem_filter.mp hj
      exact ⟨hjis, by simpa using hji⟩
    obtain ⟨r, hr⟩ := hreturned i List.mem_cons_self
    rw [hrun, run_stage_ne _ fun hmem => (hmemo i hmem).2 rfl] at hr
    have hfinish := run_block_finish hmemb (hrest i List.mem_cons_self) hr
    have hne : ∀ j ∈ order, j ≠ i := fun j hj he => hi (he ▸ hj)
    have hrec := ih hn' (p := Machine.run go p block) others
      (fun j hj => (List.mem_cons.mp (hall j (hmemo j hj).1)).resolve_left (hmemo j hj).2)
      (fun j hj => ?_) (fun j hj => ?_) ?_
    · rw [hrun, hrec, hfinish]
      rfl
    · rw [rest, run_stage_ne p fun hmem => hne j hj (hmemb j hmem)]
      exact hrest j (List.mem_cons_of_mem _ hj)
    · rw [← hrun]
      exact hreturned j (List.mem_cons_of_mem _ hj)
    · rw [htaken, List.pairwise_filter]
      refine hpair.imp fun {x y} h hx hy hlt => h ?_
      rw [hidx x.1 (by simpa using hx), hidx y.1 (by simpa using hy)]
      omega

end Pool

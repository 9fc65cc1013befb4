import Mathlib.Data.Fintype.EquivFin
import Mathlib.Data.Fintype.Lattice
import Mathlib.Logic.Hydra

/-! Tasks that share data behind read-write locks. Requests for a lock are served in the
order in which they arrive, so that a reader may wait behind a writer that waits itself.
Two rules: tasks that take their locks in ascending order never block each other for good,
and what each task keeps while it holds its locks is kept by any interleaving. -/

namespace Locks

inductive Mode where
  | read
  | write
  deriving DecidableEq

inductive Program (κ σ ρ : Type*) where
  | done (result : ρ)
  | acquire (lock : κ) (mode : Mode) (next : Program κ σ ρ)
  | release (lock : κ) (next : Program κ σ ρ)
  | act (change : σ → σ) (next : σ → Program κ σ ρ)

structure Pool (ι κ σ ρ : Type*) where
  shared : σ
  program : ι → Program κ σ ρ
  held : ι → κ → Option Mode
  queue : κ → List ι

inductive Turn (ι κ : Type*) where
  | go (task : ι)
  | grant (lock : κ)

variable {ι κ σ ρ : Type*} [Fintype ι] [DecidableEq ι] [DecidableEq κ]

def start (s : σ) (program : ι → Program κ σ ρ) : Pool ι κ σ ρ where
  shared := s
  program := program
  held _ _ := none
  queue _ := []

/-- A writer needs the lock for itself, a reader only bears other readers. -/
def Pool.admits (p : Pool ι κ σ ρ) (l : κ) : Mode → Bool
  | .read => decide (∀ i, p.held i l ≠ some .write)
  | .write => decide (∀ i, p.held i l = none)

def Pool.resume (p : Pool ι κ σ ρ) (i : ι) (next : Program κ σ ρ) : Pool ι κ σ ρ :=
  { p with program := Function.update p.program i next }

def Pool.hold (p : Pool ι κ σ ρ) (i : ι) (l : κ) (m : Option Mode) : Pool ι κ σ ρ :=
  { p with held := Function.update p.held i (Function.update (p.held i) l m) }

def Pool.line (p : Pool ι κ σ ρ) (l : κ) (tasks : List ι) : Pool ι κ σ ρ :=
  { p with queue := Function.update p.queue l tasks }

/-- The turns that got something done are put out. -/
def step (p : Pool ι κ σ ρ) : Turn ι κ → Pool ι κ σ ρ × List (Turn ι κ)
  | .go i =>
    match p.program i with
    | .done _ => (p, [])
    | .acquire l _ _ => if i ∈ p.queue l then (p, []) else (p.line l (p.queue l ++ [i]), [.go i])
    | .release l next => ((p.hold i l none).resume i next, [.go i])
    | .act change next => (({ p with shared := change p.shared }).resume i (next p.shared), [.go i])
  | .grant l =>
    match p.queue l with
    | [] => (p, [])
    | i :: tasks =>
      match p.program i with
      | .acquire k m next =>
        if k = l ∧ p.admits l m then (((p.line l tasks).hold i l (some m)).resume i next, [.grant l])
        else (p, [])
      | _ => (p, [])

theorem step_cases (p : Pool ι κ σ ρ) (e : Turn ι κ) :
    step p e = (p, []) ∨
    (∃ i l m next, p.program i = .acquire l m next ∧ i ∉ p.queue l ∧
      step p e = (p.line l (p.queue l ++ [i]), [e])) ∨
    (∃ i l next, p.program i = .release l next ∧
      step p e = ((p.hold i l none).resume i next, [e])) ∨
    (∃ i change next, p.program i = .act change next ∧
      step p e = (({ p with shared := change p.shared }).resume i (next p.shared), [e])) ∨
    ∃ i l m next tasks, p.program i = .acquire l m next ∧ p.queue l = i :: tasks ∧
      p.admits l m = true ∧
      step p e = (((p.line l tasks).hold i l (some m)).resume i next, [e]) := by
  cases e with
  | go i =>
    cases hi : p.program i with
    | done r => simp [step, hi]
    | acquire l m next =>
      by_cases hq : i ∈ p.queue l
      · simp [step, hi, hq]
      · exact .inr (.inl ⟨i, l, m, next, hi, hq, by simp [step, hi, hq]⟩)
    | release l next => exact .inr (.inr (.inl ⟨i, l, next, hi, by simp [step, hi]⟩))
    | act change next => exact .inr (.inr (.inr (.inl ⟨i, change, next, hi, by simp [step, hi]⟩)))
  | grant l =>
    cases hl : p.queue l with
    | nil => simp [step, hl]
    | cons i tasks =>
      cases hi : p.program i with
      | acquire k m next =>
        by_cases ha : k = l ∧ p.admits l m = true
        · obtain ⟨rfl, ha⟩ := ha
          exact .inr (.inr (.inr (.inr ⟨i, k, m, next, tasks, hi, hl, ha,
            by simp [step, hl, hi, ha]⟩)))
        · simp only [step, hl, hi, if_neg ha, true_or]
      | _ => simp [step, hl, hi]

namespace Program

/-- Every lock ranks above all those held when it is asked for, and none is kept at the end. -/
def Ascending (rank : κ → Nat) : (κ → Option Mode) → Program κ σ ρ → Prop
  | held, .done _ => ∀ l, held l = none
  | held, .acquire l m next => (∀ k, held k ≠ none → rank k < rank l) ∧
      next.Ascending rank (Function.update held l (some m))
  | held, .release l next => next.Ascending rank (Function.update held l none)
  | held, .act _ next => ∀ s, (next s).Ascending rank held

def result : Program κ σ ρ → Option ρ
  | .done r => some r
  | _ => none

end Program

/-- Who stands in the queue of a lock asks for it, once, and locks are asked for in order. -/
structure Orderly (rank : κ → Nat) (p : Pool ι κ σ ρ) : Prop where
  asks : ∀ i l, i ∈ p.queue l → ∃ m next, p.program i = .acquire l m next
  once : ∀ l, (p.queue l).Nodup
  ascending : ∀ i, (p.program i).Ascending rank (p.held i)

section Progress
variable {rank : κ → Nat} {p : Pool ι κ σ ρ}

omit [Fintype ι] [DecidableEq ι] in
theorem orderly_start {s : σ} {program : ι → Program κ σ ρ}
    (h : ∀ i, (program i).Ascending rank fun _ => none) : Orderly rank (start s program) :=
  ⟨fun _ _ hq => absurd hq List.not_mem_nil, fun _ => List.nodup_nil, h⟩

omit [Fintype ι] [DecidableEq ι] in
/-- A task that asks for no lock, or for another one, stands in no queue of the lock. -/
theorem Orderly.notMem (h : Orderly rank p) {i : ι} {l : κ}
    (hi : ∀ m next, p.program i ≠ .acquire l m next) : i ∉ p.queue l := by
  intro hq
  obtain ⟨m, next, ha⟩ := h.asks i l hq
  exact hi m next ha

omit [Fintype ι] in
/-- What a task does next leaves the queues in order if the task stands in none of them. -/
theorem Orderly.resume (h : Orderly rank p) {q : Pool ι κ σ ρ} {i : ι} {next : Program κ σ ρ}
    (hprogram : q.program = p.program) (hqueue : ∀ l j, j ∈ q.queue l → j ∈ p.queue l ∧ j ≠ i)
    (honce : ∀ l, (q.queue l).Nodup) (hheld : ∀ j, j ≠ i → q.held j = p.held j)
    (hnext : next.Ascending rank (q.held i)) : Orderly rank (q.resume i next) := by
  refine ⟨fun j l hj => ?_, honce, fun j => ?_⟩
  · obtain ⟨hq, hji⟩ := hqueue l j hj
    obtain ⟨m, rest, ha⟩ := h.asks j l hq
    exact ⟨m, rest, by simp [Pool.resume, hji, hprogram, ha]⟩
  · by_cases hji : j = i
    · subst hji
      simpa [Pool.resume] using hnext
    · simpa [Pool.resume, hji, hprogram, hheld j hji] using h.ascending j

theorem orderly_step (h : Orderly rank p) (e : Turn ι κ) : Orderly rank (step p e).1 := by
  obtain hs | ⟨i, l, m, next, hi, hq, hs⟩ | ⟨i, l, next, hi, hs⟩ | ⟨i, change, next, hi, hs⟩ |
    ⟨i, l, m, next, tasks, hi, hl, ha, hs⟩ := step_cases p e <;> rw [hs]
  · exact h
  · refine ⟨fun j k hj => ?_, fun k => ?_, h.ascending⟩
    · by_cases hk : k = l
      · subst hk
        obtain hj | hj := by simpa [Pool.line] using hj
        · exact h.asks j k hj
        · exact ⟨m, next, hj ▸ hi⟩
      · exact h.asks j k (by simpa [Pool.line, hk] using hj)
    · by_cases hk : k = l
      · subst hk
        have hnew : ∀ a ∈ p.queue k, a ≠ i := fun a ha hai => hq (hai ▸ ha)
        simpa [Pool.line, List.nodup_append, h.once k] using hnew
      · simpa [Pool.line, hk] using h.once k
  · refine h.resume rfl (fun k j hj => ⟨hj, ?_⟩) h.once (fun j hj => by simp [Pool.hold, hj]) ?_
    · intro hji
      exact h.notMem (by simp [hji, hi]) hj
    · have := h.ascending i
      rw [hi] at this
      simpa [Pool.hold, Program.Ascending] using this
  · refine h.resume rfl (fun k j hj => ⟨hj, ?_⟩) h.once (fun j _ => rfl) ?_
    · intro hji
      exact h.notMem (by simp [hji, hi]) hj
    · have := h.ascending i
      rw [hi] at this
      exact this p.shared
  · have honce := h.once l
    rw [hl, List.nodup_cons] at honce
    refine h.resume rfl (fun k j hj => ?_) (fun k => ?_)
      (fun j hj => by simp [Pool.hold, Pool.line, hj]) ?_
    · by_cases hkl : k = l
      · subst hkl
        have hj : j ∈ tasks := by simpa [Pool.line, Pool.hold] using hj
        exact ⟨hl ▸ List.mem_cons_of_mem i hj, fun hji => honce.1 (hji ▸ hj)⟩
      · have hj : j ∈ p.queue k := by simpa [Pool.line, Pool.hold, hkl] using hj
        refine ⟨hj, fun hji => h.notMem (i := j) ?_ hj⟩
        simp [hji, hi, Ne.symm hkl]
    · by_cases hkl : k = l
      · subst hkl
        simpa [Pool.line, Pool.hold] using honce.2
      · simpa [Pool.line, Pool.hold, hkl] using h.once k
    · have := h.ascending i
      rw [hi] at this
      simpa [Pool.hold, Pool.line, Program.Ascending] using this.2

/-- Some task goes on: a lock of highest rank that anyone waits for is free, since who
holds it would wait for one that ranks higher. -/
theorem exists_turn (h : Orderly rank p) (hp : ∃ i, (p.program i).result = none) :
    ∃ e, (step p e).2 ≠ [] := by
  by_contra hstuck
  simp only [not_exists, not_not] at hstuck
  have hwaits : ∀ i, (p.program i).result = none →
      ∃ l m next, p.program i = .acquire l m next ∧ i ∈ p.queue l := by
    intro i hi
    have hgo := hstuck (.go i)
    cases hprog : p.program i with
    | done r => simp [hprog, Program.result] at hi
    | acquire l m next =>
      refine ⟨l, m, next, rfl, ?_⟩
      by_contra hq
      simp [step, hprog, hq] at hgo
    | release l next => simp [step, hprog] at hgo
    | act change next => simp [step, hprog] at hgo
  have hrank : ∀ i : {i // (p.program i).result = none}, ∃ l, i.1 ∈ p.queue l := by
    intro i
    obtain ⟨l, m, next, -, hq⟩ := hwaits i.1 i.2
    exact ⟨l, hq⟩
  choose lock hlock using hrank
  obtain ⟨i₀, hi₀⟩ := hp
  have : Nonempty {i // (p.program i).result = none} := ⟨⟨i₀, hi₀⟩⟩
  have : Finite {i // (p.program i).result = none} := Subtype.finite
  obtain ⟨i, himax⟩ := Finite.exists_max fun i => rank (lock i)
  cases hl : p.queue (lock i) with
  | nil => exact absurd (hlock i) (by simp [hl])
  | cons j tasks =>
    obtain ⟨m, next, hj⟩ := h.asks j (lock i) (by simp [hl])
    have hfree : ∀ k, p.held k (lock i) = none := by
      intro k
      by_contra hk
      have hrun : (p.program k).result = none := by
        cases hprog : p.program k with
        | done r =>
          have := h.ascending k
          rw [hprog] at this
          exact absurd (this (lock i)) hk
        | _ => rfl
      obtain ⟨m', next', hask⟩ := h.asks k _ (hlock ⟨k, hrun⟩)
      have hk' := h.ascending k
      rw [hask] at hk'
      have hlt := hk'.1 (lock i) hk
      have hle := himax ⟨k, hrun⟩
      omega
    have hadmits : p.admits (lock i) m = true := by
      cases m with
      | read => simp [Pool.admits, hfree]
      | write => simp [Pool.admits, hfree]
    have := hstuck (.grant (lock i))
    simp [step, hl, hj, hadmits] at this

/-- What a step of a task leaves to do. -/
inductive Program.Next : Program κ σ ρ → Program κ σ ρ → Prop
  | acquire (l : κ) (m : Mode) (next : Program κ σ ρ) : Next next (.acquire l m next)
  | release (l : κ) (next : Program κ σ ρ) : Next next (.release l next)
  | act (change : σ → σ) (next : σ → Program κ σ ρ) (s : σ) : Next (next s) (.act change next)

omit [DecidableEq κ] in
theorem Program.next_wf : WellFounded (Program.Next (κ := κ) (σ := σ) (ρ := ρ)) := by
  refine ⟨fun t => ?_⟩
  induction t with
  | done r => exact ⟨_, fun _ h => by cases h⟩
  | acquire l m next ih => exact ⟨_, fun _ h => by cases h; exact ih⟩
  | release l next ih => exact ⟨_, fun _ h => by cases h; exact ih⟩
  | act change next ih => exact ⟨_, fun _ h => by cases h; exact ih _⟩

open Classical in
/-- What a task has left to do; a request that is in the queue is half done. -/
noncomputable def Pool.left (p : Pool ι κ σ ρ) (i : ι) : Program κ σ ρ × Nat :=
  (p.program i, if ∃ l, i ∈ p.queue l then 0 else 1)

abbrev Less : Program κ σ ρ × Nat → Program κ σ ρ × Nat → Prop :=
  Prod.Lex Program.Next (· < ·)

noncomputable def Pool.size (p : Pool ι κ σ ρ) : Multiset (Program κ σ ρ × Nat) :=
  Finset.univ.val.map p.left

omit [DecidableEq κ] in
theorem size_of_less {q : Pool ι κ σ ρ} {i : ι} (hi : Less (q.left i) (p.left i))
    (hothers : ∀ j, j ≠ i → q.left j = p.left j) : Relation.CutExpand Less q.size p.size := by
  have hsplit : ∀ q : Pool ι κ σ ρ,
      q.size = {q.left i} + (Finset.univ.erase i).val.map q.left := by
    intro q
    rw [Multiset.singleton_add, ← Multiset.map_cons, Finset.erase_val,
      Multiset.cons_erase (Finset.mem_univ_val i)]
    rfl
  rw [hsplit q, hsplit p, Multiset.map_congr rfl fun j hj => hothers j (Finset.ne_of_mem_erase hj)]
  exact Relation.cutExpand_single_add hi _

omit [Fintype ι] [DecidableEq ι] [DecidableEq κ] in
theorem left_congr {q : Pool ι κ σ ρ} {i : ι} (hprogram : q.program i = p.program i)
    (hqueue : ∀ l, i ∈ q.queue l ↔ i ∈ p.queue l) : q.left i = p.left i := by
  classical
  rw [Pool.left, Pool.left, hprogram]
  exact congrArg _ (if_congr (exists_congr hqueue) rfl rfl)

/-- A turn that gets something done leaves less to do. -/
theorem size_step (h : Orderly rank p) {e : Turn ι κ} (he : (step p e).2 ≠ []) :
    Relation.CutExpand Less (step p e).1.size p.size := by
  obtain hs | ⟨i, l, m, next, hi, hq, hs⟩ | ⟨i, l, next, hi, hs⟩ | ⟨i, change, next, hi, hs⟩ |
    ⟨i, l, m, next, tasks, hi, hl, ha, hs⟩ := step_cases p e <;> rw [hs] at he ⊢
  · exact absurd rfl he
  · refine size_of_less (i := i) ?_ fun j hj => left_congr rfl fun k => ?_
    · have hout : ¬∃ k, i ∈ p.queue k := by
        rintro ⟨k, hk⟩
        obtain ⟨m', next', hask⟩ := h.asks i k hk
        obtain ⟨rfl, -, -⟩ := Program.acquire.inj (hi.symm.trans hask)
        exact hq hk
      have hin : ∃ k, i ∈ (p.line l (p.queue l ++ [i])).queue k := ⟨l, by simp [Pool.line]⟩
      simp only [Pool.left, if_neg hout, if_pos hin]
      exact Prod.Lex.right _ Nat.zero_lt_one
    · by_cases hk : k = l
      · subst hk
        simp [Pool.line, hj]
      · simp [Pool.line, hk]
  · refine size_of_less (i := i) (Prod.Lex.left _ _ ?_) fun j hj => left_congr ?_ fun k => Iff.rfl
    · simpa [Pool.resume, hi] using Program.Next.release l next
    · simp [Pool.resume, Pool.hold, hj]
  · refine size_of_less (i := i) (Prod.Lex.left _ _ ?_) fun j hj => left_congr ?_ fun k => Iff.rfl
    · simpa [Pool.resume, hi] using Program.Next.act change next p.shared
    · simp [Pool.resume, hj]
  · refine size_of_less (i := i) (Prod.Lex.left _ _ ?_) fun j hj => left_congr ?_ fun k => ?_
    · simpa [Pool.resume, hi] using Program.Next.acquire l m next
    · simp [Pool.resume, Pool.hold, Pool.line, hj]
    · by_cases hk : k = l
      · subst hk
        simp [Pool.resume, Pool.hold, Pool.line, hl, hj]
      · simp [Pool.resume, Pool.hold, Pool.line, hk]

end Progress

/-- The pool after the first turns of a schedule. -/
def after (p : Pool ι κ σ ρ) (turns : Nat → Turn ι κ) : Nat → Pool ι κ σ ρ
  | 0 => p
  | n + 1 => (step (after p turns n) (turns n)).1

theorem after_succ (p : Pool ι κ σ ρ) (turns : Nat → Turn ι κ) (n : Nat) :
    after p turns (n + 1) = after (step p (turns 0)).1 (fun k => turns (k + 1)) n := by
  induction n with
  | zero => rfl
  | succ n ih => rw [after, ih]; rfl

/-- A schedule that gets something done as long as anything can be done. -/
def Diligent (p : Pool ι κ σ ρ) (turns : Nat → Turn ι κ) : Prop :=
  ∀ n, (∃ e, (step (after p turns n) e).2 ≠ []) → (step (after p turns n) (turns n)).2 ≠ []

/-- Tasks that take their locks in ascending order all return, in any order of their turns. -/
theorem diligent_returns {rank : κ → Nat} {p : Pool ι κ σ ρ} (hp : Orderly rank p)
    {turns : Nat → Turn ι κ} (hd : Diligent p turns) :
    ∃ n, ∀ i, ((after p turns n).program i).result.isSome := by
  have hwf : WellFounded (Relation.CutExpand (Less (κ := κ) (σ := σ) (ρ := ρ))) :=
    (Program.next_wf.prod_lex Nat.lt_wfRel.wf).cutExpand
  induction hsize : p.size using hwf.induction generalizing p turns with
  | _ size ih =>
    subst hsize
    by_cases hleft : ∃ i, (p.program i).result = none
    · have hmoves := hd 0 (exists_turn hp hleft)
      have hrest : Diligent (step p (turns 0)).1 fun k => turns (k + 1) := fun k => by
        simpa only [after_succ] using hd (k + 1)
      obtain ⟨n, hn⟩ := ih _ (size_step hp hmoves) (orderly_step hp (turns 0)) hrest rfl
      exact ⟨n + 1, fun i => after_succ p turns n ▸ hn i⟩
    · refine ⟨0, fun i => ?_⟩
      rw [Option.isSome_iff_ne_none]
      exact fun hi => hleft ⟨i, hi⟩

section Rules

/-! A lock guards a part of the data. `same l s s'` says that the part behind `l` has not
changed, `grows` what every act does to the data as a whole, and `Inv s w` what holds of
the data while the locks in `w` are held for writing. -/

variable (same : κ → σ → σ → Prop) (grows : σ → σ → Prop) (Inv : σ → Set κ → Prop)

/-- What a task knows is not taken from it by the others while it holds its locks. -/
def Stable (held : κ → Option Mode) (know : σ → Prop) : Prop :=
  ∀ s s', grows s s' → (∀ l, held l ≠ none → same l s s') → know s → know s'

/-- The locks held for writing by all tasks together, as one of them can see it. -/
def Sees (held : κ → Option Mode) (w : Set κ) : Prop :=
  ∀ l, (held l = some .write → l ∈ w) ∧ (held l = some .read → l ∉ w)

/-- The rule of each step: who takes a lock learns what holds while nobody writes behind it,
to act is to change no part of the data but those held for writing, and a lock is given back
when the invariant holds without it. -/
def Outline (post : ρ → Prop) : (κ → Option Mode) → (σ → Prop) → Program κ σ ρ → Prop
  | _, _, .done r => post r
  | held, know, .acquire l m next => held l = none ∧ ∃ learnt : σ → Prop,
      (∀ s w, l ∉ w → Sees held w → Inv s w → know s →
        learnt s ∧ (m = .write → Inv s (insert l w))) ∧
      Stable same grows (Function.update held l (some m)) learnt ∧
      Outline post (Function.update held l (some m)) (fun s => know s ∧ learnt s) next
  | held, know, .release l next =>
      (held l = some .write → ∀ s w, Sees held w → know s → Inv s w → Inv s (w \ {l})) ∧
      ∃ know' : σ → Prop, (∀ s, know s → know' s) ∧
        Stable same grows (Function.update held l none) know' ∧
        Outline post (Function.update held l none) know' next
  | held, know, .act change next =>
      ∀ s w, Sees held w → Inv s w → know s →
        Inv (change s) w ∧ grows s (change s) ∧
        (∀ l, held l ≠ some .write → same l s (change s)) ∧
        ∃ know' : σ → Prop, know' (change s) ∧ Stable same grows held know' ∧
          Outline post held know' (next s)

def Pool.writing (p : Pool ι κ σ ρ) : Set κ := {l | ∃ i, p.held i l = some .write}

/-- The invariant, and for each task what it knows. -/
structure Kept (post : ι → ρ → Prop) (p : Pool ι κ σ ρ) : Prop where
  inv : Inv p.shared p.writing
  alone : ∀ i j l, p.held i l = some .write → j ≠ i → p.held j l = none
  knows : ∀ i, ∃ know : σ → Prop, know p.shared ∧ Stable same grows (p.held i) know ∧
    Outline same grows Inv (post i) (p.held i) know (p.program i)

variable {same grows Inv} {post : ι → ρ → Prop} {p : Pool ι κ σ ρ}

theorem Stable.acquire {held : κ → Option Mode} {know : σ → Prop} {l : κ} {m : Mode}
    (h : Stable same grows held know) (hl : held l = none) :
    Stable same grows (Function.update held l (some m)) know := by
  refine fun s s' hg hs => h s s' hg fun k hk => hs k ?_
  by_cases hkl : k = l
  · exact absurd (hkl ▸ hl) hk
  · rwa [Function.update_of_ne hkl]

omit [DecidableEq κ] in
theorem Stable.and {held : κ → Option Mode} {know learnt : σ → Prop}
    (h : Stable same grows held know) (h' : Stable same grows held learnt) :
    Stable same grows held fun s => know s ∧ learnt s :=
  fun s s' hg hs hk => ⟨h s s' hg hs hk.1, h' s s' hg hs hk.2⟩

omit [Fintype ι] in
theorem Kept.sees (h : Kept same grows Inv post p) (i : ι) : Sees (p.held i) p.writing := by
  refine fun l => ⟨fun hl => ⟨i, hl⟩, fun hl => ?_⟩
  rintro ⟨j, hj⟩
  by_cases hij : i = j
  · subst hij
    simp [hl] at hj
  · simp [h.alone j i l hj hij] at hl

omit [Fintype ι] [DecidableEq ι] in
theorem kept_start {s : σ} {program : ι → Program κ σ ρ} (hs : Inv s ∅)
    (h : ∀ i, Outline same grows Inv (post i) (fun _ => none) (fun _ => True) (program i)) :
    Kept same grows Inv post (start s program) where
  inv := by
    have : (start s program).writing = ∅ := Set.eq_empty_of_forall_notMem fun l hl => by
      obtain ⟨i, hi⟩ := hl
      simp [start] at hi
    rw [this]
    exact hs
  alone i j l hi := by simp [start] at hi
  knows i := ⟨fun _ => True, trivial, fun _ _ _ _ _ => trivial, h i⟩

omit [Fintype ι] in
theorem held_hold (p : Pool ι κ σ ρ) (i j : ι) (l k : κ) (m : Option Mode) :
    (p.hold i l m).held j k = if j = i ∧ k = l then m else p.held j k := by
  by_cases hj : j = i
  · subst hj
    by_cases hk : k = l
    · subst hk
      simp [Pool.hold]
    · simp [Pool.hold, hk]
  · simp [Pool.hold, hj]

omit [Fintype ι] in
/-- A lock is held for writing or not; the others are as they were. -/
theorem writing_hold {i : ι} {l : κ} {m : Option Mode}
    (halone : ∀ j, j ≠ i → p.held j l ≠ some .write) :
    (p.hold i l m).writing = {k | if k = l then m = some .write else k ∈ p.writing} := by
  refine Set.ext fun k => ?_
  by_cases hk : k = l
  · subst hk
    constructor
    · rintro ⟨j, hj⟩
      rw [held_hold] at hj
      by_cases hji : j = i
      · simpa [hji] using hj
      · exact absurd (by simpa [hji] using hj) (halone j hji)
    · intro hm
      have hm : m = some .write := by simpa using hm
      exact ⟨i, by simp [held_hold, hm]⟩
  · simp [Pool.writing, held_hold, hk]

omit [Fintype ι] in
/-- The other tasks know what they knew. -/
theorem Kept.resume (h : Kept same grows Inv post p) {q : Pool ι κ σ ρ} {i : ι}
    {next : Program κ σ ρ} (hprogram : q.program = p.program)
    (hheld : ∀ j, j ≠ i → q.held j = p.held j) (hinv : Inv q.shared q.writing)
    (halone : ∀ j k l, q.held j l = some .write → k ≠ j → q.held k l = none)
    (hothers : q.shared = p.shared ∨ (grows p.shared q.shared ∧
      ∀ l, p.held i l ≠ some .write → same l p.shared q.shared))
    (hnext : ∃ know : σ → Prop, know q.shared ∧ Stable same grows (q.held i) know ∧
      Outline same grows Inv (post i) (q.held i) know next) :
    Kept same grows Inv post (q.resume i next) := by
  refine ⟨hinv, halone, fun j => ?_⟩
  by_cases hj : j = i
  · subst hj
    simpa [Pool.resume] using hnext
  · obtain ⟨know, hknow, hstable, ho⟩ := h.knows j
    refine ⟨know, ?_, ?_, ?_⟩
    · obtain hsame | ⟨hgrows, hsame⟩ := hothers
      · exact hsame.symm ▸ hknow
      · refine hstable p.shared q.shared hgrows (fun l hl => hsame l fun hw => hl ?_) hknow
        exact h.alone i j l hw hj
    · simpa [Pool.resume, hheld j hj] using hstable
    · simpa [Pool.resume, hj, hheld j hj, hprogram] using ho

theorem kept_step (h : Kept same grows Inv post p) (e : Turn ι κ) :
    Kept same grows Inv post (step p e).1 := by
  obtain hs | ⟨i, l, m, next, hi, hq, hs⟩ | ⟨i, l, next, hi, hs⟩ | ⟨i, change, next, hi, hs⟩ |
    ⟨i, l, m, next, tasks, hi, hl, ha, hs⟩ := step_cases p e <;> rw [hs]
  · exact h
  · exact ⟨h.inv, h.alone, h.knows⟩
  · obtain ⟨know, hknow, hstable, ho⟩ := h.knows i
    rw [hi] at ho
    obtain ⟨hinv, know', himp, hstable', hnext⟩ := ho
    refine h.resume rfl (fun j hj => by simp [Pool.hold, hj]) ?_ ?_ (.inl rfl)
      ⟨know', himp _ hknow, by simpa [Pool.hold] using hstable', by simpa [Pool.hold] using hnext⟩
    · by_cases hw : p.held i l = some .write
      · have hwriting : (p.hold i l none).writing = p.writing \ {l} := by
          rw [writing_hold fun j hj => by simp [h.alone i j l hw hj]]
          refine Set.ext fun k => ?_
          by_cases hk : k = l <;> simp [hk]
        rw [hwriting]
        exact hinv hw p.shared p.writing (h.sees i) hknow h.inv
      · have hwriting : (p.hold i l none).writing = p.writing := by
          refine Set.ext fun k => exists_congr fun j => ?_
          rw [held_hold]
          by_cases hjk : j = i ∧ k = l
          · simp [hjk, hw]
          · rw [if_neg hjk]
        rw [hwriting]
        exact h.inv
    · intro j k l' hj hk
      rw [held_hold] at hj ⊢
      by_cases hjl : j = i ∧ l' = l
      · simp [hjl] at hj
      · rw [if_neg hjl] at hj
        simp [h.alone j k l' hj hk]
  · obtain ⟨know, hknow, hstable, ho⟩ := h.knows i
    rw [hi] at ho
    obtain ⟨hinv, hgrows, hsame, know', hknow', hstable', hnext⟩ :=
      ho p.shared p.writing (h.sees i) h.inv hknow
    exact h.resume rfl (fun j _ => rfl) hinv h.alone (.inr ⟨hgrows, hsame⟩)
      ⟨know', hknow', hstable', hnext⟩
  · obtain ⟨know, hknow, hstable, ho⟩ := h.knows i
    rw [hi] at ho
    obtain ⟨hfree, learnt, hlearnt, hstable', hnext⟩ := ho
    have hnone : ∀ j, p.held j l ≠ some .write := by
      intro j
      cases m with
      | read => exact (by simpa [Pool.admits] using ha : ∀ j, p.held j l ≠ some .write) j
      | write => simp [(by simpa [Pool.admits] using ha : ∀ j, p.held j l = none) j]
    have hout : l ∉ p.writing := by
      rintro ⟨j, hj⟩
      exact hnone j hj
    obtain ⟨hlearnt, hinv⟩ := hlearnt p.shared p.writing hout (h.sees i) h.inv hknow
    refine h.resume rfl (fun j hj => by simp [Pool.hold, Pool.line, hj]) ?_ ?_ (.inl rfl)
      ⟨fun s => know s ∧ learnt s, ⟨hknow, hlearnt⟩,
        by simpa [Pool.hold, Pool.line] using (hstable.acquire hfree).and hstable',
        by simpa [Pool.hold, Pool.line] using hnext⟩
    · rw [writing_hold (p := p.line l tasks) fun j _ => hnone j]
      cases m with
      | read =>
        have hwriting : {k | if k = l then some Mode.read = some .write else k ∈ p.writing} =
            p.writing := by
          refine Set.ext fun k => ?_
          by_cases hk : k = l
          · subst hk
            simp [hout]
          · simp [hk]
        exact hwriting.symm ▸ h.inv
      | write =>
        have hwriting : {k | if k = l then some Mode.write = some .write else k ∈ p.writing} =
            insert l p.writing := by
          refine Set.ext fun k => ?_
          by_cases hk : k = l <;> simp [hk]
        exact hwriting.symm ▸ hinv rfl
    · intro j k l' hj hk
      rw [held_hold] at hj ⊢
      by_cases hjl : j = i ∧ l' = l
      · obtain ⟨rfl, rfl⟩ := hjl
        obtain rfl : m = .write := by simpa using hj
        rw [if_neg fun h => hk h.1]
        exact (by simpa [Pool.admits] using ha : ∀ j, p.held j l' = none) k
      · rw [if_neg hjl] at hj
        rw [if_neg]
        · exact h.alone j k l' hj hk
        · rintro ⟨-, rfl⟩
          exact hnone j hj

theorem kept_after (h : Kept same grows Inv post p) (turns : Nat → Turn ι κ) (n : Nat) :
    Kept same grows Inv post (after p turns n) := by
  induction n with
  | zero => exact h
  | succ n ih => exact kept_step ih (turns n)

omit [Fintype ι] [DecidableEq ι] in
theorem Kept.returned (h : Kept same grows Inv post p) {i : ι} {r : ρ}
    (hi : (p.program i).result = some r) : post i r := by
  obtain ⟨know, -, -, ho⟩ := h.knows i
  cases hprog : p.program i with
  | done r' =>
    rw [hprog] at ho hi
    obtain rfl : r' = r := by simpa [Program.result] using hi
    exact ho
  | _ => simp [hprog, Program.result] at hi

section Derived
variable {post : ρ → Prop} {held : κ → Option Mode} {know : σ → Prop} {l : κ}

omit [DecidableEq κ] in
theorem stable_true : Stable same grows held fun _ : σ => True := fun _ _ _ _ _ => trivial

/-- To know more does no harm. -/
theorem Outline.mono {t : Program κ σ ρ} {know' : σ → Prop}
    (h : Outline same grows Inv post held know t) (hk : ∀ s, know' s → know s) :
    Outline same grows Inv post held know' t := by
  induction t generalizing held know know' with
  | done r => exact h
  | acquire l m next ih =>
    obtain ⟨hl, learnt, hlearnt, hstable, hnext⟩ := h
    exact ⟨hl, learnt, fun s w hw hsees hinv hs => hlearnt s w hw hsees hinv (hk s hs), hstable,
      ih hnext fun s hs => ⟨hk s hs.1, hs.2⟩⟩
  | release l next ih =>
    obtain ⟨hinv, kept, hkept, hrest⟩ := h
    exact ⟨fun hw s w hsees hs => hinv hw s w hsees (hk s hs), kept, fun s hs => hkept s (hk s hs),
      hrest⟩
  | act change next ih => exact fun s w hsees hinv hs => h s w hsees hinv (hk s hs)

/-- To read under a lock: what is read may be known as long as the lock is held. -/
theorem outline_read {next : σ → Program κ σ ρ} (hl : held l = none)
    (hgrows : ∀ s, grows s s) (hsame : ∀ k s, same k s s)
    (h : ∀ s w, l ∉ w → Inv s w → know s → ∃ know' : σ → Prop, know' s ∧
      Stable same grows (Function.update held l (some .read)) know' ∧
      Outline same grows Inv post (Function.update held l (some .read)) know' (next s)) :
    Outline same grows Inv post held know (.acquire l .read (.act (fun s => s) next)) := by
  refine ⟨hl, fun _ => True, fun s w _ _ _ _ => ⟨trivial, fun h => by cases h⟩, stable_true,
    fun s w hsees hinv hknow => ?_⟩
  have hout : l ∉ w := (hsees l).2 (by simp)
  obtain ⟨know', hknow', hstable, hnext⟩ := h s w hout hinv hknow.1
  exact ⟨hinv, hgrows s, fun k _ => hsame k s, know', hknow', hstable, hnext⟩

/-- To give back a lock that was not written behind. -/
theorem outline_release {next : Program κ σ ρ} (hl : held l ≠ some .write) (know' : σ → Prop)
    (hknow : ∀ s, know s → know' s)
    (hstable : Stable same grows (Function.update held l none) know')
    (h : Outline same grows Inv post (Function.update held l none) know' next) :
    Outline same grows Inv post held know (.release l next) :=
  ⟨fun hw => absurd hw hl, know', hknow, hstable, h⟩

end Derived
end Rules
end Locks

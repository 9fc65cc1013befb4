import Mathlib.Data.List.Basic
import Mathlib.Logic.Function.Basic

/-! Connections to one database. A statement on its own is done at once; those of a transaction
are done on a snapshot, and take effect together if nobody else has written in the meantime. Any
connection may fail at any point, and what it has not committed is lost. -/
namespace Transactions

/-- A statement fails where it has no result. -/
abbrev Statement (δ : Type*) := δ → Option δ

def runAll {δ : Type*} (body : List (Statement δ)) (d : δ) : Option δ :=
  body.foldlM (fun d s => s d) d

inductive Program (δ ρ : Type*) where
  | done (result : ρ)
  | fail
  | read (next : δ → Program δ ρ)
  | execute (s : Statement δ) (next : Program δ ρ)
  | transaction (body : List (Statement δ)) (next : Program δ ρ)

inductive Connection (δ ρ : Type*) where
  | running (p : Program δ ρ)
  /-- Within a transaction: what it has seen committed, its own state and what is left to do. -/
  | inside (seen : Nat) (work : δ) (rest : List (Statement δ)) (next : Program δ ρ)
  | failed

structure Pool (ι δ ρ : Type*) where
  committed : δ
  /-- how often that has been written -/
  commits : Nat
  connection : ι → Connection δ ρ

inductive Event (ι : Type*) where
  | go (i : ι)
  /-- an error of the database, or the end of the process -/
  | crash (i : ι)

variable {ι δ ρ : Type*} [DecidableEq ι]

def start (d : δ) (program : ι → Program δ ρ) : Pool ι δ ρ := ⟨d, 0, fun i => .running (program i)⟩

def Pool.become (p : Pool ι δ ρ) (i : ι) (c : Connection δ ρ) : Pool ι δ ρ :=
  { p with connection := Function.update p.connection i c }

def Pool.commit (p : Pool ι δ ρ) (d : δ) : Pool ι δ ρ :=
  { p with committed := d, commits := p.commits + 1 }

/-- No transaction is open that could make others wait. -/
def Pool.Quiet (p : Pool ι δ ρ) : Prop :=
  ∀ i seen work rest next, p.connection i ≠ .inside seen work rest next

def step (p : Pool ι δ ρ) : Event ι → Pool ι δ ρ
  | .crash i =>
    match p.connection i with
    | .running (.done _) => p
    | _ => p.become i .failed
  | .go i =>
    match p.connection i with
    | .running (.done _) => p
    | .running .fail => p.become i .failed
    | .running (.read next) => p.become i (.running (next p.committed))
    | .running (.execute s next) =>
      match s p.committed with
      | none => p.become i .failed
      | some d => (p.commit d).become i (.running next)
    | .running (.transaction body next) => p.become i (.inside p.commits p.committed body next)
    | .inside seen work (s :: rest) next =>
      match s work with
      | none => p.become i .failed
      | some d => p.become i (.inside seen d rest next)
    | .inside seen work [] next =>
      if seen = p.commits then (p.commit work).become i (.running next) else p.become i .failed
    | .failed => p

def run (p : Pool ι δ ρ) (es : List (Event ι)) : Pool ι δ ρ := es.foldl step p

/-! What each connection keeps, all of them keep. -/

section
variable (Inv : δ → Prop) (Guar : ι → δ → δ → Prop) (Post : ι → ρ → δ → Prop)

/-- Nobody makes it false. -/
def Stable (P : δ → Prop) : Prop :=
  ∀ j d d', Inv d → Inv d' → Guar j d d' → P d → P d'

/-- A change keeps the invariant, is one that the connection may make, and establishes `Q`. -/
def Makes (i : ι) (P Q : δ → Prop) (s : Statement δ) : Prop :=
  ∀ d d', Inv d → P d → s d = some d' → Inv d' ∧ Guar i d d' ∧ Q d'

/-- A program with what is known at each of its points. -/
inductive Outline (i : ι) : (δ → Prop) → Program δ ρ → Prop
  | done {P : δ → Prop} {r : ρ} (h : ∀ d, Inv d → P d → Post i r d) : Outline i P (.done r)
  | fail {P : δ → Prop} : Outline i P .fail
  | read {P : δ → Prop} {next : δ → Program δ ρ} (Q : δ → δ → Prop)
      (hstable : ∀ seen, Stable Inv Guar (Q seen)) (hsees : ∀ d, Inv d → P d → Q d d)
      (hnext : ∀ seen, Outline i (Q seen) (next seen)) : Outline i P (.read next)
  | execute {P : δ → Prop} {s : Statement δ} {next : Program δ ρ} (Q : δ → Prop)
      (hstable : Stable Inv Guar Q) (hmakes : Makes Inv Guar i P Q s) (hnext : Outline i Q next) :
      Outline i P (.execute s next)
  | transaction {P : δ → Prop} {body : List (Statement δ)} {next : Program δ ρ} (Q : δ → Prop)
      (hstable : Stable Inv Guar Q) (hmakes : Makes Inv Guar i P Q (runAll body))
      (hnext : Outline i Q next) : Outline i P (.transaction body next)

/-- Where a connection is in its outline. In a transaction its state comes from a committed one,
which is still that of all as long as nobody has written. -/
def Follows (i : ι) (committed : δ) (commits : Nat) : Connection δ ρ → Prop
  | .running q => ∃ P, Stable Inv Guar P ∧ P committed ∧ Outline Inv Guar Post i P q
  | .inside seen work rest next => seen ≤ commits ∧ ∃ d P Q before, Inv d ∧ P d ∧
      (seen = commits → committed = d) ∧ runAll before d = some work ∧
      Makes Inv Guar i P Q (runAll (before ++ rest)) ∧ Stable Inv Guar Q ∧
      Outline Inv Guar Post i Q next
  | .failed => True

structure Kept (p : Pool ι δ ρ) : Prop where
  inv : Inv p.committed
  follows : ∀ i, Follows Inv Guar Post i p.committed p.commits (p.connection i)

end

section Rules
variable {Inv : δ → Prop} {Guar : ι → δ → δ → Prop} {Post : ι → ρ → δ → Prop} {p : Pool ι δ ρ}

theorem runAll_append (before rest : List (Statement δ)) (d : δ) :
    runAll (before ++ rest) d = (runAll before d).bind (runAll rest) :=
  List.foldlM_append

omit [DecidableEq ι] in
theorem kept_start {d : δ} {program : ι → Program δ ρ} (hinv : Inv d)
    (h : ∀ i, Outline Inv Guar Post i (fun _ => True) (program i)) :
    Kept Inv Guar Post (start d program) :=
  ⟨hinv, fun i => ⟨fun _ => True, fun _ _ _ _ _ _ _ => trivial, trivial, h i⟩⟩

omit [DecidableEq ι] in
/-- What one connection commits does not lead another one astray. -/
theorem Follows.commit {i j : ι} {d d' : δ} {commits : Nat} {c : Connection δ ρ}
    (h : Follows Inv Guar Post j d commits c) (hd : Inv d) (hd' : Inv d') (hguar : Guar i d d') :
    Follows Inv Guar Post j d' (commits + 1) c := by
  cases c with
  | running q =>
    obtain ⟨P, hstable, hP, hq⟩ := h
    exact ⟨P, hstable, hstable i d d' hd hd' hguar hP, hq⟩
  | inside seen work rest next =>
    obtain ⟨hle, d₀, P, Q, before, hd₀, hP, -, hrest⟩ := h
    exact ⟨Nat.le_succ_of_le hle, d₀, P, Q, before, hd₀, hP,
      fun heq => absurd heq (by omega), hrest⟩
  | failed => trivial

theorem Kept.become (h : Kept Inv Guar Post p) {i : ι} {c : Connection δ ρ}
    (hc : Follows Inv Guar Post i p.committed p.commits c) : Kept Inv Guar Post (p.become i c) := by
  refine ⟨h.inv, fun j => ?_⟩
  change Follows Inv Guar Post j p.committed p.commits (Function.update p.connection i c j)
  by_cases hj : j = i
  · subst hj
    rwa [Function.update_self]
  · rw [Function.update_of_ne hj]
    exact h.follows j

theorem Kept.commit (h : Kept Inv Guar Post p) {i : ι} {d : δ} {Q : δ → Prop}
    {next : Program δ ρ} (hd : Inv d) (hguar : Guar i p.committed d) (hQ : Q d)
    (hstable : Stable Inv Guar Q) (hnext : Outline Inv Guar Post i Q next) :
    Kept Inv Guar Post ((p.commit d).become i (.running next)) := by
  have hothers : Kept Inv Guar Post (p.commit d) :=
    ⟨hd, fun j => (h.follows j).commit h.inv hd hguar⟩
  exact hothers.become ⟨Q, hstable, hQ, hnext⟩

/-- Whoever moves keeps everything, and changes the database only as it may. -/
theorem kept_step (h : Kept Inv Guar Post p) (e : Event ι) : Kept Inv Guar Post (step p e) ∧
    ((step p e).committed = p.committed ∨ ∃ i, e = .go i ∧
      Guar i p.committed (step p e).committed) := by
  cases e with
  | crash i =>
    rw [step]
    split
    · exact ⟨h, .inl rfl⟩
    · exact ⟨h.become trivial, .inl rfl⟩
  | go i =>
    have hi := h.follows i
    rw [step]
    split
    · exact ⟨h, .inl rfl⟩
    · exact ⟨h.become trivial, .inl rfl⟩
    · rename_i next hread
      rw [hread] at hi
      obtain ⟨P, hstable, hP, hq⟩ := hi
      cases hq with
      | read Q hstable hsees hnext =>
        exact ⟨h.become ⟨Q p.committed, hstable _, hsees _ h.inv hP, hnext _⟩, .inl rfl⟩
    · rename_i s next hexecute
      rw [hexecute] at hi
      obtain ⟨P, -, hP, hq⟩ := hi
      cases hq with
      | execute Q hstable hmakes hnext =>
        split
        · exact ⟨h.become trivial, .inl rfl⟩
        · rename_i d hs
          obtain ⟨hd, hguar, hQ⟩ := hmakes _ _ h.inv hP hs
          exact ⟨h.commit hd hguar hQ hstable hnext, .inr ⟨i, rfl, hguar⟩⟩
    · rename_i body next htransaction
      rw [htransaction] at hi
      obtain ⟨P, -, hP, hq⟩ := hi
      cases hq with
      | transaction Q hstable hmakes hnext =>
        exact ⟨h.become ⟨Nat.le_refl _, p.committed, P, Q, [], h.inv, hP, fun _ => rfl, rfl,
          hmakes, hstable, hnext⟩, .inl rfl⟩
    · rename_i seen work s rest next hinside
      rw [hinside] at hi
      obtain ⟨hle, d₀, P, Q, before, hd₀, hP, hseen, hrun, hmakes, hrest⟩ := hi
      split
      · exact ⟨h.become trivial, .inl rfl⟩
      · rename_i d hs
        refine ⟨h.become ⟨hle, d₀, P, Q, before ++ [s], hd₀, hP, hseen, ?_, ?_, hrest⟩, .inl rfl⟩
        · rw [runAll_append, hrun, Option.bind_some]
          simp [runAll, hs]
        · rwa [List.append_assoc, List.singleton_append]
    · rename_i seen work next hinside
      rw [hinside] at hi
      obtain ⟨hle, d₀, P, Q, before, hd₀, hP, hseen, hrun, hmakes, hstable, hnext⟩ := hi
      split
      · rename_i hsame
        rw [List.append_nil] at hmakes
        obtain ⟨hd, hguar, hQ⟩ := hmakes d₀ work hd₀ hP hrun
        rw [← hseen hsame] at hguar
        exact ⟨h.commit hd hguar hQ hstable hnext, .inr ⟨i, rfl, hguar⟩⟩
      · exact ⟨h.become trivial, .inl rfl⟩
    · exact ⟨h, .inl rfl⟩

theorem kept_run (h : Kept Inv Guar Post p) (es : List (Event ι)) :
    Kept Inv Guar Post (run p es) := by
  induction es generalizing p with
  | nil => exact h
  | cons e es ih => exact ih (kept_step h e).1

omit [DecidableEq ι] in
theorem Kept.result (h : Kept Inv Guar Post p) {i : ι} {r : ρ}
    (hi : p.connection i = .running (.done r)) : Post i r p.committed := by
  have hfollows := h.follows i
  rw [hi] at hfollows
  obtain ⟨P, -, hP, hq⟩ := hfollows
  cases hq with
  | done hpost => exact hpost _ h.inv hP

end Rules

/-! A connection that is left alone. -/

/-- What a program does when nobody interferes and nothing breaks. -/
def alone : Program δ ρ → δ → Option (ρ × δ)
  | .done r, d => some (r, d)
  | .fail, _ => none
  | .read next, d => alone (next d) d
  | .execute s next, d => (s d).bind (alone next)
  | .transaction body next, d => (runAll body d).bind (alone next)

theorem run_append (p : Pool ι δ ρ) (es fs : List (Event ι)) :
    run p (es ++ fs) = run (run p es) fs :=
  List.foldl_append

theorem run_cons (p : Pool ι δ ρ) (e : Event ι) (es : List (Event ι)) :
    run p (e :: es) = run (step p e) es :=
  rfl

theorem inside_alone {p : Pool ι δ ρ} {i : ι} {work d : δ} {rest : List (Statement δ)}
    {next : Program δ ρ} (hi : p.connection i = .inside p.commits work rest next)
    (hrest : runAll rest work = some d) : ∃ n,
      (run p (List.replicate n (.go i))).connection i = .running next ∧
      (run p (List.replicate n (.go i))).committed = d := by
  induction rest generalizing p work with
  | nil =>
    obtain rfl : work = d := Option.some.inj hrest
    refine ⟨1, ?_, ?_⟩
    · simp [run, step, hi, Pool.become]
    · simp [run, step, hi, Pool.become, Pool.commit]
  | cons s rest ih =>
    have hcons : runAll (s :: rest) work = (s work).bind (runAll rest) := rfl
    rw [hcons] at hrest
    obtain ⟨d₁, hs, hrest⟩ := Option.bind_eq_some_iff.mp hrest
    have hstep : step p (.go i) = p.become i (.inside p.commits d₁ rest next) := by
      simp [step, hi, hs]
    obtain ⟨n, hn⟩ := ih (p := p.become i (.inside p.commits d₁ rest next))
      (Function.update_self _ _ _) hrest
    refine ⟨n + 1, ?_⟩
    rw [List.replicate_succ, run_cons, hstep]
    exact hn

/-- Enough turns in a row lead to what the program does alone. -/
theorem run_alone {p : Pool ι δ ρ} {i : ι} {q : Program δ ρ} {r : ρ} {d : δ}
    (hi : p.connection i = .running q) (h : alone q p.committed = some (r, d)) : ∃ n,
      (run p (List.replicate n (.go i))).connection i = .running (.done r) ∧
      (run p (List.replicate n (.go i))).committed = d := by
  induction q generalizing p with
  | done result =>
    obtain ⟨rfl, rfl⟩ := Prod.mk.inj (Option.some.inj h)
    exact ⟨0, hi, rfl⟩
  | fail => exact absurd h (Option.some_ne_none _).symm
  | read next ih =>
    have hstep : step p (.go i) = p.become i (.running (next p.committed)) := by
      simp [step, hi]
    obtain ⟨n, hn⟩ := ih p.committed (p := p.become i (.running (next p.committed)))
      (Function.update_self _ _ _) h
    refine ⟨n + 1, ?_⟩
    rw [List.replicate_succ, run_cons, hstep]
    exact hn
  | execute s next ih =>
    obtain ⟨d₁, hs, hnext⟩ := Option.bind_eq_some_iff.mp h
    have hstep : step p (.go i) = (p.commit d₁).become i (.running next) := by
      simp [step, hi, hs]
    obtain ⟨n, hn⟩ := ih (p := (p.commit d₁).become i (.running next))
      (Function.update_self _ _ _) hnext
    refine ⟨n + 1, ?_⟩
    rw [List.replicate_succ, run_cons, hstep]
    exact hn
  | transaction body next ih =>
    obtain ⟨d₁, hbody, hnext⟩ := Option.bind_eq_some_iff.mp h
    have hstep : step p (.go i) = p.become i (.inside p.commits p.committed body next) := by
      simp [step, hi]
    obtain ⟨m, hinside, hcommitted⟩ :=
      inside_alone (p := p.become i (.inside p.commits p.committed body next))
        (Function.update_self _ _ _) hbody
    obtain ⟨n, hn⟩ := ih hinside (hcommitted ▸ hnext)
    refine ⟨m + 1 + n, ?_⟩
    have hsplit : List.replicate (m + 1 + n) (Event.go i) =
        .go i :: List.replicate m (.go i) ++ List.replicate n (.go i) := by
      rw [List.replicate_add, List.replicate_succ]
    rw [hsplit, run_append, run_cons, hstep]
    exact hn

end Transactions

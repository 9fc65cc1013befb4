import SignalK.Lib.Files
import SignalK.Lib.Machine

/-! Programs that call a file system one step at a time, and many of them that take turns. A
name leads to a file, and a file that is open stays the same file when its name is moved. -/

/-- Names and the files they lead to; no two names lead to one file. -/
structure Volume (ι β : Type) [DecidableEq ι] where
  names : HashMap ι Nat
  contents : Nat → List β
  fresh : Nat
  bounded : ∀ l n, names.lookup l = some n → n < fresh
  single : ∀ l l' n, names.lookup l = some n → names.lookup l' = some n → l = l'

namespace Volume
variable {ι β : Type} [DecidableEq ι]

def empty : Volume ι β where
  names := ∅
  contents _ := []
  fresh := 0
  bounded l n h := by simp at h
  single l l' n h := by simp at h

def read (v : Volume ι β) (l : ι) : Option (List β) :=
  (v.names.lookup l).map v.contents

/-- What is written covers the start of what is there. -/
def fill (v : Volume ι β) (n : Nat) (text : List β) : Volume ι β :=
  { v with
    contents := Function.update v.contents n (text ++ (v.contents n).drop text.length) }

/-- The file of a name, emptied, or a new one. -/
def truncate (v : Volume ι β) (l : ι) : Volume ι β × Nat :=
  match h : v.names.lookup l with
  | some n => ({ v with contents := Function.update v.contents n [] }, n)
  | none =>
    ({ names := v.names.insert l v.fresh
       contents := Function.update v.contents v.fresh []
       fresh := v.fresh + 1
       bounded := by
        intro k n hk
        rw [HashMap.lookup_insert] at hk
        split_ifs at hk with he
        · have := Option.some.inj hk
          omega
        · have := v.bounded k n hk
          omega
       single := by
        intro k k' n hk hk'
        rw [HashMap.lookup_insert] at hk hk'
        split_ifs at hk hk' with he he' he'
        · rw [he, he']
        · have := v.bounded k' n hk'
          have := Option.some.inj hk
          omega
        · have := v.bounded k n hk
          have := Option.some.inj hk'
          omega
        · exact v.single k k' n hk hk' }, v.fresh)

def remove (v : Volume ι β) (l : ι) : Volume ι β :=
  { v with
    names := v.names.erase l
    bounded := by
      intro k n hk
      rw [HashMap.lookup_erase] at hk
      split_ifs at hk
      exact v.bounded k n hk
    single := by
      intro k k' n hk hk'
      rw [HashMap.lookup_erase] at hk hk'
      split_ifs at hk hk'
      exact v.single k k' n hk hk' }

/-- The file of one name gets another, in place of the file that had it. -/
def rename (v : Volume ι β) (l l' : ι) : Volume ι β :=
  match h : v.names.lookup l with
  | none => v
  | some n =>
    { v with
      names := (v.names.erase l).insert l' n
      bounded := by
        intro k m hk
        rw [HashMap.lookup_insert, HashMap.lookup_erase] at hk
        split_ifs at hk with he he'
        · exact Option.some.inj hk ▸ v.bounded l n h
        · exact v.bounded k m hk
      single := by
        intro k k' m hk hk'
        rw [HashMap.lookup_insert, HashMap.lookup_erase] at hk hk'
        have hsingle := v.single
        grind }

theorem read_of_names {v : Volume ι β} {l : ι} {n : Nat} (h : v.names.lookup l = some n) :
    v.read l = some (v.contents n) := by
  rw [read, h, Option.map_some]

theorem truncate_of_some {v : Volume ι β} {l : ι} {n : Nat} (h : v.names.lookup l = some n) :
    v.truncate l = ({ v with contents := Function.update v.contents n [] }, n) := by
  rw [truncate]
  split
  · rename_i m hm
    rw [h] at hm
    rw [Option.some.inj hm]
  · rename_i hm
    rw [h] at hm
    cases hm

theorem truncate_of_none {v : Volume ι β} {l : ι} (h : v.names.lookup l = none) :
    (v.truncate l).1.names = v.names.insert l v.fresh ∧
      (v.truncate l).1.contents = Function.update v.contents v.fresh [] ∧
      (v.truncate l).2 = v.fresh := by
  rw [truncate]
  split
  · rename_i m hm
    rw [h] at hm
    cases hm
  · exact ⟨rfl, rfl, rfl⟩

theorem truncate_names (v : Volume ι β) (l k : ι) :
    (v.truncate l).1.names.lookup k =
      if k = l then some (v.truncate l).2 else v.names.lookup k := by
  cases h : v.names.lookup l with
  | some n =>
    rw [truncate_of_some h]
    by_cases hk : k = l
    · rw [if_pos hk, hk, h]
    · rw [if_neg hk]
  | none =>
    obtain ⟨hnames, -, hfresh⟩ := truncate_of_none h
    rw [hnames, hfresh, HashMap.lookup_insert]

theorem truncate_contents (v : Volume ι β) (l : ι) :
    (v.truncate l).1.contents = Function.update v.contents (v.truncate l).2 [] := by
  cases h : v.names.lookup l with
  | some n => rw [truncate_of_some h]
  | none =>
    obtain ⟨-, hcontents, hfresh⟩ := truncate_of_none h
    rw [hcontents, hfresh]

/-- The file that is open is empty, and other names lead to the same texts. -/
theorem read_truncate (v : Volume ι β) (l k : ι) :
    (v.truncate l).1.read k = if k = l then some [] else v.read k := by
  rw [read, truncate_names, truncate_contents]
  by_cases hk : k = l
  · rw [if_pos hk, if_pos hk, Option.map_some, Function.update_self]
  · rw [if_neg hk, if_neg hk, read]
    cases hn : v.names.lookup k with
    | none => rfl
    | some n =>
      have hne : n ≠ (v.truncate l).2 := by
        rintro rfl
        cases h : v.names.lookup l with
        | some m =>
          rw [truncate_of_some h] at hn
          exact hk (v.single k l m hn h)
        | none =>
          rw [(truncate_of_none h).2.2] at hn
          have := v.bounded k _ hn
          omega
      rw [Option.map_some, Option.map_some, Function.update_of_ne hne]

theorem read_fill (v : Volume ι β) (n : Nat) (text : List β) (k : ι) :
    (v.fill n text).read k =
      if v.names.lookup k = some n then some (text ++ (v.contents n).drop text.length)
      else v.read k := by
  rw [read, fill, read]
  dsimp only
  cases hk : v.names.lookup k with
  | none => simp
  | some m =>
    by_cases hm : m = n
    · rw [hm, if_pos rfl, Option.map_some, Function.update_self]
    · rw [if_neg (by simpa using hm), Option.map_some, Function.update_of_ne hm, Option.map_some]

theorem remove_names (v : Volume ι β) (l k : ι) :
    (v.remove l).names.lookup k = if k = l then none else v.names.lookup k := by
  rw [remove, HashMap.lookup_erase]

theorem read_remove (v : Volume ι β) (l k : ι) :
    (v.remove l).read k = if k = l then none else v.read k := by
  rw [read, remove, HashMap.lookup_erase, read]
  split_ifs <;> rfl

theorem rename_names {v : Volume ι β} {l : ι} {n : Nat} (h : v.names.lookup l = some n)
    (l' k : ι) : (v.rename l l').names.lookup k =
      if k = l' then some n else if k = l then none else v.names.lookup k := by
  rw [rename]
  split
  · rename_i hm
    rw [h] at hm
    cases hm
  · rename_i m hm
    obtain rfl := Option.some.inj (h.symm.trans hm)
    rw [HashMap.lookup_insert, HashMap.lookup_erase]

theorem rename_contents (v : Volume ι β) (l l' : ι) : (v.rename l l').contents = v.contents := by
  rw [rename]
  split <;> rfl

theorem read_rename {v : Volume ι β} {l : ι} {n : Nat} (h : v.names.lookup l = some n)
    (l' k : ι) : (v.rename l l').read k =
      if k = l' then some (v.contents n) else if k = l then none else v.read k := by
  rw [read, rename_names h, rename_contents, read]
  split_ifs <;> rfl

end Volume

/-- What went wrong with a call. -/
inductive IoError where
  | notFound
  | other (e : String)
  deriving DecidableEq

def IoError.text : IoError → String
  | .notFound => "No such file or directory (os error 2)"
  | .other e => e

inductive FileProgram (β ρ : Type) where
  | done (result : ρ)
  | present (p : String) (next : Bool → FileProgram β ρ)
  | read (p : String) (next : Except IoError (List β) → FileProgram β ρ)
  | createDirs (p : String) (next : Except IoError Unit → FileProgram β ρ)
  | truncate (p : String) (next : Except IoError Nat → FileProgram β ρ)
  | fill (n : Nat) (text : List β) (next : Except IoError Unit → FileProgram β ρ)
  | rename (p q : String) (next : Except IoError Unit → FileProgram β ρ)
  | remove (p : String) (next : Except IoError Unit → FileProgram β ρ)

namespace FileProgram
variable {β ρ : Type}

/-- A file is written in two steps. -/
def write (p : String) (text : List β) (next : Except IoError Unit → FileProgram β ρ) :
    FileProgram β ρ :=
  .truncate p fun
    | .ok n => .fill n text next
    | .error e => next (.error e)

/-- All paths that a program may name satisfy a condition. -/
def Within (P : String → Prop) : FileProgram β ρ → Prop
  | .done _ => True
  | .present p next => P p ∧ ∀ answer, (next answer).Within P
  | .read p next => P p ∧ ∀ answer, (next answer).Within P
  | .createDirs p next => P p ∧ ∀ answer, (next answer).Within P
  | .truncate p next => P p ∧ ∀ answer, (next answer).Within P
  | .fill _ _ next => ∀ answer, (next answer).Within P
  | .rename p q next => P p ∧ P q ∧ ∀ answer, (next answer).Within P
  | .remove p next => P p ∧ ∀ answer, (next answer).Within P

theorem within_write {P : String → Prop} {p : String} {text : List β}
    {next : Except IoError Unit → FileProgram β ρ} :
    (write p text next).Within P ↔ P p ∧ ∀ answer, (next answer).Within P := by
  constructor
  · rintro ⟨hp, h⟩
    exact ⟨hp, fun answer => h (.ok 0) answer⟩
  · rintro ⟨hp, h⟩
    refine ⟨hp, fun answer => ?_⟩
    cases answer with
    | ok n => exact h
    | error e => exact h (.error e)

/-- A program on its own, in a file system without trouble. -/
def alone {ι : Type} [DecidableEq ι] (locate : String → ι) :
    FileProgram β ρ → Volume ι β → Volume ι β × ρ
  | .done result, v => (v, result)
  | .present p next, v => (next (v.read (locate p)).isSome).alone locate v
  | .read p next, v =>
    match v.read (locate p) with
    | some text => (next (.ok text)).alone locate v
    | none => (next (.error .notFound)).alone locate v
  | .createDirs _ next, v => (next (.ok ())).alone locate v
  | .truncate p next, v =>
    (next (.ok (v.truncate (locate p)).2)).alone locate (v.truncate (locate p)).1
  | .fill n text next, v => (next (.ok ())).alone locate (v.fill n text)
  | .rename p q next, v =>
    match v.read (locate p) with
    | some _ => (next (.ok ())).alone locate (v.rename (locate p) (locate q))
    | none => (next (.error .notFound)).alone locate v
  | .remove p next, v =>
    match v.read (locate p) with
    | some _ => (next (.ok ())).alone locate (v.remove (locate p))
    | none => (next (.error .notFound)).alone locate v

/-- What is written is read. -/
theorem alone_write {ι : Type} [DecidableEq ι] (locate : String → ι) (p : String) (text : List β)
    (next : Except IoError Unit → FileProgram β ρ) (v : Volume ι β) :
    ∃ v', (write p text next).alone locate v = (next (.ok ())).alone locate v' ∧
      ∀ k, v'.read k = if k = locate p then some text else v.read k := by
  refine ⟨(v.truncate (locate p)).1.fill (v.truncate (locate p)).2 text, rfl, fun k => ?_⟩
  have hempty : (v.truncate (locate p)).1.contents (v.truncate (locate p)).2 = [] := by
    rw [Volume.truncate_contents, Function.update_self]
  rw [Volume.read_fill, hempty, List.drop_nil, List.append_nil, Volume.read_truncate]
  by_cases hk : k = locate p
  · simp [hk, Volume.truncate_names]
  · have hother : (v.truncate (locate p)).1.names.lookup k ≠ some (v.truncate (locate p)).2 :=
      fun h => hk ((v.truncate (locate p)).1.single k _ _ h (by simp [Volume.truncate_names]))
    rw [if_neg hother, if_neg hk, if_neg hk]

/-- The trouble that a call runs into, if any. -/
def trouble : Fate (List β) → Option String
  | .done => none
  | .refused e => some e
  | .torn _ e => some e

/-- What is left of a program after its next call. -/
def step {ι : Type} [DecidableEq ι] (locate : String → ι) (v : Volume ι β)
    (fate : Fate (List β)) : FileProgram β ρ → Volume ι β × FileProgram β ρ
  | .done result => (v, .done result)
  | .present p next =>
    (v, next ((trouble fate).isNone && (v.read (locate p)).isSome))
  | .read p next =>
    match trouble fate, v.read (locate p) with
    | some e, _ => (v, next (.error (.other e)))
    | none, some text => (v, next (.ok text))
    | none, none => (v, next (.error .notFound))
  | .createDirs _ next =>
    match trouble fate with
    | some e => (v, next (.error (.other e)))
    | none => (v, next (.ok ()))
  | .truncate p next =>
    match trouble fate with
    | some e => (v, next (.error (.other e)))
    | none =>
      let opened := v.truncate (locate p)
      (opened.1, next (.ok opened.2))
  | .fill n text next =>
    match fate with
    | .done => (v.fill n text, next (.ok ()))
    | .refused e => (v, next (.error (.other e)))
    | .torn part e => (v.fill n part, next (.error (.other e)))
  | .rename p q next =>
    match trouble fate, v.read (locate p) with
    | some e, _ => (v, next (.error (.other e)))
    | none, some _ => (v.rename (locate p) (locate q), next (.ok ()))
    | none, none => (v, next (.error .notFound))
  | .remove p next =>
    match trouble fate, v.read (locate p) with
    | some e, _ => (v, next (.error (.other e)))
    | none, some _ => (v.remove (locate p), next (.ok ()))
    | none, none => (v, next (.error .notFound))

end FileProgram

/-- Programs under way, each until it returns. -/
structure Tasks (κ ι β ρ : Type) [DecidableEq ι] where
  volume : Volume ι β
  program : κ → Option (FileProgram β ρ)

namespace Tasks
variable {κ ι β ρ : Type} [DecidableEq κ] [DecidableEq ι]

/-- One task makes its next call; it returns with its last one. -/
def step (locate : String → ι) (s : Tasks κ ι β ρ) (e : κ × Fate (List β)) :
    Tasks κ ι β ρ × List (κ × ρ) :=
  match s.program e.1 with
  | none => (s, [])
  | some program =>
    let r := program.step locate s.volume e.2
    match r.2 with
    | .done result => (⟨r.1, Function.update s.program e.1 none⟩, [(e.1, result)])
    | rest => (⟨r.1, Function.update s.program e.1 (some rest)⟩, [])

theorem step_returns {locate : String → ι} {s : Tasks κ ι β ρ} {k : κ} {fate : Fate (List β)}
    {program : FileProgram β ρ} {v : Volume ι β} {result : ρ} (hk : s.program k = some program)
    (h : program.step locate s.volume fate = (v, .done result)) :
    s.step locate (k, fate) = (⟨v, Function.update s.program k none⟩, [(k, result)]) := by
  rw [step, hk]
  dsimp only
  rw [h]

theorem step_goes_on {locate : String → ι} {s : Tasks κ ι β ρ} {k : κ} {fate : Fate (List β)}
    {program rest : FileProgram β ρ} {v : Volume ι β} (hk : s.program k = some program)
    (h : program.step locate s.volume fate = (v, rest)) (hrest : ∀ result, rest ≠ .done result) :
    s.step locate (k, fate) = (⟨v, Function.update s.program k (some rest)⟩, []) := by
  rw [step, hk]
  dsimp only
  rw [h]
  cases rest with
  | done result => exact absurd rfl (hrest result)
  | _ => rfl

/-- What a step of a task is. -/
theorem step_cases (locate : String → ι) (s : Tasks κ ι β ρ) (k : κ) (fate : Fate (List β)) :
    (s.program k = none ∧ s.step locate (k, fate) = (s, [])) ∨
      ∃ program v rest, s.program k = some program ∧
        program.step locate s.volume fate = (v, rest) ∧
        ((∃ result, rest = .done result ∧ s.step locate (k, fate) =
            (⟨v, Function.update s.program k none⟩, [(k, result)])) ∨
          (∀ result, rest ≠ .done result) ∧ s.step locate (k, fate) =
            (⟨v, Function.update s.program k (some rest)⟩, [])) := by
  rw [step]
  cases hk : s.program k with
  | none => exact .inl ⟨rfl, rfl⟩
  | some program =>
    dsimp only
    generalize hr : program.step locate s.volume fate = r
    obtain ⟨v, rest⟩ := r
    refine .inr ⟨program, v, rest, rfl, hr, ?_⟩
    cases rest with
    | done result => exact .inl ⟨result, rfl, rfl⟩
    | _ => exact Or.inr (And.intro (fun result h => nomatch h) rfl)

def start (v : Volume ι β) (programs : κ → FileProgram β ρ) : Tasks κ ι β ρ where
  volume := v
  program k := some (programs k)

/-- Each task replies once, when it returns. -/
theorem run_replies (locate : String → ι) (v : Volume ι β) (programs : κ → FileProgram β ρ)
    (es : List (κ × Fate (List β))) :
    let replies := (Machine.exec (step locate) (start v programs) es).2
    (replies.map Prod.fst).Nodup ∧ ∀ k, k ∈ replies.map Prod.fst ↔
      (Machine.run (step locate) (start v programs) es).program k = none := by
  have hstep : ∀ (s : Tasks κ ι β ρ) (h : List (κ × ρ)) (e : κ × Fate (List β)),
      ((h.map Prod.fst).Nodup ∧ ∀ k, k ∈ h.map Prod.fst ↔ s.program k = none) → True →
      (((h ++ (s.step locate e).2).map Prod.fst).Nodup ∧
        ∀ k, k ∈ (h ++ (s.step locate e).2).map Prod.fst ↔
          (s.step locate e).1.program k = none) := by
    rintro s h ⟨k, fate⟩ ⟨hn, hmem⟩ -
    obtain ⟨-, hs⟩ | ⟨program, v, rest, hk, -, ⟨result, -, hs⟩ | ⟨-, hs⟩⟩ :=
      step_cases locate s k fate
    · rw [hs, List.append_nil]
      exact ⟨hn, hmem⟩
    · have hnot : k ∉ h.map Prod.fst := by simp [hmem k, hk]
      rw [hs, List.map_append, List.map_singleton]
      refine ⟨List.nodup_append.mpr ⟨hn, by simp, ?_⟩, fun j => ?_⟩
      · rintro a ha b hb rfl
        rw [List.mem_singleton.mp hb] at ha
        exact hnot ha
      · dsimp only
        by_cases hj : j = k
        · simp [hj]
        · rw [List.mem_append, hmem j, Function.update_of_ne hj, List.mem_singleton]
          exact or_iff_left hj
    · rw [hs, List.append_nil]
      refine ⟨hn, fun j => ?_⟩
      dsimp only
      by_cases hj : j = k
      · rw [hj, hmem k, hk, Function.update_self]
        simp
      · rw [hmem j, Function.update_of_ne hj]
  have hstart : (([] : List (κ × ρ)).map Prod.fst).Nodup ∧
      ∀ k, k ∈ ([] : List (κ × ρ)).map Prod.fst ↔ (start v programs).program k = none :=
    ⟨List.nodup_nil, fun k => by simp [start]⟩
  have hinv := Machine.exec_inv hstep hstart (Machine.meets_true _ _ es)
  rw [List.nil_append] at hinv
  exact hinv

end Tasks

import SignalK.Lib.HashMap

/-! Files under paths, of which several may lead to one file. -/

/-- What the operating system makes of paths. -/
class Filesystem (ι : Type) where
  /-- the file that a path leads to -/
  locate : String → Option ι
  /-- what it says of a path that leads nowhere -/
  notFound : String → String

/-- What becomes of a change of a file. A write that fails may leave something else behind. -/
inductive Fate (τ : Type) where
  | done
  | refused (e : String)
  | torn (t : τ) (e : String)

/-- The contents of the files. -/
abbrev Files (ι τ : Type) := HashMap ι τ

namespace Files
variable {ι τ : Type} [DecidableEq ι] [Filesystem ι]

def read (fs : Files ι τ) (p : String) : Option τ :=
  (Filesystem.locate p).bind fs.lookup

def present (fs : Files ι τ) (p : String) : Bool :=
  (read fs p).isSome

def write (fs : Files ι τ) (p : String) (t : τ) (fate : Fate τ) :
    Files ι τ × Except String Unit :=
  match Filesystem.locate p with
  | none => (fs, .error (Filesystem.notFound ι p))
  | some l =>
    match fate with
    | .done => (fs.insert l t, .ok ())
    | .refused e => (fs, .error e)
    | .torn t e => (fs.insert l t, .error e)

/-- A file is removed or it is not. -/
def remove (fs : Files ι τ) (p : String) (fate : Fate τ) : Files ι τ × Except String Unit :=
  match Filesystem.locate p with
  | none => (fs, .error (Filesystem.notFound ι p))
  | some l =>
    match fate with
    | .done => (fs.erase l, .ok ())
    | .refused e => (fs, .error e)
    | .torn _ e => (fs, .error e)

/-- Two paths lead to one file. -/
def Same (ι : Type) [Filesystem ι] (p q : String) : Prop :=
  ∃ l : ι, Filesystem.locate p = some l ∧ Filesystem.locate q = some l

instance (p q : String) : Decidable (Same ι p q) :=
  decidable_of_iff ((Filesystem.locate p : Option ι).any fun l =>
    decide ((Filesystem.locate q : Option ι) = some l)) (by simp [Same, Option.any_eq_true])

theorem read_insert (fs : Files ι τ) {p : String} {l : ι} (h : Filesystem.locate p = some l) (t : τ)
    (q : String) : (Same ι p q → read (fs.insert l t) q = some t) ∧
      (¬Same ι p q → read (fs.insert l t) q = read fs q) := by
  constructor
  · rintro ⟨l', hp, hq⟩
    obtain rfl := Option.some.inj (h.symm.trans hp)
    simp [read, hq]
  · intro hne
    cases hq : (Filesystem.locate q : Option ι) with
    | none => simp [read, hq]
    | some l' =>
      have hl : l' ≠ l := by
        rintro rfl
        exact hne ⟨l', h, hq⟩
      simp [read, hq, Finmap.lookup_insert_of_ne, hl]

theorem read_erase (fs : Files ι τ) {p : String} {l : ι} (h : Filesystem.locate p = some l)
    {q : String} (hne : ¬Same ι p q) : read (fs.erase l) q = read fs q := by
  cases hq : (Filesystem.locate q : Option ι) with
  | none => simp [read, hq]
  | some l' =>
    have hl : l' ≠ l := by
      rintro rfl
      exact hne ⟨l', h, hq⟩
    simp [read, hq, Finmap.lookup_erase_ne, hl]

end Files

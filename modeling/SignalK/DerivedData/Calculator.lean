import SignalK.Lib.Text
import SignalK.Types.Delta
import SignalK.Types.Exact

/-! What a calculator of derived data is, and what the calculators share: the numbers of a
snapshot, angles, and the walk over the instances of a family. Arithmetic is exact. -/
namespace SignalK

/-- The order in which a calculator meets the paths of the snapshot when it walks them. -/
abbrev Iteration := HashMap.Iteration String Json

/-- The latest value of every path. -/
abbrev Values := HashMap String Json

structure Calculator where
  name : String
  /-- exact paths, or prefixes of the paths of a family's instances -/
  inputs : List String
  calculate : Iteration → Values → Option (List PathValue)

/-- `value.as_f64()`; the numbers of JSON are finite. -/
def Json.asDouble (j : Json) : Option F64 := j.asF64.map F64.finite

namespace DerivedData

/-- `values.get(path)` as a number. -/
def number (values : Values) (path : String) : Option F64 :=
  (values.lookup path).bind Json.asDouble

/-- A field of an object, as a number. -/
def numberField (value : Json) (key : String) : Option F64 :=
  (value.get key).bind Json.asDouble

def normalizeAngle [ExactMath] (angle : F64) : F64 :=
  angle.remEuclid (2 * .finite ExactMath.pi)

/-- A difference of two angles brought back by one turn at most. -/
def signedAngle [ExactMath] (angle : F64) : F64 :=
  if .finite ExactMath.pi < angle then angle - 2 * .finite ExactMath.pi
  else if angle < -.finite ExactMath.pi then angle + 2 * .finite ExactMath.pi
  else angle

def pathMatchesInput (changedPath input : String) : Bool :=
  changedPath = input || Text.startsWith changedPath (input ++ ".")

/-- `Some` of a list unless it is empty. -/
def nonEmpty (results : List PathValue) : Option (List PathValue) :=
  if results = [] then none else some results

/-- One result for every path of a family with the suffix, unless it is skipped. -/
def forInstances (iter : Iteration) (values : Values) (suffix family : String)
    (result : String → Json → Option PathValue) : Option (List PathValue) :=
  nonEmpty ((iter.entries values).filterMap fun e =>
    (Text.stripSuffix e.1 suffix).bind fun pre =>
      if Text.startsWith pre family then result pre e.2 else none)

/-! What a calculator looks at and where its results go. -/

section
variable {α : Type} {inputs outputs : List String}

/-- Nothing but the given paths matters. -/
def DependsOn (inputs : List String) (f : Values → α) : Prop :=
  ∀ m m', (∀ p ∈ inputs, m.lookup p = m'.lookup p) → f m = f m'

/-- It depends on the inputs alone, and what it gives are some of the outputs, in order. -/
structure Fixed (inputs outputs : List String) (f : Values → Option (List PathValue)) :
    Prop where
  reading : DependsOn inputs f
  writing : ∀ m results, f m = some results → (results.map (·.path)).Sublist outputs

theorem Fixed.bind {x : Values → Option α} {f : α → Values → Option (List PathValue)}
    (hx : DependsOn inputs x) (hf : ∀ a, Fixed inputs outputs (f a)) :
    Fixed inputs outputs fun m => x m >>= fun a : α => f a m where
  reading m m' h := by
    have he : x m = x m' := hx m m' h
    have hfun : ∀ a, f a m = f a m' := fun a => (hf a).reading m m' h
    simp only [he, hfun]
  writing m results h := by
    obtain ⟨a, -, ha⟩ := Option.bind_eq_some_iff.mp h
    exact (hf a).writing m results ha

theorem Fixed.lookup (i : Nat) {p : String} {f : Json → Values → Option (List PathValue)}
    (hp : inputs[i]? = some p) (hf : ∀ j, Fixed inputs outputs (f j)) :
    Fixed inputs outputs fun m => m.lookup p >>= fun j => f j m :=
  .bind (fun _ _ h => h p (List.mem_of_getElem? hp)) hf

theorem Fixed.number (i : Nat) {p : String} {f : F64 → Values → Option (List PathValue)}
    (hp : inputs[i]? = some p) (hf : ∀ x, Fixed inputs outputs (f x)) :
    Fixed inputs outputs fun m => number m p >>= fun x => f x m :=
  .bind (fun m m' h => by simp only [DerivedData.number, h p (List.mem_of_getElem? hp)]) hf

theorem Fixed.text (i : Nat) {p : String} {f : String → Values → Option (List PathValue)}
    (hp : inputs[i]? = some p) (hf : ∀ x, Fixed inputs outputs (f x)) :
    Fixed inputs outputs fun m => (m.lookup p).bind Json.asStr >>= fun x => f x m :=
  .bind (fun m m' h => by simp only [h p (List.mem_of_getElem? hp)]) hf

/-- A step that does not look at the snapshot. -/
theorem Fixed.step {x : Option α} {f : α → Values → Option (List PathValue)}
    (hf : ∀ a, Fixed inputs outputs (f a)) :
    Fixed inputs outputs fun m => x >>= fun a : α => f a m :=
  .bind (fun _ _ _ => rfl) hf

theorem Fixed.ite {c : Prop} [Decidable c] {f g : Values → Option (List PathValue)}
    (hf : Fixed inputs outputs f) (hg : Fixed inputs outputs g) :
    Fixed inputs outputs fun m => if c then f m else g m := by
  split_ifs
  · exact hf
  · exact hg

theorem Fixed.some {results : List PathValue} (h : (results.map (·.path)).Sublist outputs) :
    Fixed inputs outputs fun _ => some results where
  reading _ _ _ := rfl
  writing _ _ he := by
    cases he
    exact h

/-- The last step, with inputs that need not be there. -/
theorem Fixed.result {f : Values → List PathValue} (hf : DependsOn inputs f)
    (h : ∀ m, (f m).map (·.path) = outputs) : Fixed inputs outputs fun m => .some (f m) where
  reading m m' he := congrArg Option.some (hf m m' he)
  writing m results he := by
    cases he
    rw [h m]

theorem Fixed.all {results : List PathValue} (h : results.map (·.path) = outputs) :
    Fixed inputs outputs fun _ => .some results :=
  .some (h ▸ .refl _)

end

/-- What a walk over the instances gives does not depend on the order of the walk. -/
theorem mem_forInstances {iter : Iteration} {m : Values} {suffix family : String}
    {result : String → Json → Option PathValue} {pv : PathValue} :
    (∃ results, forInstances iter m suffix family result = some results ∧ pv ∈ results) ↔
      ∃ pre j, m.lookup (pre ++ suffix) = some j ∧ Text.startsWith pre family = true ∧
        result pre j = some pv := by
  have hmem : ∀ results : List PathValue, (∃ r, nonEmpty results = some r ∧ pv ∈ r) ↔
      pv ∈ results := by
    intro results
    simp only [nonEmpty]
    split_ifs with h
    · simp [h]
    · simp
  rw [forInstances, hmem, List.mem_filterMap]
  constructor
  · rintro ⟨⟨p, j⟩, hp, he⟩
    obtain ⟨pre, hpre, hr⟩ := Option.bind_eq_some_iff.mp he
    rw [Text.stripSuffix_eq_some] at hpre
    split_ifs at hr with hf
    exact ⟨pre, j, hpre ▸ ((iter.order m).mem_iff p j).mp hp, hf, hr⟩
  · rintro ⟨pre, j, hj, hf, hr⟩
    refine ⟨(pre ++ suffix, j), ((iter.order m).mem_iff _ j).mpr hj, ?_⟩
    have hs : Text.stripSuffix (pre ++ suffix) suffix = some pre :=
      Text.stripSuffix_eq_some.mpr rfl
    simp only [hs, Option.bind_some, hf, if_true, hr]

/-- The families whose instances calculators walk over, and what they read of each. -/
def families : List String := ["electrical.batteries.", "propulsion.", "tanks."]

def instanceInputs : List String :=
  [".voltage", ".current", ".revolutions", ".fuel.rate", ".capacity", ".currentLevel"]

def ofInstance (p : String) : Bool := families.any fun f => Text.startsWith p f

/-- The path of an instance's value. -/
def InstancePath (family out p : String) : Prop :=
  ∃ pre, Text.startsWith pre family = true ∧ p = pre ++ out

/-- In this order of iteration the value is among the results. -/
def Gives (f : Iteration → Values → Option (List PathValue)) (iter : Iteration) (m : Values)
    (pv : PathValue) : Prop :=
  ∃ results, f iter m = some results ∧ pv ∈ results

/-- One value for a path, out of what is read alone and in any order of iteration. -/
structure Sound (reads writes : String → Prop)
    (f : Iteration → Values → Option (List PathValue)) : Prop where
  order : ∀ iter iter' m pv, Gives f iter m pv → Gives f iter' m pv
  reading : ∀ iter m m' pv, (∀ p, reads p → m.lookup p = m'.lookup p) →
    Gives f iter m pv → Gives f iter m' pv
  functional : ∀ iter m pv pv', Gives f iter m pv → Gives f iter m pv' →
    pv.path = pv'.path → pv = pv'
  writing : ∀ iter m pv, Gives f iter m pv → writes pv.path

namespace Sound
variable {reads writes : String → Prop}

theorem of_fixed {inputs outputs : List String}
    {f : Iteration → Values → Option (List PathValue)}
    (h : ∀ iter, Fixed inputs outputs (f iter)) (hiter : ∀ iter iter' m, f iter m = f iter' m)
    (hr : ∀ p ∈ inputs, reads p) (hn : outputs.Nodup) (hw : ∀ p ∈ outputs, writes p) :
    Sound reads writes f where
  order iter iter' m pv hg := by
    obtain ⟨results, he, hm⟩ := hg
    exact ⟨results, (hiter iter' iter m).trans he, hm⟩
  reading iter m m' pv hagree hg := by
    obtain ⟨results, he, hm⟩ := hg
    have hsame : f iter m = f iter m' := (h iter).reading m m' fun p hp => hagree p (hr p hp)
    exact ⟨results, hsame.symm.trans he, hm⟩
  functional iter m pv pv' hg hg' hp := by
    obtain ⟨results, he, hm⟩ := hg
    obtain ⟨results', he', hm'⟩ := hg'
    obtain rfl : results = results' := Option.some.inj (he.symm.trans he')
    have hnodup : (results.map (·.path)).Nodup := hn.sublist ((h iter).writing m results he)
    exact List.inj_on_of_nodup_map hnodup hm hm' hp
  writing iter m pv hg := by
    obtain ⟨results, he, hm⟩ := hg
    apply hw
    exact ((h iter).writing m results he).subset (List.mem_map.mpr ⟨pv, hm, rfl⟩)

theorem gives_bind {α : Type} {x : Option α} {f : α → Option (List PathValue)} {pv : PathValue} :
    (∃ results, (x >>= f) = some results ∧ pv ∈ results) ↔
      ∃ a, x = some a ∧ ∃ results, f a = some results ∧ pv ∈ results := by
  cases x with
  | none => simp
  | some a => simp

theorem bind {α : Type} {x : Values → Option α}
    {f : α → Iteration → Values → Option (List PathValue)}
    (hx : ∀ m m', (∀ p, reads p → m.lookup p = m'.lookup p) → x m = x m')
    (hf : ∀ a, Sound reads writes (f a)) :
    Sound reads writes fun iter m => x m >>= fun a : α => f a iter m where
  order iter iter' m pv hg := by
    obtain ⟨a, ha, hr⟩ := gives_bind.mp hg
    exact gives_bind.mpr ⟨a, ha, (hf a).order iter iter' m pv hr⟩
  reading iter m m' pv hagree hg := by
    obtain ⟨a, ha, hr⟩ := gives_bind.mp hg
    exact gives_bind.mpr ⟨a, (hx m m' hagree).symm.trans ha, (hf a).reading iter m m' pv hagree hr⟩
  functional iter m pv pv' hg hg' hp := by
    obtain ⟨a, ha, hr⟩ := gives_bind.mp hg
    obtain ⟨a', ha', hr'⟩ := gives_bind.mp hg'
    obtain rfl : a = a' := Option.some.inj (ha.symm.trans ha')
    exact (hf a).functional iter m pv pv' hr hr' hp
  writing iter m pv hg := by
    obtain ⟨a, -, hr⟩ := gives_bind.mp hg
    exact (hf a).writing iter m pv hr

theorem walk {suffix family out : String} {result : Values → String → Json → Option PathValue}
    (hscan : ∀ pre, Text.startsWith pre family = true → reads (pre ++ suffix))
    (hpath : ∀ m pre j pv, result m pre j = some pv → pv.path = pre ++ out)
    (hread : ∀ m m' pre j, Text.startsWith pre family = true →
      (∀ p, reads p → m.lookup p = m'.lookup p) → result m pre j = result m' pre j) :
    Sound reads (InstancePath family out) fun iter m =>
      forInstances iter m suffix family (result m) where
  order iter iter' m pv hg := mem_forInstances.mpr (mem_forInstances.mp hg)
  reading iter m m' pv hagree hg := by
    obtain ⟨pre, j, hj, hf, hr⟩ := mem_forInstances.mp hg
    refine mem_forInstances.mpr ⟨pre, j, ?_, hf, ?_⟩
    · rw [← hagree _ (hscan pre hf), hj]
    · rw [← hread m m' pre j hf hagree, hr]
  functional iter m pv pv' hg hg' hp := by
    obtain ⟨pre, j, hj, hf, hr⟩ := mem_forInstances.mp hg
    obtain ⟨pre', j', hj', -, hr'⟩ := mem_forInstances.mp hg'
    rw [hpath m pre j pv hr, hpath m pre' j' pv' hr'] at hp
    obtain rfl : pre = pre' := (String.append_left_inj _).mp hp
    obtain rfl : j = j' := Option.some.inj (hj.symm.trans hj')
    exact Option.some.inj (hr.symm.trans hr')
  writing iter m pv hg := by
    obtain ⟨pre, j, -, hf, hr⟩ := mem_forInstances.mp hg
    exact ⟨pre, hf, hpath m pre j pv hr⟩

end Sound

end DerivedData

namespace Calculator
open DerivedData

/-- The paths that matter to a calculator: its inputs, and of an input that is the prefix of
a family, what is read of the instances. -/
def Reads (c : Calculator) (p : String) : Prop :=
  p ∈ c.inputs ∨ (∃ input ∈ c.inputs, Text.startsWith p (input ++ ".") = true) ∧
    ofInstance p = true ∧ ∃ suffix ∈ instanceInputs, Text.endsWith p suffix = true

/-- What is read reaches the calculator. -/
theorem Reads.matches {c : Calculator} {p : String} (h : c.Reads p) :
    ∃ input ∈ c.inputs, pathMatchesInput p input = true := by
  rcases h with h | ⟨⟨input, hi, hp⟩, -⟩
  · exact ⟨p, h, by simp [pathMatchesInput]⟩
  · exact ⟨input, hi, by simp [pathMatchesInput, hp]⟩

theorem reads_instance {c : Calculator} {family pre suffix : String} (hf : family ∈ families)
    (hi : ∃ input ∈ c.inputs, input ++ "." = family) (hs : suffix ∈ instanceInputs)
    (hpre : Text.startsWith pre family = true) : c.Reads (pre ++ suffix) := by
  have hp : Text.startsWith (pre ++ suffix) family = true := Text.startsWith_append_right hpre
  refine .inr ⟨?_, ?_, suffix, hs, Text.endsWith_append pre suffix⟩
  · obtain ⟨input, hi, rfl⟩ := hi
    exact ⟨input, hi, hp⟩
  · exact List.any_eq_true.mpr ⟨family, hf, hp⟩

theorem number_eq {c : Calculator} {m m' : Values} {p : String}
    (h : ∀ p, c.Reads p → m.lookup p = m'.lookup p) (hp : c.Reads p) :
    number m p = number m' p := by
  rw [number, number, h p hp]

end Calculator

end SignalK

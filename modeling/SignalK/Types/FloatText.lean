import SignalK.Types.Exact

/-! The texts that `str::parse::<f64>` reads, with their exact values, and the plain decimal
numbers among them. -/
namespace SignalK

/-- Arithmetic without rounding and without overflow. -/
@[reducible] def FloatMath.unrounded : FloatMath where
  add a b := a + b
  sub a b := a - b
  mul a b := a * b
  div a b := a / b
  neg a := -a
  sin _ := .nan
  cos _ := .nan
  sqrt _ := .nan
  toRadians _ := .nan

namespace FloatText

def sign : List Char → Bool × List Char
  | [] => (false, [])
  | c :: cs => if c = '-' then (true, cs) else if c = '+' then (false, cs) else (false, c :: cs)

/-- The digits that a text begins with, and the rest. -/
def spanDigits : List Char → List Nat × List Char
  | [] => ([], [])
  | c :: cs =>
    match Digits.value c with
    | none => ([], c :: cs)
    | some d => (d :: (spanDigits cs).1, (spanDigits cs).2)

/-- The exponent after the digits, if there is one, and nothing else. -/
def exponent : List Char → Option Int
  | [] => some 0
  | c :: cs =>
    if c = 'e' ∨ c = 'E' then
      let negative := (sign cs).1
      let digits := (spanDigits (sign cs).2).1
      if digits ≠ [] ∧ (spanDigits (sign cs).2).2 = [] then
        some (if negative then -(Digits.ofList digits : Int) else Digits.ofList digits)
      else none
    else none

/-- The digits after a point. -/
def fraction : List Char → List Nat × List Char
  | [] => ([], [])
  | c :: cs => if c = '.' then spanDigits cs else ([], c :: cs)

def number (cs : List Char) : Option ℚ :=
  let whole := (spanDigits cs).1
  let fractional := (fraction (spanDigits cs).2).1
  if whole = [] ∧ fractional = [] then none
  else
    (exponent (fraction (spanDigits cs).2).2).map fun (e : Int) =>
      (Digits.ofList (whole ++ fractional) : ℚ) * (10 : ℚ) ^ (e - (fractional.length : Int))

/-- The words for what is no finite number. -/
def special (negative : Bool) (cs : List Char) : Option F64 :=
  let word := cs.map Char.toLower
  if word = ['n', 'a', 'n'] then some .nan
  else if word = ['i', 'n', 'f'] ∨ word = ['i', 'n', 'f', 'i', 'n', 'i', 't', 'y'] then
    some (if negative then .negInf else .posInf)
  else none

def parse (s : String) : Option F64 :=
  let negative := (sign s.toList).1
  let cs := (sign s.toList).2
  match number cs with
  | some q => some (.finite (if negative then -q else q))
  | none => special negative cs

end FloatText

/-- The grammar of `f64`, with exact values. -/
@[reducible] def FloatParse.grammar : FloatParse where
  parse := FloatText.parse

/-- A plain decimal number: digits, and more after a point if there is one. -/
structure Decimal where
  whole : List (Fin 10)
  fraction : List (Fin 10)
  complete : whole ≠ []

namespace Decimal

def digitsText (ds : List (Fin 10)) : List Char := ds.map fun (d : Fin 10) => Digits.digit d.val

def text (d : Decimal) : List Char :=
  digitsText d.whole ++ if d.fraction = [] then [] else '.' :: digitsText d.fraction

def value (d : Decimal) : ℚ :=
  (Digits.ofList ((d.whole ++ d.fraction).map Fin.val) : ℚ) / 10 ^ d.fraction.length

theorem value_nonneg (d : Decimal) : 0 ≤ d.value := by
  unfold value
  positivity

end Decimal

namespace FloatText
open Decimal

theorem value_digit (d : Fin 10) : Digits.value (Digits.digit d.val) = some d.val := by
  revert d
  decide

/-- Digits are taken as far as they go. -/
theorem spanDigits_digitsText (ds : List (Fin 10)) (rest : List Char)
    (h : spanDigits rest = ([], rest)) :
    spanDigits (digitsText ds ++ rest) = (ds.map Fin.val, rest) := by
  induction ds with
  | nil => exact h
  | cons d ds ih =>
    have hcons : digitsText (d :: ds) ++ rest =
        Digits.digit d.val :: (digitsText ds ++ rest) := rfl
    rw [hcons, spanDigits, value_digit]
    simp only [ih, List.map_cons]

theorem sign_digit (d : Fin 10) (cs : List Char) :
    sign (Digits.digit d.val :: cs) = (false, Digits.digit d.val :: cs) := by
  have hminus : Digits.digit d.val ≠ '-' := by
    revert d
    decide
  have hplus : Digits.digit d.val ≠ '+' := by
    revert d
    decide
  rw [sign, if_neg hminus, if_neg hplus]

theorem sign_text (d : Decimal) : sign d.text = (false, d.text) := by
  obtain ⟨whole, fraction, complete⟩ := d
  cases whole with
  | nil => exact absurd rfl complete
  | cons first rest => exact sign_digit first _

theorem number_text (d : Decimal) : number d.text = some d.value := by
  have hmap : d.whole.map Fin.val ≠ [] := fun h => d.complete (List.map_eq_nil_iff.mp h)
  by_cases hf : d.fraction = []
  · have hspan : spanDigits d.text = (d.whole.map Fin.val, []) := by
      rw [text, if_pos hf]
      exact spanDigits_digitsText d.whole [] rfl
    simp [number, hspan, fraction, hmap, exponent, value, hf]
  · have hpoint : spanDigits ('.' :: digitsText d.fraction) = ([], '.' :: digitsText d.fraction) := by
      rfl
    have hspan : spanDigits d.text = (d.whole.map Fin.val, '.' :: digitsText d.fraction) := by
      rw [text, if_neg hf]
      exact spanDigits_digitsText d.whole _ hpoint
    have hfraction : spanDigits (digitsText d.fraction) = (d.fraction.map Fin.val, []) := by
      have hall := spanDigits_digitsText d.fraction [] rfl
      rwa [List.append_nil] at hall
    simp [number, hspan, fraction, hmap, exponent, value, hfraction, div_eq_mul_inv]

/-- A plain number is read with its value. -/
theorem parse_text {s : String} {d : Decimal} (h : s.toList = d.text) :
    parse s = some (.finite d.value) := by
  simp [parse, h, sign_text, number_text]

/-- A duration is no number. -/
theorem parse_duration {s : String} {cs : List Char} (h : s.toList = 'P' :: cs) :
    parse s = none := by
  have hsign : sign ('P' :: cs) = (false, 'P' :: cs) := rfl
  have hspan : spanDigits ('P' :: cs) = ([], 'P' :: cs) := rfl
  have hlower : ('P' :: cs).map Char.toLower = 'p' :: cs.map Char.toLower := rfl
  simp [parse, h, hsign, number, hspan, fraction, special, hlower]

end FloatText
end SignalK

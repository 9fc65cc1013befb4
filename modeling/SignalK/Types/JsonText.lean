import SignalK.Lib.TomlNumbers
import SignalK.Types.F64
import SignalK.Types.Json

/-! The compact text of a JSON value, and what it is when it is read as TOML. -/
namespace SignalK

/-- The text that serde_json writes for a double. -/
class DoubleText where
  text : ℚ → List Char

/-- What is known of that text: it is decimal, with a point or an exponent, and reads back. -/
def DoubleText.Exact [DoubleText] [FloatParse] (x : ℚ) : Prop :=
  ∃ d : Toml.Decimal, DoubleText.text x = d.text ∧
    FloatParse.parse (String.ofList d.text) = some (.finite x)

def escapeChar (c : Char) : List Char :=
  if c = '"' then ['\\', '"']
  else if c = '\\' then ['\\', '\\']
  else if c = '\x08' then ['\\', 'b']
  else if c = '\t' then ['\\', 't']
  else if c = '\n' then ['\\', 'n']
  else if c = '\x0c' then ['\\', 'f']
  else if c = '\r' then ['\\', 'r']
  else if c.toNat < 32 then
    ['\\', 'u', '0', '0', Nat.digitChar (c.toNat / 16), Nat.digitChar (c.toNat % 16)]
  else [c]

def escape (s : String) : List Char := '"' :: (s.toList.flatMap escapeChar ++ ['"'])

namespace Json
variable [DoubleText]

/-- `Display` of a `Number` -/
def numberText : Number → List Char
  | .posInt n => Toml.intText n.toNat
  | .negInt n => Toml.intText n.toInt
  | .float x => DoubleText.text x

mutual
/-- `Display` of a `Value` -/
def text : Json → List Char
  | null => "null".toList
  | bool b => if b then "true".toList else "false".toList
  | number n => numberText n
  | string s => escape s
  | array items => '[' :: ([','].intercalate (texts items) ++ [']'])
  | object fields => '{' :: ([','].intercalate (fieldTexts fields) ++ ['}'])

def texts : List Json → List (List Char)
  | [] => []
  | j :: items => text j :: texts items

def fieldTexts : List (String × Json) → List (List Char)
  | [] => []
  | (k, j) :: fields => (escape k ++ ':' :: text j) :: fieldTexts fields
end

mutual
/-- The doubles in a value. -/
def floats : Json → List ℚ
  | number (.float x) => [x]
  | array items => itemFloats items
  | object fields => fieldFloats fields
  | _ => []

def itemFloats : List Json → List ℚ
  | [] => []
  | j :: items => floats j ++ itemFloats items

def fieldFloats : List (String × Json) → List ℚ
  | [] => []
  | (_, j) :: fields => floats j ++ fieldFloats fields
end

mutual
/-- A value whose text is also TOML: there are no nulls, no larger integers, no objects with
fields, and no delete characters, which JSON leaves as they are. -/
def Portable : Json → Prop
  | null => False
  | bool _ => True
  | number (.posInt n) => n.toNat < 2 ^ 63
  | number (.negInt _) => True
  | number (.float _) => True
  | string s => '\x7f' ∉ s.toList
  | array items => AllPortable items
  | object fields => fields = []

def AllPortable : List Json → Prop
  | [] => True
  | j :: items => Portable j ∧ AllPortable items
end

mutual
/-- The TOML value of the same text. -/
def meaning : Json → Option Toml.Value
  | null => none
  | bool b => some (.boolean b)
  | number (.posInt n) => if n.toNat < 2 ^ 63 then some (.integer n.toNat) else none
  | number (.negInt n) => some (.integer n.toInt)
  | number (.float x) => some (.float (DoubleText.text x))
  | string s => if '\x7f' ∈ s.toList then none else some (.string s.toList)
  | array items => ((meanings items).mapM id).map .array
  | object fields => if fields = [] then some (.table []) else none

def meanings : List Json → List (Option Toml.Value)
  | [] => []
  | j :: items => meaning j :: meanings items
end

mutual
/-- The value that a TOML value stands for. -/
def Denotes [FloatParse] : Json → Toml.Value → Prop
  | bool b, .boolean c => b = c
  | number (.posInt n), .integer m => m = n.toNat
  | number (.negInt n), .integer m => m = n.toInt
  | number (.float x), .float t => FloatParse.parse (String.ofList t) = some (.finite x)
  | string s, .string t => t = s.toList
  | array items, .array vs => DenoteAll items vs
  | object fields, .table es => fields.length = es.length ∧ DenoteFields fields es
  | _, _ => False

def DenoteAll [FloatParse] : List Json → List Toml.Value → Prop
  | [], [] => True
  | j :: items, v :: vs => Denotes j v ∧ DenoteAll items vs
  | _, _ => False

def DenoteFields [FloatParse] : List (String × Json) → List (Toml.Key × Toml.Value) → Prop
  | [], _ => True
  | (k, j) :: fields, es => (∃ v, (k.toList, v) ∈ es ∧ Denotes j v) ∧ DenoteFields fields es
end

end Json

open Toml

/-! Strings. -/

theorem unicode_control {c : Char} (h : c.toNat < 32) :
    unicode ['0', '0', Nat.digitChar (c.toNat / 16), Nat.digitChar (c.toNat % 16)] = some c := by
  have hall : ∀ n < 32, unicode ['0', '0', Nat.digitChar (n / 16), Nat.digitChar (n % 16)] =
      some (Char.ofNat n) := by
    decide
  rw [hall c.toNat h, Char.ofNat_toNat]

theorem basicString_escapeChar {c : Char} (h : c ≠ '\x7f') (cs : List Char) :
    basicString (escapeChar c ++ cs) = (basicString cs).map (push c) := by
  rw [escapeChar]
  split_ifs with h₁ h₂ h₃ h₄ h₅ h₆ h₇ h₈
  · exact basicString_escaped (by rw [h₁]; decide) cs
  · exact basicString_escaped (by rw [h₂]; decide) cs
  · exact basicString_escaped (by rw [h₃]; decide) cs
  · exact basicString_escaped (by rw [h₄]; decide) cs
  · exact basicString_escaped (by rw [h₅]; decide) cs
  · exact basicString_escaped (by rw [h₆]; decide) cs
  · exact basicString_escaped (by rw [h₇]; decide) cs
  · exact basicString_unicode (unicode_control h₈) cs
  · apply basicString_cons
    have hdel : c.toNat ≠ 127 := by
      intro he
      rw [← Char.ofNat_toNat c, he] at h
      exact h (by decide)
    simp [isPlain, isControl, h₁, h₂, h₈, hdel]

/-- A string is read as itself, unless it has a delete character. -/
theorem basicString_escape (cs rest : List Char) :
    basicString (cs.flatMap escapeChar ++ '"' :: rest) =
      if '\x7f' ∈ cs then none else some (cs, rest) := by
  induction cs with
  | nil => exact basicString_quote rest
  | cons c cs ih =>
    rw [List.flatMap_cons, List.append_assoc]
    by_cases hc : c = '\x7f'
    · have hself : escapeChar c = ['\x7f'] := by rw [hc]; decide
      rw [hself, List.singleton_append, basicString_control (by decide), if_pos (by simp [hc])]
    · rw [basicString_escapeChar hc, ih]
      by_cases hcs : '\x7f' ∈ cs
      · rw [if_pos hcs, if_pos (List.mem_cons_of_mem c hcs), Option.map_none]
      · have hne : ¬ '\x7f' ∈ c :: cs := by simp [hcs, Ne.symm hc]
        rw [if_neg hcs, if_neg hne, Option.map_some]
        rfl

theorem take_marks_ne {cs : List Char} (h : cs.head? ≠ some '"') :
    cs.take 2 ≠ ['"', '"'] := by
  cases cs with
  | nil => simp
  | cons c cs =>
    intro he
    exact h (congrArg some (List.cons_eq_cons.mp he).1)

theorem head_escapeChar (c : Char) (cs : List Char) : (escapeChar c ++ cs).head? ≠ some '"' := by
  rw [escapeChar]
  split_ifs with h₁
  all_goals simp [h₁]

theorem escape_yields (s : String) :
    Yields (escape s) (if '\x7f' ∈ s.toList then none else some (.string s.toList)) := by
  refine ⟨⟨'"', _, rfl, by decide⟩, fun n rest hn hr => ?_⟩
  obtain ⟨n, rfl⟩ : ∃ k, n = k + 1 := ⟨n - 1, by omega⟩
  have htext : escape s ++ rest = '"' :: (s.toList.flatMap escapeChar ++ '"' :: rest) := by
    simp [escape]
  have hmarks : (s.toList.flatMap escapeChar ++ '"' :: rest).take 2 ≠ ['"', '"'] := by
    cases s.toList with
    | nil =>
      cases rest with
      | nil => simp
      | cons d rest => simp [(hr d rfl).2.2]
    | cons c cs =>
      rw [List.flatMap_cons, List.append_assoc]
      exact take_marks_ne (head_escapeChar c _)
  rw [htext, value, if_pos rfl, if_neg hmarks, basicString_escape]
  split_ifs <;> rfl

namespace Json
variable [DoubleText]

theorem exists_text_object (k : String) (j : Json) (fields : List (String × Json)) :
    ∃ after, text (object ((k, j) :: fields)) =
      '{' :: '"' :: (k.toList.flatMap escapeChar ++ '"' :: ':' :: after) := by
  rw [text, fieldTexts]
  cases fieldTexts fields with
  | nil => exact ⟨text j ++ ['}'], by simp [escape]⟩
  | cons t ts =>
    exact ⟨text j ++ [','] ++ [','].intercalate (t :: ts) ++ ['}'],
      by simp [escape, List.intercalate_cons_cons]⟩

mutual
theorem portable_of_meaning : ∀ (j : Json) {v : Toml.Value}, meaning j = some v → Portable j
  | null, _, h => by simp [meaning] at h
  | bool _, _, _ => by simp [Portable]
  | number (.posInt n), _, h => by
    rw [meaning] at h
    rw [Portable]
    by_contra hn
    rw [if_neg hn] at h
    simp at h
  | number (.negInt _), _, _ => by simp [Portable]
  | number (.float _), _, _ => by simp [Portable]
  | string s, _, h => by
    rw [meaning] at h
    rw [Portable]
    intro hs
    simp [hs] at h
  | array items, _, h => by
    rw [meaning] at h
    obtain ⟨vs, hvs, -⟩ := Option.map_eq_some_iff.mp h
    rw [Portable]
    exact allPortable_of_meanings items hvs
  | object fields, _, h => by
    rw [meaning] at h
    rw [Portable]
    by_contra hf
    simp [hf] at h

theorem allPortable_of_meanings : ∀ (items : List Json) {vs : List Toml.Value},
    (meanings items).mapM id = some vs → AllPortable items
  | [], _, _ => by simp [AllPortable]
  | j :: items, vs, h => by
    rw [meanings, List.mapM_cons] at h
    obtain ⟨v, hv, h⟩ := Option.bind_eq_some_iff.mp h
    obtain ⟨vs', hvs, -⟩ := Option.bind_eq_some_iff.mp h
    rw [AllPortable]
    exact ⟨portable_of_meaning j hv, allPortable_of_meanings items hvs⟩
end

variable [FloatParse]

mutual
/-- The text of a value is TOML if the value is portable, and then means the same. -/
theorem text_yields : ∀ j : Json, (∀ x ∈ j.floats, DoubleText.Exact x) →
    Yields j.text j.meaning
  | null, _ => by
    rw [text, meaning]
    exact Yields.scalar (by decide) (by decide)
  | bool b, _ => by
    cases b with
    | false => exact Yields.scalar (t := "false".toList) (by decide) (by decide)
    | true => exact Yields.scalar (t := "true".toList) (by decide) (by decide)
  | number (.posInt n), _ => by
    have hn := Yields.int n.toNat
    rw [text, numberText, meaning]
    by_cases hlt : n.toNat < 2 ^ 63
    · rw [if_pos hlt]
      rwa [if_pos ⟨by omega, by exact_mod_cast hlt⟩] at hn
    · rw [if_neg hlt]
      rwa [if_neg fun h => hlt (by exact_mod_cast h.2)] at hn
  | number (.negInt n), _ => by
    have hn := Yields.int n.toInt
    rwa [if_pos ⟨n.le_toInt, n.toInt_lt⟩] at hn
  | number (.float x), hf => by
    obtain ⟨d, hd, -⟩ := hf x (by simp [floats])
    rw [text, numberText, meaning, hd]
    exact Yields.decimal d
  | string s, _ => by
    rw [text, meaning]
    exact escape_yields s
  | array items, hf => by
    rw [text, meaning]
    exact Yields.array (w := []) (by simp)
      (texts_yield items fun x hx => hf x (by simpa [floats] using hx))
  | object fields, _ => by
    cases fields with
    | nil =>
      rw [text, meaning]
      exact Yields.emptyTable
    | cons e fields =>
      obtain ⟨k, j⟩ := e
      obtain ⟨after, htext⟩ := exists_text_object k j fields
      rw [htext, meaning, if_neg (List.cons_ne_nil _ _)]
      apply Yields.braces
      intro rest
      rw [List.append_assoc, List.cons_append, basicString_escape]
      split_ifs
      · exact .inl rfl
      · exact .inr ⟨_, _, rfl⟩

theorem texts_yield : ∀ items : List Json, (∀ x ∈ itemFloats items, DoubleText.Exact x) →
    List.Forall₂ Yields (texts items) (meanings items)
  | [], _ => by
    rw [texts, meanings]
    exact List.Forall₂.nil
  | j :: items, hf => by
    rw [texts, meanings]
    exact List.Forall₂.cons (text_yields j fun x hx => hf x (by simp [itemFloats, hx]))
      (texts_yield items fun x hx => hf x (by simp [itemFloats, hx]))
end

mutual
theorem exists_meaning : ∀ j : Json, (∀ x ∈ j.floats, DoubleText.Exact x) → Portable j →
    ∃ v, meaning j = some v ∧ Denotes j v
  | null, _, h => by simp [Portable] at h
  | bool b, _, _ => ⟨.boolean b, by rw [meaning], by rw [Denotes]⟩
  | number (.posInt n), _, h => by
    rw [Portable] at h
    exact ⟨.integer n.toNat, by rw [meaning, if_pos h], by rw [Denotes]⟩
  | number (.negInt n), _, _ => ⟨.integer n.toInt, by rw [meaning], by rw [Denotes]⟩
  | number (.float x), hf, _ => by
    obtain ⟨d, hd, hparse⟩ := hf x (by simp [floats])
    exact ⟨.float (DoubleText.text x), by rw [meaning], by rw [Denotes, hd, hparse]⟩
  | string s, _, h => by
    rw [Portable] at h
    exact ⟨.string s.toList, by rw [meaning, if_neg h], by rw [Denotes]⟩
  | array items, hf, h => by
    rw [Portable] at h
    obtain ⟨vs, hvs, hdenote⟩ :=
      exists_meanings items (fun x hx => hf x (by simpa [floats] using hx)) h
    exact ⟨.array vs, by rw [meaning, hvs]; rfl, by rwa [Denotes]⟩
  | object fields, _, h => by
    rw [Portable] at h
    subst h
    exact ⟨.table [], by rw [meaning, if_pos rfl], by simp [Denotes, DenoteFields]⟩

theorem exists_meanings : ∀ items : List Json, (∀ x ∈ itemFloats items, DoubleText.Exact x) →
    AllPortable items → ∃ vs, (meanings items).mapM id = some vs ∧ DenoteAll items vs
  | [], _, _ => ⟨[], by simp [meanings], by simp [DenoteAll]⟩
  | j :: items, hf, h => by
    rw [AllPortable] at h
    obtain ⟨v, hv, hj⟩ := exists_meaning j (fun x hx => hf x (by simp [itemFloats, hx])) h.1
    obtain ⟨vs, hvs, hitems⟩ :=
      exists_meanings items (fun x hx => hf x (by simp [itemFloats, hx])) h.2
    exact ⟨v :: vs, by simp [meanings, hv, hvs], by rw [DenoteAll]; exact ⟨hj, hitems⟩⟩
end

end Json

end SignalK

import Mathlib.Data.List.DropRight
import SignalK.Lib.Text
import SignalK.Lib.Toml

/-! What texts read as in TOML, whatever stands after them: lines, keys, strings, numbers
and arrays. -/
namespace Toml

/-! Lines. -/

/-- A line that is passed over: it is blank or a comment without control characters. -/
def Idle (line : List Char) : Prop :=
  comment (skipWs line) = [] ∨ comment (skipWs line) = ['\r']

instance (line : List Char) : Decidable (Idle line) := inferInstanceAs (Decidable (_ ∨ _))

theorem skipWs_cons {c : Char} (h : isWs c = false) (cs : List Char) :
    skipWs (c :: cs) = c :: cs := by
  rw [skipWs, List.dropWhile_cons_of_neg (by simp [h])]

theorem skipWs_line (line rest : List Char) :
    skipWs (line ++ '\n' :: rest) = skipWs line ++ '\n' :: rest := by
  induction line with
  | nil => exact skipWs_cons (by decide) rest
  | cons c line ih =>
    by_cases hc : isWs c = true
    · rw [List.cons_append, skipWs, List.dropWhile_cons_of_pos hc, skipWs,
        List.dropWhile_cons_of_pos hc]
      exact ih
    · have hf : isWs c = false := by simpa using hc
      rw [List.cons_append, skipWs_cons hf, skipWs_cons hf, List.cons_append]

theorem comment_line (line rest : List Char) :
    comment (line ++ '\n' :: rest) = comment line ++ '\n' :: rest := by
  cases line with
  | nil => simp [comment]
  | cons c line =>
    by_cases hc : c = '#'
    · rw [List.cons_append, comment, if_pos hc, comment, if_pos hc]
      induction line with
      | nil => exact List.dropWhile_cons_of_neg (by decide)
      | cons d line ih =>
        by_cases hd : isControl d = true
        · rw [List.cons_append, List.dropWhile_cons_of_neg (by simp [hd]),
            List.dropWhile_cons_of_neg (by simp [hd]), List.cons_append]
        · rw [List.cons_append, List.dropWhile_cons_of_pos (by simp [hd]), ih,
            List.dropWhile_cons_of_pos (by simp [hd])]
    · rw [List.cons_append, comment, if_neg hc, comment, if_neg hc, List.cons_append]

theorem newline_line {line : List Char} (h : '\n' ∉ line) (rest : List Char) :
    newline (line ++ '\n' :: rest) = if line = [] ∨ line = ['\r'] then some rest else none := by
  cases line with
  | nil => simp [newline]
  | cons c line =>
    have hc : c ≠ '\n' := fun he => h (he ▸ List.mem_cons_self)
    rw [List.cons_append, newline, if_neg hc]
    cases line with
    | nil =>
      by_cases hr : c = '\r'
      · simp [hr]
      · simp [hr]
    | cons d line =>
      have hd : d ≠ '\n' := fun he => h (he ▸ by simp)
      simp [hd]

theorem mem_comment {c : Char} {cs : List Char} (h : c ∈ comment cs) : c ∈ cs := by
  cases cs with
  | nil => exact h
  | cons d cs =>
    rw [comment] at h
    split_ifs at h
    · exact List.mem_cons_of_mem d ((List.dropWhile_sublist _).mem h)
    · exact h

/-- The rest of a line that ends. -/
theorem endOfLine_line {line : List Char} (h : '\n' ∉ line) (rest : List Char) :
    endOfLine (line ++ '\n' :: rest) = if Idle line then some (some rest) else none := by
  have hm : '\n' ∉ comment (skipWs line) :=
    fun hm => h ((List.dropWhile_sublist _).mem (mem_comment hm))
  have hne : comment (skipWs line) ++ '\n' :: rest ≠ [] := by simp
  rw [endOfLine, skipWs_line, comment_line, if_neg hne, newline_line hm]
  by_cases hi : comment (skipWs line) = [] ∨ comment (skipWs line) = ['\r']
  · rw [if_pos hi, Option.map_some]
    exact (if_pos hi).symm
  · rw [if_neg hi, Option.map_none]
    exact (if_neg hi).symm

/-- A line that is passed over holds nothing; any other one that reads holds an expression. -/
theorem expressions_idle {line : List Char} (h : '\n' ∉ line) (hi : Idle line) (n : Nat)
    (rest : List Char) : expressions (n + 1) (line ++ '\n' :: rest) = expressions n rest := by
  have hexpr : expression (skipWs line ++ '\n' :: rest) =
      some (none, skipWs line ++ '\n' :: rest) := by
    cases hw : skipWs line with
    | nil => simp [expression]
    | cons c w =>
      have hc : c = '#' ∨ c = '\n' ∨ c = '\r' := by
        by_contra hne
        have hsharp : ¬ c = '#' := fun he => hne (.inl he)
        rw [Idle, hw, comment, if_neg hsharp] at hi
        rcases hi with hi | hi
        · simp at hi
        · exact hne (.inr (.inr (List.cons_eq_cons.mp hi).1))
      rw [List.cons_append, expression, if_pos hc]
  have hend : endOfLine (skipWs line ++ '\n' :: rest) = some (some rest) := by
    have hm : '\n' ∉ skipWs line := fun hm => h ((List.dropWhile_sublist _).mem hm)
    have hi' : Idle (skipWs line) := by
      rwa [Idle, skipWs, skipWs, List.dropWhile_idempotent]
    rw [endOfLine_line hm, if_pos hi']
  rw [expressions, skipWs_line, hexpr, Option.bind_some, hend, Option.bind_some]
  simp

theorem expressions_ne_nil {line : List Char} (h : '\n' ∉ line) (hi : ¬ Idle line) (n : Nat)
    (rest : List Char) : expressions (n + 1) (line ++ '\n' :: rest) ≠ some [] := by
  intro he
  rw [expressions, skipWs_line] at he
  obtain ⟨⟨e, cs⟩, hexpr, he⟩ := Option.bind_eq_some_iff.mp he
  obtain ⟨after, hend, he⟩ := Option.bind_eq_some_iff.mp he
  have hnone : e = none := by
    cases after with
    | none => simpa using he
    | some rest =>
      obtain ⟨out, -, hout⟩ := Option.map_eq_some_iff.mp he
      simpa using (List.append_eq_nil_iff.mp hout).1
  have hcs : cs = skipWs line ++ '\n' :: rest := by
    rw [hnone] at hexpr
    cases hw : skipWs line ++ '\n' :: rest with
    | nil => simp at hw
    | cons c w =>
      rw [hw, expression] at hexpr
      split_ifs at hexpr with h₁ h₂
      · simpa using hexpr.symm
      · obtain ⟨r, -, hr⟩ := Option.map_eq_some_iff.mp hexpr
        simp at hr
      · obtain ⟨r, -, hr⟩ := Option.map_eq_some_iff.mp hexpr
        simp at hr
  have hm : '\n' ∉ skipWs line := fun hm => h ((List.dropWhile_sublist _).mem hm)
  have hi' : ¬ Idle (skipWs line) := by rwa [Idle, skipWs, skipWs, List.dropWhile_idempotent]
  rw [hcs, endOfLine_line hm, if_neg hi'] at hend
  simp at hend

theorem expressions_nil (n : Nat) : expressions (n + 1) [] = some [] := by
  simp [expressions, expression, endOfLine, skipWs, comment]

/-- The lines of a text, each with its end. -/
def ended (lines : List (List Char)) : List Char := lines.flatMap (· ++ ['\n'])

theorem ended_cons (line : List Char) (lines : List (List Char)) :
    ended (line :: lines) = line ++ '\n' :: ended lines := by
  simp [ended]

theorem ended_splitOn (cs : List Char) : ended (cs.splitOn '\n') = cs ++ ['\n'] := by
  have hlines : ∀ ls : List (List Char), ls ≠ [] → ended ls = ['\n'].intercalate ls ++ ['\n'] := by
    intro ls hne
    induction ls with
    | nil => exact absurd rfl hne
    | cons l ls ih =>
      cases ls with
      | nil => simp [ended]
      | cons m ls => rw [ended_cons, ih (by simp), List.intercalate_cons_cons]; simp
  rw [hlines _ (List.splitOn_ne_nil _ _), List.intercalate_splitOn]

/-- A text that holds nothing but comments. -/
def OnlyComments (cs : List Char) : Prop := expressions (cs.length + 1) cs = some []

theorem expressions_ended_iff {lines : List (List Char)} (h : ∀ l ∈ lines, '\n' ∉ l) {n : Nat}
    (hn : lines.length < n) : expressions n (ended lines) = some [] ↔ ∀ l ∈ lines, Idle l := by
  induction lines generalizing n with
  | nil =>
    obtain ⟨n, rfl⟩ : ∃ k, n = k + 1 := ⟨n - 1, by simp at hn; omega⟩
    simp [ended, expressions_nil]
  | cons l lines ih =>
    obtain ⟨n, rfl⟩ : ∃ k, n = k + 1 := ⟨n - 1, by simp at hn; omega⟩
    rw [ended_cons, List.forall_mem_cons]
    by_cases hi : Idle l
    · rw [expressions_idle (h l List.mem_cons_self) hi,
        ih (fun m hm => h m (List.mem_cons_of_mem l hm)) (by simpa using hn)]
      simp [hi]
    · simp [hi, expressions_ne_nil (h l List.mem_cons_self) hi]

theorem length_le_ended (lines : List (List Char)) : lines.length ≤ (ended lines).length := by
  induction lines with
  | nil => simp [ended]
  | cons l lines ih =>
    rw [ended_cons, List.length_cons, List.length_append, List.length_cons]
    omega

/-- A text that ends a line holds nothing but comments if each of its lines is passed over. -/
theorem onlyComments_iff (cs : List Char) :
    OnlyComments (cs ++ ['\n']) ↔ ∀ l ∈ cs.splitOn '\n', Idle l := by
  have hlength := length_le_ended (cs.splitOn '\n')
  rw [OnlyComments, ← ended_splitOn,
    expressions_ended_iff (fun l hl => Text.notMem_of_mem_splitOn hl) (by omega)]

/-! Texts that hold the same expressions whatever follows them. -/

theorem expressions_mono {m n : Nat} (h : n ≤ m) {cs : List Char} {es : List Expr}
    (he : expressions n cs = some es) : expressions m cs = some es := by
  induction n generalizing m cs es with
  | zero => simp [expressions] at he
  | succ n ih =>
    obtain ⟨m, rfl⟩ : ∃ k, m = k + 1 := ⟨m - 1, by omega⟩
    rw [expressions] at he ⊢
    obtain ⟨r, hr, he⟩ := Option.bind_eq_some_iff.mp he
    obtain ⟨after, hend, he⟩ := Option.bind_eq_some_iff.mp he
    rw [hr, Option.bind_some, hend, Option.bind_some]
    cases after with
    | none => exact he
    | some rest =>
      obtain ⟨out, hout, he⟩ := Option.map_eq_some_iff.mp he
      have hm : expressions m rest = some out := ih (by omega) hout
      simp [hm, he]

def Reads (cs : List Char) (es : List Expr) : Prop :=
  ∀ n rest out, expressions n rest = some out →
    expressions (n + cs.length) (cs ++ rest) = some (es ++ out)

theorem Reads.nil : Reads [] [] :=
  fun _ _ _ h => h

theorem Reads.append {cs ds : List Char} {es fs : List Expr} (hc : Reads cs es)
    (hd : Reads ds fs) : Reads (cs ++ ds) (es ++ fs) := by
  intro n rest out h
  have htail := hc (n + ds.length) (ds ++ rest) (fs ++ out) (hd n rest out h)
  rw [List.append_assoc, List.append_assoc, List.length_append,
    show n + (cs.length + ds.length) = n + ds.length + cs.length by omega]
  exact htail

theorem Reads.flatMap {α : Type*} (items : List α) (text : α → List Char)
    (es : α → List Expr) (h : ∀ a ∈ items, Reads (text a) (es a)) :
    Reads (items.flatMap text) (items.flatMap es) := by
  induction items with
  | nil => exact Reads.nil
  | cons a items ih =>
    rw [List.flatMap_cons, List.flatMap_cons]
    exact (h a List.mem_cons_self).append (ih fun b hb => h b (List.mem_cons_of_mem a hb))

/-- A line that holds one expression, or none. -/
theorem Reads.line {line : List Char} {e : Option Expr}
    (h : ∀ rest, (expression (skipWs (line ++ '\n' :: rest))).bind (fun r =>
      (endOfLine r.2).map fun after => (r.1, after)) = some (e, some rest)) :
    Reads (line ++ ['\n']) e.toList := by
  intro n rest out hout
  obtain ⟨r, hexpr, hr⟩ := Option.bind_eq_some_iff.mp (h rest)
  obtain ⟨after, hend, hafter⟩ := Option.map_eq_some_iff.mp hr
  obtain ⟨he, rfl⟩ := Prod.mk.inj hafter
  have hone : expressions (n + 1) (line ++ '\n' :: rest) = some (e.toList ++ out) := by
    rw [expressions, hexpr, Option.bind_some, hend, Option.bind_some]
    simp [hout, ← he]
  rw [List.append_assoc, List.singleton_append, List.length_append]
  exact expressions_mono (by simp only [List.length_singleton]; omega) hone

theorem Reads.ended {lines : List (List Char)} (h : ∀ l ∈ lines, '\n' ∉ l ∧ Idle l) :
    Reads (ended lines) [] := by
  induction lines with
  | nil => exact Reads.nil
  | cons l lines ih =>
    have hl : Reads (l ++ ['\n']) [] := by
      intro n rest out hout
      obtain ⟨hmem, hi⟩ := h l List.mem_cons_self
      have hone : expressions (n + 1) (l ++ '\n' :: rest) = some out := by
        rw [expressions_idle hmem hi, hout]
      rw [List.append_assoc, List.singleton_append, List.length_append]
      exact expressions_mono (by simp only [List.length_singleton]; omega) hone
    have htail := hl.append (ih fun m hm => h m (List.mem_cons_of_mem l hm))
    rwa [List.append_assoc, List.singleton_append, ← ended_cons] at htail

theorem OnlyComments.reads (cs : List Char) (h : OnlyComments (cs ++ ['\n'])) :
    Reads (cs ++ ['\n']) [] := by
  rw [← ended_splitOn]
  exact Reads.ended fun l hl => ⟨Text.notMem_of_mem_splitOn hl, (onlyComments_iff cs).mp h l hl⟩

theorem Reads.parse {cs : List Char} {es : List Expr} (h : Reads cs es) :
    parse cs = build es := by
  have hall := h 1 [] [] (expressions_nil 0)
  rw [List.append_nil, List.append_nil, Nat.add_comm] at hall
  rw [Toml.parse, hall, Option.bind_some]

/-! Strings. -/

/-- A character that stands for itself in a string. -/
def isPlain (c : Char) : Bool := c ≠ '"' && c ≠ '\\' && !isControl c

/-- What the text of a string has to do with the string: no fewer characters, by so many
marks, and no comma that is not one of the string. -/
structure Spells (marks : Nat) (t s : List Char) : Prop where
  length : s.length + marks ≤ t.length
  commas : t.count ',' ≤ s.count ','

theorem Spells.cons {m : Nat} {t s : List Char} (h : Spells m t s) (c : Char) :
    Spells m (c :: t) (c :: s) := by
  have hlength := h.length
  have hcommas := h.commas
  exact ⟨by simp only [List.length_cons]; omega, by simp only [List.count_cons]; omega⟩

theorem Spells.skip {m : Nat} {t s : List Char} (h : Spells m t s) {c : Char} (hc : c ≠ ',') :
    Spells m (c :: t) s := by
  have hlength := h.length
  have hcommas := h.commas
  exact ⟨by simp only [List.length_cons]; omega, by simp [hc, hcommas]⟩

/-- An escape stands for one character. -/
theorem Spells.escape {m : Nat} {t s e : List Char} (h : Spells m t s) (he : ',' ∉ e)
    (hne : e ≠ []) (c : Char) : Spells m (e ++ t) (c :: s) := by
  have hlength := h.length
  have hcommas := h.commas
  have hpos : 0 < e.length := List.length_pos_of_ne_nil hne
  have hzero : e.count ',' = 0 := List.count_eq_zero.mpr he
  have hle : s.count ',' ≤ (c :: s).count ',' := List.count_le_count_cons
  exact ⟨by simp only [List.length_cons, List.length_append]; omega,
    by rw [List.count_append]; omega⟩

theorem notMem_of_unicode {ds : List Char} {ch : Char} (h : unicode ds = some ch) : ',' ∉ ds := by
  obtain ⟨ns, hns, -⟩ := Option.bind_eq_some_iff.mp h
  clear h
  induction ds generalizing ns with
  | nil => simp
  | cons d ds ih =>
    rw [List.mapM_cons] at hns
    obtain ⟨n, hd, hns⟩ := Option.bind_eq_some_iff.mp hns
    obtain ⟨ns', hds, -⟩ := Option.bind_eq_some_iff.mp hns
    have hne : d ≠ ',' := by
      intro he
      rw [he] at hd
      have hnone : hexDigit ',' = none := by decide
      simp [hnone] at hd
    simp [hne.symm, ih ns' hds]

theorem ne_of_escaped {e ch : Char} (h : escaped e = some ch) : e ≠ ',' := by
  intro he
  have hnone : escaped ',' = none := by decide
  simp [he, hnone] at h

theorem map_push_eq_some {c : Char} {x : Option (List Char × List Char)} {s rest : List Char}
    (h : x.map (push c) = some (s, rest)) : ∃ s', s = c :: s' ∧ x = some (s', rest) := by
  obtain ⟨r, rfl, hpush⟩ := Option.map_eq_some_iff.mp h
  obtain ⟨rfl, rfl⟩ := Prod.mk.inj hpush
  exact ⟨r.1, rfl, rfl⟩

theorem bind_push_eq_some {y : Option Char} {x : Option (List Char × List Char)}
    {s rest : List Char} (h : (y.bind fun c => x.map (push c)) = some (s, rest)) :
    ∃ c s', y = some c ∧ s = c :: s' ∧ x = some (s', rest) := by
  obtain ⟨c, hc, h⟩ := Option.bind_eq_some_iff.mp h
  obtain ⟨s', hs, hx⟩ := map_push_eq_some h
  exact ⟨c, s', hc, hs, hx⟩

/-- The text of a string: it is the string itself, unless it is longer. -/
theorem basicString_spells {cs s rest : List Char} (h : basicString cs = some (s, rest)) :
    ∃ t, cs = t ++ '"' :: rest ∧ Spells 0 t s ∧
      (t.length = s.length → t = s ∧ ∀ c ∈ t, isPlain c = true) := by
  have hescape : ∀ {e cs t s : List Char} {ch : Char}, ',' ∉ e → 1 < e.length →
      cs = t ++ '"' :: rest → Spells 0 t s →
      ∃ t', e ++ cs = t' ++ '"' :: rest ∧ Spells 0 t' (ch :: s) ∧
        (t'.length = (ch :: s).length → t' = ch :: s ∧ ∀ c ∈ t', isPlain c = true) := by
    intro e cs t s ch he hlen hcs ht
    have hne : e ≠ [] := by
      intro hnil
      simp [hnil] at hlen
    refine ⟨e ++ t, by rw [hcs, List.append_assoc], ht.escape he hne ch, fun hl => ?_⟩
    have := ht.length
    simp only [List.length_append, List.length_cons] at hl
    omega
  fun_induction basicString cs generalizing s with
  | case1 | case3 | case5 | case7 | case9 => simp at h
  | case2 =>
    obtain ⟨rfl, rfl⟩ := Prod.mk.inj (Option.some.inj h)
    exact ⟨[], rfl, ⟨by simp, by simp⟩, by simp⟩
  | case4 d₁ d₂ d₃ d₄ cs _ ih =>
    obtain ⟨ch, s', hch, rfl, hr⟩ := bind_push_eq_some h
    obtain ⟨t, hcs, ht, -⟩ := ih hr
    have hmem := notMem_of_unicode hch
    exact hescape (e := ['\\', 'u', d₁, d₂, d₃, d₄]) (by simpa using hmem) (by simp) hcs ht
  | case6 d₁ d₂ d₃ d₄ d₅ d₆ d₇ d₈ cs _ _ ih =>
    obtain ⟨ch, s', hch, rfl, hr⟩ := bind_push_eq_some h
    obtain ⟨t, hcs, ht, -⟩ := ih hr
    have hmem := notMem_of_unicode hch
    exact hescape (e := ['\\', 'U', d₁, d₂, d₃, d₄, d₅, d₆, d₇, d₈]) (by simpa using hmem)
      (by simp) hcs ht
  | case8 e cs _ _ _ ih =>
    obtain ⟨ch, s', hch, rfl, hr⟩ := bind_push_eq_some h
    obtain ⟨t, hcs, ht, -⟩ := ih hr
    exact hescape (e := ['\\', e]) (by simp [(ne_of_escaped hch).symm]) (by simp) hcs ht
  | case10 c cs hquote hback hcontrol ih =>
    obtain ⟨s', rfl, hr⟩ := map_push_eq_some h
    obtain ⟨t, hcs, ht, hexact⟩ := ih hr
    refine ⟨c :: t, by rw [hcs, List.cons_append], ht.cons c, fun hl => ?_⟩
    obtain ⟨rfl, hplain⟩ := hexact (by simpa using hl)
    have hc : isPlain c = true := by simp [isPlain, hquote, hback, hcontrol]
    exact ⟨rfl, List.forall_mem_cons.mpr ⟨hc, hplain⟩⟩

theorem basicString_quote (cs : List Char) : basicString ('"' :: cs) = some ([], cs) := by
  rw [basicString.eq_def]
  simp

theorem basicString_cons {c : Char} (h : isPlain c = true) (cs : List Char) :
    basicString (c :: cs) = (basicString cs).map (push c) := by
  have hne : (c ≠ '"' ∧ c ≠ '\\') ∧ isControl c = false := by simpa [isPlain] using h
  rw [basicString.eq_def]
  simp [hne]

theorem basicString_plain {s : List Char} (h : ∀ c ∈ s, isPlain c = true) (rest : List Char) :
    basicString (s ++ '"' :: rest) = some (s, rest) := by
  induction s with
  | nil => exact basicString_quote rest
  | cons c s ih =>
    obtain ⟨hc, hs⟩ := List.forall_mem_cons.mp h
    rw [List.cons_append, basicString_cons hc, ih hs]
    rfl

theorem literalString_spells {cs s rest : List Char} (h : literalString cs = some (s, rest)) :
    cs = s ++ '\'' :: rest := by
  induction cs generalizing s with
  | nil => simp [literalString] at h
  | cons c cs ih =>
    rw [literalString] at h
    split_ifs at h with h₁ h₂
    · obtain ⟨rfl, rfl⟩ := Prod.mk.inj (Option.some.inj h)
      rw [h₁, List.nil_append]
    · obtain ⟨s', rfl, hr⟩ := map_push_eq_some h
      rw [ih hr, List.cons_append]

/-! Escapes. -/

theorem basicString_control {c : Char} (h : isControl c = true) (cs : List Char) :
    basicString (c :: cs) = none := by
  have hquote : c ≠ '"' := by
    intro he
    rw [he] at h
    exact absurd h (by decide)
  have hback : c ≠ '\\' := by
    intro he
    rw [he] at h
    exact absurd h (by decide)
  rw [basicString.eq_def]
  simp [hquote, hback, h]

theorem basicString_escaped {e c : Char} (h : escaped e = some c) (cs : List Char) :
    basicString ('\\' :: e :: cs) = (basicString cs).map (push c) := by
  have hu : e ≠ 'u' := by
    intro he
    have hnone : escaped 'u' = none := by decide
    simp [he, hnone] at h
  have hU : e ≠ 'U' := by
    intro he
    have hnone : escaped 'U' = none := by decide
    simp [he, hnone] at h
  rw [basicString.eq_def]
  simp [hu, hU, h]

theorem basicString_unicode {d₁ d₂ d₃ d₄ c : Char} (h : unicode [d₁, d₂, d₃, d₄] = some c)
    (cs : List Char) :
    basicString ('\\' :: 'u' :: d₁ :: d₂ :: d₃ :: d₄ :: cs) = (basicString cs).map (push c) := by
  rw [basicString.eq_def]
  simp [h]

/-! Strings of several lines. -/

/-- A text that is cut after what spells the string. -/
def Cuts (marks : Nat) (cs s rest : List Char) : Prop :=
  ∃ t, cs = t ++ rest ∧ Spells marks t s

theorem Cuts.cons {m : Nat} {cs s rest : List Char} (h : Cuts m cs s rest) (c : Char) :
    Cuts m (c :: cs) (c :: s) rest := by
  obtain ⟨t, rfl, ht⟩ := h
  exact ⟨c :: t, rfl, ht.cons c⟩

theorem Cuts.skip {m : Nat} {cs s rest : List Char} (h : Cuts m cs s rest) {c : Char}
    (hc : c ≠ ',') : Cuts m (c :: cs) s rest := by
  obtain ⟨t, rfl, ht⟩ := h
  exact ⟨c :: t, rfl, ht.skip hc⟩

theorem Cuts.escape {m : Nat} {cs s rest e : List Char} (h : Cuts m cs s rest) (he : ',' ∉ e)
    (hne : e ≠ []) (c : Char) : Cuts m (e ++ cs) (c :: s) rest := by
  obtain ⟨t, rfl, ht⟩ := h
  exact ⟨e ++ t, by rw [List.append_assoc], ht.escape he hne c⟩

theorem Cuts.marks {s cs : List Char} (hs : ∀ c ∈ s, c = '"')
    (h : cs.take (s.length + 2) = List.replicate (s.length + 2) '"') :
    Cuts 3 ('"' :: cs) s (cs.drop (s.length + 2)) := by
  have hcommas : s.count ',' = 0 :=
    List.count_eq_zero.mpr fun hm => absurd (hs _ hm) (by decide)
  refine ⟨'"' :: cs.take (s.length + 2), by simp, ?_, ?_⟩
  · simp [h]
  · simp [h, List.count_replicate]

theorem ne_comma_of_isWs {c : Char} (h : isWs c = true) : c ≠ ',' := by
  intro he
  rw [he] at h
  exact absurd h (by decide)

theorem mlBasicString_cuts {fold : Fold} {cs s rest : List Char}
    (h : mlBasicString fold cs = some (s, rest)) : Cuts 3 cs s rest := by
  fun_induction mlBasicString fold cs generalizing s with
  | case1 | case5 | case12 | case14 | case16 | case23 => simp at h
  | case2 _ c cs hc ih => exact (ih h).skip (ne_comma_of_isWs hc.2)
  | case3 _ c cs _ hc ih => exact (ih h).skip (by rw [hc.2]; decide)
  | case4 _ c cs _ _ hc ih | case7 _ c cs _ _ _ _ _ hc ih =>
    exact (ih h).skip (by rw [hc.2.1]; decide)
  | case6 _ c cs _ _ _ _ hc ih =>
    rcases Bool.or_eq_true_iff.mp hc.2 with hw | hn
    · exact (ih h).skip (ne_comma_of_isWs hw)
    · exact (ih h).skip (by rw [of_decide_eq_true hn]; decide)
  | case8 _ cs _ hmarks =>
    obtain ⟨rfl, rfl⟩ := Prod.mk.inj (Option.some.inj h)
    exact Cuts.marks (s := ['"', '"']) (by simp) hmarks
  | case9 _ cs _ _ hmarks =>
    obtain ⟨rfl, rfl⟩ := Prod.mk.inj (Option.some.inj h)
    exact Cuts.marks (s := ['"']) (by simp) hmarks
  | case10 _ cs _ _ _ hmarks =>
    obtain ⟨rfl, rfl⟩ := Prod.mk.inj (Option.some.inj h)
    exact Cuts.marks (s := []) (by simp) hmarks
  | case11 _ cs _ _ _ _ _ _ _ _ _ ih | case21 _ cs _ _ _ _ _ _ _ _ ih
  | case22 _ c cs _ _ _ _ _ _ _ _ _ _ ih | case24 _ c cs _ _ _ _ _ _ _ _ _ _ _ ih =>
    obtain ⟨s', rfl, hr⟩ := map_push_eq_some h
    exact (ih hr).cons _
  | case13 _ _ d₁ d₂ d₃ d₄ cs _ _ _ _ _ _ ih =>
    obtain ⟨ch, s', hch, rfl, hr⟩ := bind_push_eq_some h
    have hmem := notMem_of_unicode hch
    exact (ih hr).escape (e := ['\\', 'u', d₁, d₂, d₃, d₄]) (by simpa using hmem) (by simp) ch
  | case15 _ _ d₁ d₂ d₃ d₄ d₅ d₆ d₇ d₈ cs _ _ _ _ _ _ _ ih =>
    obtain ⟨ch, s', hch, rfl, hr⟩ := bind_push_eq_some h
    have hmem := notMem_of_unicode hch
    exact (ih hr).escape (e := ['\\', 'U', d₁, d₂, d₃, d₄, d₅, d₆, d₇, d₈]) (by simpa using hmem)
      (by simp) ch
  | case17 _ _ e cs _ _ hw _ _ _ _ _ _ ih =>
    exact ((ih h).skip (ne_comma_of_isWs hw)).skip (by decide)
  | case18 _ _ cs _ _ _ _ _ _ _ _ _ ih => exact ((ih h).skip (by decide)).skip (by decide)
  | case19 _ _ e cs _ _ _ _ he _ _ _ _ _ _ ih =>
    exact ((ih h).skip (by rw [he.1]; decide)).skip (by decide)
  | case20 _ _ e cs _ _ _ _ _ _ _ _ _ _ _ ih =>
    obtain ⟨ch, s', hch, rfl, hr⟩ := bind_push_eq_some h
    exact (ih hr).escape (e := ['\\', e]) (by simp [(ne_of_escaped hch).symm]) (by simp) ch

/-- What may follow a value: nothing that could be read as part of it. -/
def Ends (rest : List Char) : Prop :=
  ∀ c ∈ rest.head?, isTokenChar c = false ∧ c ≠ ' ' ∧ c ≠ '"'

theorem value_plain {s rest : List Char} (h : ∀ c ∈ s, isPlain c = true) (hr : Ends rest)
    (n : Nat) : value (n + 1) ('"' :: (s ++ '"' :: rest)) = some (.string s, rest) := by
  have hmarks : (s ++ '"' :: rest).take 2 ≠ ['"', '"'] := by
    cases s with
    | nil =>
      cases rest with
      | nil => simp
      | cons c rest =>
        have hc := (hr c rfl).2.2
        simp [hc]
    | cons c s =>
      have hc := h c List.mem_cons_self
      intro he
      have hq : c = '"' := by simpa using congrArg List.head? he
      rw [hq] at hc
      exact absurd hc (by decide)
  rw [value, if_pos rfl, if_neg hmarks, basicString_plain h, Option.map_some]

theorem afterMarks_suffix (cs : List Char) : ∃ e, cs = e ++ afterMarks cs ∧ ',' ∉ e := by
  cases cs with
  | nil => exact ⟨[], rfl, by simp⟩
  | cons c cs =>
    rw [afterMarks, newline]
    split_ifs with h₁ h₂
    · exact ⟨['\n'], by rw [h₁]; rfl, by decide⟩
    · obtain ⟨rfl, hd⟩ := h₂
      cases cs with
      | nil => simp at hd
      | cons d cs =>
        have hn : d = '\n' := by simpa using hd
        exact ⟨['\r', '\n'], by simp [hn], by decide⟩
    · exact ⟨[], rfl, by simp⟩

theorem exists_of_length_lt {α : Type*} {s u r rest : List α} {q : α}
    (h : s ++ q :: rest = u ++ r) (hlen : s.length < u.length) :
    ∃ v, u = s ++ q :: v ∧ rest = v ++ r := by
  rcases List.append_eq_append_iff.mp h with ⟨v, rfl, hv⟩ | ⟨v, rfl, -⟩
  · cases v with
    | nil => simp at hlen
    | cons c v =>
      obtain ⟨rfl, hrest⟩ := List.cons_eq_cons.mp hv
      exact ⟨v, rfl, hrest⟩
  · rw [List.length_append] at hlen
    omega

/-- A text that spells a string does not go on over a mark and a comma after the string. -/
theorem head_ne_comma {s u r rest : List Char} (h : s ++ '"' :: rest = u ++ r)
    (hlen : s.length + 2 ≤ u.length) (hcommas : u.count ',' ≤ s.count ',') :
    rest.head? ≠ some ',' := by
  intro hhead
  obtain ⟨v, rfl, hrest⟩ := exists_of_length_lt h (by omega)
  cases v with
  | nil => simp at hlen
  | cons c v =>
    rw [hrest, List.cons_append, List.head?_cons, Option.some.injEq] at hhead
    have hcount : (s ++ '"' :: c :: v).count ',' = s.count ',' + (v.count ',' + 1) := by
      simp [List.count_append, hhead]
    omega

/-- A string between marks that reads as itself has no character that needs an escape. -/
theorem plain_of_value {n : Nat} {s rest r : List Char}
    (hrest : rest.head? = some ',' ∨ rest.length ≤ 1 ∧ '"' ∉ rest)
    (h : value n ('"' :: (s ++ '"' :: rest)) = some (.string s, r)) :
    (∀ c ∈ s, isPlain c = true) ∧ r = rest := by
  cases n with
  | zero => simp [value] at h
  | succ n =>
    rw [value, if_pos rfl] at h
    split_ifs at h with hmarks
    · -- three marks: the string is shorter than what it would be read from
      obtain ⟨⟨s', r'⟩, hml, hs⟩ := Option.map_eq_some_iff.mp h
      obtain ⟨rfl, rfl⟩ : s' = s ∧ r' = r := by simpa using hs
      obtain ⟨t, hcut, ht⟩ := mlBasicString_cuts hml
      obtain ⟨e, he, hcomma⟩ := afterMarks_suffix ((s' ++ '"' :: rest).drop 2)
      have hu : s' ++ '"' :: rest = ('"' :: '"' :: (e ++ t)) ++ r' := by
        rw [← List.take_append_drop 2 (s' ++ '"' :: rest), hmarks, he, hcut]
        simp
      have hlen := ht.length
      have hcount : ('"' :: '"' :: (e ++ t)).count ',' ≤ s'.count ',' := by
        have hcommas := ht.commas
        simpa [List.count_append, List.count_eq_zero.mpr hcomma] using hcommas
      rcases hrest with hrest | ⟨hrest, -⟩
      · exact absurd hrest
          (head_ne_comma hu (by simp only [List.length_cons, List.length_append]; omega) hcount)
      · have hl := congrArg List.length hu
        simp only [List.length_cons, List.length_append] at hl
        omega
    · obtain ⟨⟨s', r'⟩, hbasic, hs⟩ := Option.map_eq_some_iff.mp h
      obtain ⟨rfl, rfl⟩ : s' = s ∧ r' = r := by simpa using hs
      obtain ⟨t, hcut, ht, hexact⟩ := basicString_spells hbasic
      rcases Nat.lt_or_ge s'.length t.length with hlt | hge
      · -- the mark after the string is read as a part of it
        rcases hrest with hrest | ⟨-, hquote⟩
        · have hu : s' ++ '"' :: rest = (t ++ ['"']) ++ r' := by simp [hcut]
          have hcount : (t ++ ['"']).count ',' ≤ s'.count ',' := by
            have hcommas := ht.commas
            simpa [List.count_append] using hcommas
          exact absurd hrest (head_ne_comma hu (by simp; omega) hcount)
        · obtain ⟨v, -, rfl⟩ := exists_of_length_lt hcut hlt
          simp at hquote
      · have hlen := ht.length
        obtain ⟨rfl, hplain⟩ := hexact (by omega)
        have hr := List.append_cancel_left hcut
        exact ⟨hplain, (List.cons_eq_cons.mp hr).2.symm⟩

/-! Values, read or not, whatever may follow them. -/

/-- A character with which a value begins, and no line end, whitespace, comment or array ends. -/
def isOpening (c : Char) : Bool := !isWs c && c ≠ '\n' && c ≠ '\r' && c ≠ '#' && c ≠ ']'

structure Yields (t : List Char) (v : Option Value) : Prop where
  opens : ∃ c cs, t = c :: cs ∧ isOpening c = true
  value_eq : ∀ n rest, t.length < n → Ends rest → value n (t ++ rest) = v.map (·, rest)

theorem Yields.alone {t : List Char} {v : Option Value} (h : Yields t v) :
    value (t.length + 1) t = v.map (·, []) := by
  have hv := h.value_eq (t.length + 1) [] (Nat.lt_succ_self _) (by simp [Ends])
  rwa [List.append_nil] at hv

theorem Yields.scalar {t : List Char} (hne : t ≠ []) (h : ∀ c ∈ t, isTokenChar c = true) :
    Yields t (classify t) := by
  obtain ⟨c, cs, rfl⟩ := List.exists_cons_of_ne_nil hne
  have hc := h c List.mem_cons_self
  have hnot : ∀ d : Char, isTokenChar d = false → c ≠ d := by
    intro d hd he
    rw [he, hd] at hc
    exact absurd hc (by decide)
  refine ⟨⟨c, cs, rfl, ?_⟩, fun n rest hn hr => ?_⟩
  · have hws : isWs c = false := by
      rw [isWs, decide_eq_false (hnot ' ' (by decide)), decide_eq_false (hnot '\t' (by decide))]
      rfl
    simp [isOpening, hws, hnot '\n' (by decide), hnot '\r' (by decide), hnot '#' (by decide),
      hnot ']' (by decide)]
  · obtain ⟨n, rfl⟩ : ∃ k, n = k + 1 := ⟨n - 1, by omega⟩
    have htake : (c :: cs ++ rest).takeWhile isTokenChar = c :: cs := by
      rw [List.takeWhile_append_of_pos h]
      cases rest with
      | nil => simp
      | cons d rest => simp [(hr d rfl).1]
    have hdrop : (c :: cs ++ rest).dropWhile isTokenChar = rest := by
      rw [List.dropWhile_append_of_pos h]
      cases rest with
      | nil => simp
      | cons d rest => simp [(hr d rfl).1]
    have hspace : rest.head? ≠ some ' ' := fun he => (hr ' ' he).2.1 rfl
    rw [List.cons_append, value, if_neg (hnot '"' (by decide)), if_neg (hnot '\'' (by decide)),
      if_neg (hnot '[' (by decide)), if_neg (hnot '{' (by decide)), Toml.scalar,
      ← List.cons_append, htake, hdrop, if_neg fun he => hspace he.2.1]

theorem Yields.plain {s : List Char} (h : ∀ c ∈ s, isPlain c = true) :
    Yields ('"' :: (s ++ ['"'])) (some (.string s)) := by
  refine ⟨⟨'"', _, rfl, by decide⟩, fun n rest hn hr => ?_⟩
  obtain ⟨n, rfl⟩ : ∃ k, n = k + 1 := ⟨n - 1, by omega⟩
  have htext : '"' :: (s ++ ['"']) ++ rest = '"' :: (s ++ '"' :: rest) := by simp
  rw [htext, value_plain h hr, Option.map_some]

theorem trivia_opening {c : Char} (h : isOpening c = true) (cs : List Char) :
    trivia false (c :: cs) = some (c :: cs) := by
  have hc : (((isWs c = false ∧ ¬ c = '\n') ∧ ¬ c = '\r') ∧ ¬ c = '#') ∧ ¬ c = ']' := by
    simpa [isOpening] using h
  simp [trivia, hc]

theorem trivia_ws {ws : List Char} (h : ∀ c ∈ ws, isWs c = true) (cs : List Char) :
    trivia false (ws ++ cs) = trivia false cs := by
  induction ws with
  | nil => rfl
  | cons c ws ih =>
    obtain ⟨hc, hws⟩ := List.forall_mem_cons.mp h
    have hn : c ≠ '\n' := by
      intro he
      rw [he] at hc
      exact absurd hc (by decide)
    have hr : c ≠ '\r' := by
      intro he
      rw [he] at hc
      exact absurd hc (by decide)
    rw [List.cons_append, trivia, if_neg hn, if_neg hr, if_neg (by decide), if_pos hc, ih hws]

theorem items_ws {w : List Char} (h : ∀ c ∈ w, isWs c = true) (n : Nat) (cs : List Char) :
    items n (w ++ cs) = items n cs := by
  cases n with
  | zero => simp [items]
  | succ n => rw [items, items, trivia_ws h]

theorem ends_comma (cs : List Char) : Ends (',' :: cs) := by
  simp [Ends, isTokenChar, isBare]

theorem ends_bracket (cs : List Char) : Ends (']' :: cs) := by
  simp [Ends, isTokenChar, isBare]

/-- The items of an array: none, if one of them does not read. -/
theorem items_eq {ws : List Char} (hws : ∀ c ∈ ws, isWs c = true) {ts : List (List Char)}
    {vs : List (Option Value)} (h : List.Forall₂ Yields ts vs) (hne : ts ≠ []) {n : Nat}
    (hn : ((',' :: ws).intercalate ts).length + 1 < n) (rest : List Char) :
    items n ((',' :: ws).intercalate ts ++ ']' :: rest) = (vs.mapM id).map (·, rest) := by
  induction h generalizing n with
  | nil => exact absurd rfl hne
  | @cons t v ts vs ht h ih =>
    obtain ⟨n, rfl⟩ : ∃ k, n = k + 1 := ⟨n - 1, by omega⟩
    obtain ⟨c, cs, htc, hc⟩ := ht.opens
    have hbracket : c ≠ ']' := by
      intro he
      rw [he] at hc
      exact absurd hc (by decide)
    have htrivia : ∀ after, trivia false (t ++ after) = some (t ++ after) := by
      intro after
      rw [htc, List.cons_append, trivia_opening hc]
    have hhead : ∀ after, (t ++ after).head? ≠ some ']' := by
      intro after he
      rw [htc, List.cons_append, List.head?_cons] at he
      exact hbracket (Option.some.inj he)
    cases h with
    | nil =>
      rw [List.intercalate_singleton] at hn ⊢
      rw [items, htrivia, Option.bind_some, if_neg (hhead _),
        ht.value_eq n _ (by omega) (ends_bracket rest)]
      cases v with
      | none => simp
      | some v => simp [trivia, isWs]
    | @cons t' v' ts vs ht' h =>
      have hlen := hn
      rw [List.intercalate_cons_cons] at hlen
      simp only [List.length_append, List.length_cons] at hlen
      have htail := ih (by simp) (n := n) (by omega)
      have htext : (',' :: ws).intercalate (t :: t' :: ts) ++ ']' :: rest =
          t ++ ',' :: (ws ++ ((',' :: ws).intercalate (t' :: ts) ++ ']' :: rest)) := by
        rw [List.intercalate_cons_cons]
        simp
      rw [htext, items, htrivia, Option.bind_some, if_neg (hhead _),
        ht.value_eq n _ (by omega) (ends_comma _)]
      cases v with
      | none => simp
      | some v =>
        have hcomma : trivia false (',' :: (ws ++ ((',' :: ws).intercalate (t' :: ts) ++
            ']' :: rest))) = some (',' :: (ws ++ ((',' :: ws).intercalate (t' :: ts) ++
            ']' :: rest))) := by
          simp [trivia, isWs]
        rw [Option.map_some, Option.bind_some, hcomma, Option.bind_some, List.head?_cons,
          if_pos rfl, List.tail_cons, items_ws hws, htail]
        have hcons : (some v :: v' :: vs).mapM id = ((v' :: vs).mapM id).map (v :: ·) := by
          rw [List.mapM_cons]
          cases (v' :: vs).mapM id <;> rfl
        rw [hcons]
        cases (v' :: vs).mapM id <;> rfl

theorem Yields.array {w : List Char} (hws : ∀ c ∈ w, isWs c = true) {ts : List (List Char)}
    {vs : List (Option Value)} (h : List.Forall₂ Yields ts vs) :
    Yields ('[' :: ((',' :: w).intercalate ts ++ [']'])) ((vs.mapM id).map .array) := by
  refine ⟨⟨'[', _, rfl, by decide⟩, fun n rest hn hr => ?_⟩
  obtain ⟨n, rfl⟩ : ∃ k, n = k + 1 := ⟨n - 1, by omega⟩
  simp only [List.length_cons, List.length_append, List.length_nil] at hn
  have htext : '[' :: ((',' :: w).intercalate ts ++ [']']) ++ rest =
      '[' :: ((',' :: w).intercalate ts ++ ']' :: rest) := by
    simp
  have hitems : items n ((',' :: w).intercalate ts ++ ']' :: rest) =
      (vs.mapM id).map (·, rest) := by
    by_cases hne : ts = []
    · subst hne
      cases h
      obtain ⟨n, rfl⟩ : ∃ k, n = k + 1 := ⟨n - 1, by omega⟩
      simp [items, trivia, isWs]
    · exact items_eq hws h hne (by omega) rest
  rw [htext, value, if_neg (by decide), if_neg (by decide), if_pos rfl, hitems, Option.map_map,
    Option.map_map]
  rfl

theorem Yields.emptyTable : Yields ['{', '}'] (some (.table [])) := by
  refine ⟨⟨'{', ['}'], rfl, by decide⟩, fun n rest hn hr => ?_⟩
  obtain ⟨n, rfl⟩ : ∃ k, n = k + 1 := ⟨n - 1, by omega⟩
  have hskip : skipWs ('}' :: rest) = '}' :: rest := skipWs_cons (by decide) rest
  have htext : ['{', '}'] ++ rest = '{' :: '}' :: rest := rfl
  rw [htext, value, if_neg (by decide), if_neg (by decide), if_neg (by decide), if_pos rfl, hskip,
    List.head?_cons, if_pos rfl, List.tail_cons, Option.map_some]

/-- Between braces a key has an equals sign after it. -/
theorem Yields.braces {t : List Char} (h : ∀ rest, basicString (t ++ rest) = none ∨
    ∃ s after, basicString (t ++ rest) = some (s, ':' :: after)) :
    Yields ('{' :: '"' :: t) none := by
  refine ⟨⟨'{', _, rfl, by decide⟩, fun n rest hn hr => ?_⟩
  obtain ⟨n, rfl⟩ : ∃ k, n = k + 2 := ⟨n - 2, by simp only [List.length_cons] at hn; omega⟩
  have hskip : skipWs ('"' :: (t ++ rest)) = '"' :: (t ++ rest) := skipWs_cons (by decide) _
  have hfields : fields (n + 1) ('"' :: (t ++ rest)) = none := by
    rw [fields, hskip]
    cases n with
    | zero => simp [key]
    | succ n =>
      rcases h rest with hnone | ⟨s, after, hsome⟩
      · simp [key, simpleKey, hnone]
      · have hcolon : skipWs (':' :: after) = ':' :: after := skipWs_cons (by decide) after
        simp [key, simpleKey, hsome, hcolon]
  have htext : '{' :: '"' :: t ++ rest = '{' :: '"' :: (t ++ rest) := rfl
  rw [htext, value, if_neg (by decide), if_neg (by decide), if_neg (by decide), if_pos rfl, hskip,
    List.head?_cons, if_neg (by decide), hfields]
  rfl

/-! Keys and the lines with them. -/

def Bare (k : Key) : Prop := k ≠ [] ∧ ∀ c ∈ k, isBare c = true

instance (k : Key) : Decidable (Bare k) := inferInstanceAs (Decidable (_ ∧ _))

theorem ne_of_isBare {c d : Char} (hc : isBare c = true) (hd : isBare d = false) : c ≠ d := by
  intro he
  rw [he, hd] at hc
  exact absurd hc (by decide)

theorem isWs_of_isBare {c : Char} (hc : isBare c = true) : isWs c = false := by
  have hspace : c ≠ ' ' := ne_of_isBare hc (by decide)
  have htab : c ≠ '\t' := ne_of_isBare hc (by decide)
  simp [isWs, hspace, htab]

theorem key_bare {k : List Char} (hk : Bare k) (rest : List Char)
    (hr : ∀ c ∈ rest.head?, isBare c = false) (hdot : (skipWs rest).head? ≠ some '.') (n : Nat) :
    key (n + 1) (k ++ rest) = some ([k], skipWs rest) := by
  obtain ⟨hne, hbare⟩ := hk
  have htake : (k ++ rest).takeWhile isBare = k := by
    rw [List.takeWhile_append_of_pos hbare]
    cases rest with
    | nil => simp
    | cons d rest => simp [hr d rfl]
  have hdrop : (k ++ rest).dropWhile isBare = rest := by
    rw [List.dropWhile_append_of_pos hbare]
    cases rest with
    | nil => simp
    | cons d rest => simp [hr d rfl]
  obtain ⟨c, cs, rfl⟩ := List.exists_cons_of_ne_nil hne
  have hc := hbare c List.mem_cons_self
  have hquote : c ≠ '"' := ne_of_isBare hc (by decide)
  have hmark : c ≠ '\'' := ne_of_isBare hc (by decide)
  have hsimple : simpleKey (c :: cs ++ rest) = some (c :: cs, rest) := by
    rw [List.cons_append, simpleKey, if_neg hquote, if_neg hmark, if_pos hc, ← List.cons_append,
      htake, hdrop]
  rw [key, hsimple, Option.bind_some, if_neg hdot]

/-- A key that reads as itself is bare: a quoted one is longer than what it says. -/
theorem key_self_iff (k : Key) : key (k.length + 1) k = some ([k], []) ↔ Bare k := by
  constructor
  · intro h
    rw [key] at h
    obtain ⟨⟨k', rest⟩, hsimple, h⟩ := Option.bind_eq_some_iff.mp h
    have hself : k' = k := by
      dsimp only at h
      split_ifs at h with hdot
      · obtain ⟨path, hpath, h⟩ := Option.map_eq_some_iff.mp h
        exact (List.cons_eq_cons.mp (Prod.mk.inj h).1).1
      · exact (List.cons_eq_cons.mp (Prod.mk.inj (Option.some.inj h)).1).1
    rw [hself] at hsimple
    cases k with
    | nil => simp [simpleKey] at hsimple
    | cons c cs =>
      rw [simpleKey] at hsimple
      split_ifs at hsimple with hquote hmark hbare
      · obtain ⟨t, rfl, ht, -⟩ := basicString_spells hsimple
        have hlen := ht.length
        simp only [List.length_append, List.length_cons] at hlen
        omega
      · have hlen := congrArg List.length (literalString_spells hsimple)
        simp only [List.length_append, List.length_cons] at hlen
        omega
      · have htake : (c :: cs).takeWhile isBare = c :: cs :=
          (Prod.mk.inj (Option.some.inj hsimple)).1
        exact ⟨by simp, fun d hd => List.takeWhile_eq_self_iff.mp htake d hd⟩
  · intro h
    have hk := key_bare h [] (by simp) (by simp [skipWs]) k.length
    simpa [skipWs] using hk

theorem endOfLine_newline (rest : List Char) : endOfLine ('\n' :: rest) = some (some rest) := by
  simpa [Idle, skipWs, comment] using endOfLine_line (List.not_mem_nil (a := '\n')) rest

/-- A key and its value on a line. -/
theorem Reads.keyval {k : Key} (hk : Bare k) {t : List Char} {v : Value}
    (ht : Yields t (some v)) :
    Reads (k ++ [' ', '=', ' '] ++ t ++ ['\n']) [.keyval [k] v] := by
  apply Reads.line (e := some (.keyval [k] v))
  intro rest
  obtain ⟨c, cs, rfl⟩ := List.exists_cons_of_ne_nil hk.1
  obtain ⟨d, ds, rfl, hd⟩ := ht.opens
  have hc := hk.2 c List.mem_cons_self
  have hws : isWs c = false := isWs_of_isBare hc
  have hdws : isWs d = false := by
    simp [isOpening] at hd
    exact hd.1.1.1.1
  have htext : c :: cs ++ [' ', '=', ' '] ++ d :: ds ++ '\n' :: rest =
      c :: cs ++ ' ' :: '=' :: ' ' :: (d :: ds ++ '\n' :: rest) := by
    simp
  have hskip : skipWs (c :: cs ++ ' ' :: '=' :: ' ' :: (d :: ds ++ '\n' :: rest)) =
      c :: (cs ++ ' ' :: '=' :: ' ' :: (d :: ds ++ '\n' :: rest)) := by
    rw [List.cons_append, skipWs_cons hws]
  have hspace : skipWs (' ' :: '=' :: ' ' :: (d :: ds ++ '\n' :: rest)) =
      '=' :: ' ' :: (d :: ds ++ '\n' :: rest) := by
    simp [skipWs, isWs]
  have hvalue : skipWs (' ' :: (d :: ds ++ '\n' :: rest)) = d :: ds ++ '\n' :: rest := by
    rw [skipWs, List.dropWhile_cons_of_pos (by decide), List.cons_append]
    exact skipWs_cons hdws _
  have hkey := key_bare hk (' ' :: '=' :: ' ' :: (d :: ds ++ '\n' :: rest))
    (by simp [isBare]) (by rw [hspace]; simp)
    (c :: cs ++ ' ' :: '=' :: ' ' :: (d :: ds ++ '\n' :: rest)).length
  have hv := ht.value_eq ((c :: cs ++ ' ' :: '=' :: ' ' :: (d :: ds ++ '\n' :: rest)).length + 1)
    ('\n' :: rest) (by simp; omega) (by simp [Ends, isTokenChar, isBare])
  have hline : ¬ (c = '#' ∨ c = '\n' ∨ c = '\r') := by
    have hsharp : c ≠ '#' := ne_of_isBare hc (by decide)
    have hnewline : c ≠ '\n' := ne_of_isBare hc (by decide)
    have hreturn : c ≠ '\r' := ne_of_isBare hc (by decide)
    simp [hsharp, hnewline, hreturn]
  rw [htext, hskip, expression, if_neg hline, if_neg (ne_of_isBare hc (by decide)),
    Toml.keyval, ← List.cons_append, hkey, Option.bind_some, hspace, List.head?_cons, if_pos rfl,
    List.tail_cons, hvalue, hv]
  simp [endOfLine_newline]

theorem Reads.header {k : Key} (hk : Bare k) :
    Reads ('[' :: (k ++ [']']) ++ ['\n']) [.table [k]] := by
  apply Reads.line (e := some (.table [k]))
  intro rest
  obtain ⟨c, cs, rfl⟩ := List.exists_cons_of_ne_nil hk.1
  have hc := hk.2 c List.mem_cons_self
  have htext : '[' :: (c :: cs ++ [']']) ++ '\n' :: rest =
      '[' :: (c :: cs ++ ']' :: '\n' :: rest) := by
    simp
  have hopen : skipWs ('[' :: (c :: cs ++ ']' :: '\n' :: rest)) =
      '[' :: (c :: cs ++ ']' :: '\n' :: rest) := skipWs_cons (by decide) _
  have hclose : skipWs (']' :: '\n' :: rest) = ']' :: '\n' :: rest := skipWs_cons (by decide) _
  have hkey := key_bare hk (']' :: '\n' :: rest) (by simp [isBare])
    (by rw [hclose]; simp) (c :: cs ++ ']' :: '\n' :: rest).length
  have hskip : skipWs (c :: cs ++ ']' :: '\n' :: rest) = c :: cs ++ ']' :: '\n' :: rest :=
    skipWs_cons (isWs_of_isBare hc) _
  have hhead : (c :: cs ++ ']' :: '\n' :: rest).head? ≠ some '[' :=
    fun he => ne_of_isBare hc (by decide) (Option.some.inj he)
  rw [htext, hopen, expression, if_neg (by decide), if_pos rfl, Toml.header, if_neg hhead, hskip,
    hkey, hclose]
  simp [endOfLine_newline]

theorem Reads.item {k : Key} (hk : Bare k) :
    Reads ('[' :: '[' :: (k ++ [']', ']']) ++ ['\n']) [.tables [k]] := by
  apply Reads.line (e := some (.tables [k]))
  intro rest
  obtain ⟨c, cs, rfl⟩ := List.exists_cons_of_ne_nil hk.1
  have hc := hk.2 c List.mem_cons_self
  have htext : '[' :: '[' :: (c :: cs ++ [']', ']']) ++ '\n' :: rest =
      '[' :: '[' :: (c :: cs ++ ']' :: ']' :: '\n' :: rest) := by
    simp
  have hopen : skipWs ('[' :: '[' :: (c :: cs ++ ']' :: ']' :: '\n' :: rest)) =
      '[' :: '[' :: (c :: cs ++ ']' :: ']' :: '\n' :: rest) := skipWs_cons (by decide) _
  have hclose : skipWs (']' :: ']' :: '\n' :: rest) = ']' :: ']' :: '\n' :: rest :=
    skipWs_cons (by decide) _
  have hkey := key_bare hk (']' :: ']' :: '\n' :: rest) (by simp [isBare])
    (by rw [hclose]; simp) ('[' :: (c :: cs ++ ']' :: ']' :: '\n' :: rest)).length
  have hskip : skipWs (c :: cs ++ ']' :: ']' :: '\n' :: rest) =
      c :: cs ++ ']' :: ']' :: '\n' :: rest := skipWs_cons (isWs_of_isBare hc) _
  rw [htext, hopen, expression, if_neg (by decide), if_pos rfl, Toml.header, List.head?_cons,
    if_pos rfl, List.tail_cons, hskip, hkey, hclose]
  simp [endOfLine_newline]

end Toml

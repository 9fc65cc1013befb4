import Mathlib.Data.List.Basic
import Mathlib.Data.List.Infix
import Mathlib.Data.List.TakeWhile

/-! A part of XML 1.0: a declaration, elements with attributes, character data and
references by the five predefined names. What is printed is read back. -/
namespace Xml

/-- Text and elements in the order of the document. -/
inductive Content where
  | nil
  | text (t : List Char) (next : Content)
  | element (name : List Char) (attributes : List (List Char × List Char))
      (children next : Content)
  deriving DecidableEq

def isSpace (c : Char) : Bool := c = ' ' || c = '\t' || c = '\n' || c = '\r'

/-- `Char` of the grammar. -/
def isChar (c : Char) : Bool :=
  c = '\t' || c = '\n' || c = '\r' || (32 ≤ c.toNat && c.toNat ≠ 0xFFFE && c.toNat ≠ 0xFFFF)

def isNameStart (c : Char) : Bool := c.isAlpha || c = '_' || c = ':'

def isNameChar (c : Char) : Bool := isNameStart c || c.isDigit || c = '-' || c = '.'

/-- Names of ASCII characters. -/
def isName (name : List Char) : Bool :=
  name.head?.any isNameStart && name.all isNameChar

def entity (name : List Char) : Option Char :=
  if name = ['a', 'm', 'p'] then some '&'
  else if name = ['l', 't'] then some '<'
  else if name = ['g', 't'] then some '>'
  else if name = ['q', 'u', 'o', 't'] then some '"'
  else if name = ['a', 'p', 'o', 's'] then some (Char.ofNat 39)
  else none

/-- References are resolved; the first argument is the name of the one being read. -/
def decode : Option (List Char) → List Char → Option (List Char)
  | none, [] => some []
  | some _, [] => none
  | none, c :: cs =>
    if c = '&' then decode (some []) cs
    else if isChar c && c ≠ '<' then (decode none cs).map (c :: ·)
    else none
  | some name, c :: cs =>
    if c = ';' then (entity name).bind fun d => (decode none cs).map (d :: ·)
    else decode (some (name ++ [c])) cs

def charData (raw : List Char) : Option (List Char) :=
  if [']', ']', '>'] <:+: raw then none else decode none raw

/-- White space in an attribute is read as a space. -/
def attributeValue (raw : List Char) : Option (List Char) :=
  decode none (raw.map fun c => if isSpace c then ' ' else c)

/-- What follows a given beginning. -/
def literal : List Char → List Char → Option (List Char)
  | [], cs => some cs
  | _ :: _, [] => none
  | p :: ps, c :: cs => if p = c then literal ps cs else none

/-- `name="value"` -/
def pair (cs : List Char) : Option ((List Char × List Char) × List Char) :=
  if isName (cs.takeWhile isNameChar) then
    (literal ['=', '"'] (cs.dropWhile isNameChar)).bind fun raw =>
      (attributeValue (raw.takeWhile (· ≠ '"'))).bind fun value =>
        (literal ['"'] (raw.dropWhile (· ≠ '"'))).map fun rest =>
          ((cs.takeWhile isNameChar, value), rest)
  else none

def attributes : Nat → List Char → Option (List (List Char × List Char) × List Char)
  | 0, _ => none
  | _ + 1, [] => none
  | n + 1, c :: cs =>
    if c = '>' then some ([], cs)
    else if isSpace c then
      (pair cs).bind fun a => (attributes n a.2).map fun r => (a.1 :: r.1, r.2)
    else none

/-- What stands between `<` and `>`; no attribute is given twice. -/
def tag (cs : List Char) :
    Option (List Char × List (List Char × List Char) × List Char) :=
  if isName (cs.takeWhile isNameChar) then
    (attributes cs.length (cs.dropWhile isNameChar)).bind fun r =>
      if (r.1.map Prod.fst).Nodup then some (cs.takeWhile isNameChar, r) else none
  else none

/-- Content up to the end or to the next closing tag. -/
def content : Nat → List Char → Option (Content × List Char)
  | 0, _ => none
  | _ + 1, [] => some (.nil, [])
  | n + 1, c :: cs =>
    if c = '<' then
      if (literal ['/'] cs).isSome then some (.nil, c :: cs)
      else
        (tag cs).bind fun t => (content n t.2.2).bind fun children =>
          (literal ('<' :: '/' :: t.1 ++ ['>']) children.2).bind fun rest =>
            (content n rest).map fun next => (.element t.1 t.2.1 children.1 next.1, next.2)
    else
      (charData ((c :: cs).takeWhile (· ≠ '<'))).bind fun t =>
        (content n ((c :: cs).dropWhile (· ≠ '<'))).map fun next => (.text t next.1, next.2)

/-- Every end of a line is read as one line feed. -/
def normalize : Bool → List Char → List Char
  | _, [] => []
  | afterReturn, c :: cs =>
    if c = '\r' then '\n' :: normalize true cs
    else if c = '\n' && afterReturn then normalize false cs
    else c :: normalize false cs

def declaration (cs : List Char) : Option (List Char) :=
  match literal ['<', '?', 'x', 'm', 'l', ' '] cs with
  | some rest => literal ['?', '>'] (rest.dropWhile (· ≠ '?'))
  | none => some cs

/-- The elements, when there is only white space between them. -/
def elements : Content → Option Content
  | .nil => some .nil
  | .text t next => if t.all isSpace then elements next else none
  | .element name attributes children next =>
    (elements next).map (.element name attributes children)

/-- The element that is the document. -/
def document (cs : List Char) : Option Content :=
  (declaration (normalize false cs)).bind fun cs =>
    (content (cs.length + 1) cs).bind fun r =>
      if r.2 = [] then
        (elements r.1).bind fun c =>
          match c with
          | .element name attributes children .nil =>
            some (.element name attributes children .nil)
          | _ => none
      else none

/-! Printing. -/

def escapeChar (c : Char) : List Char :=
  if c = '&' then ['&', 'a', 'm', 'p', ';']
  else if c = '<' then ['&', 'l', 't', ';']
  else if c = '>' then ['&', 'g', 't', ';']
  else if c = '"' then ['&', 'q', 'u', 'o', 't', ';']
  else if c = Char.ofNat 39 then ['&', 'a', 'p', 'o', 's', ';']
  else [c]

def escape (t : List Char) : List Char := t.flatMap escapeChar

def renderAttributes (as : List (List Char × List Char)) : List Char :=
  as.flatMap fun a => ' ' :: a.1 ++ '=' :: '"' :: escape a.2 ++ ['"']

def render : Content → List Char
  | .nil => []
  | .text t next => escape t ++ render next
  | .element name attributes children next =>
    '<' :: name ++ renderAttributes attributes ++ '>' :: render children ++
      '<' :: '/' :: name ++ '>' :: render next

/-- Characters that are read as they are. -/
def Clean (t : List Char) : Prop := ∀ c ∈ t, isChar c = true ∧ c ≠ '\r'

def CleanValue (t : List Char) : Prop := ∀ c ∈ t, isChar c = true ∧ (isSpace c = true → c = ' ')

/-- Text is not empty and not divided, names are names, and no attribute comes twice. -/
def Content.Valid : Content → Prop
  | .nil => True
  | .text t next => t ≠ [] ∧ Clean t ∧ (∀ s rest, next ≠ .text s rest) ∧ next.Valid
  | .element name attributes children next =>
    isName name = true ∧ (∀ a ∈ attributes, isName a.1 = true ∧ CleanValue a.2) ∧
      (attributes.map Prod.fst).Nodup ∧ children.Valid ∧ next.Valid

/-! Reading what was printed. -/

theorem literal_append (p cs : List Char) : literal p (p ++ cs) = some cs := by
  induction p with
  | nil => rfl
  | cons c p ih => rw [List.cons_append, literal, if_pos rfl, ih]

theorem decode_escapeChar {c : Char} (h : isChar c = true) (cs : List Char) :
    decode none (escapeChar c ++ cs) = (decode none cs).map (c :: ·) := by
  unfold escapeChar
  split
  · rename_i hc
    subst hc
    simp [decode, entity]
  · rename_i hamp
    split
    · rename_i hc
      subst hc
      simp [decode, entity]
    · rename_i hlt
      split
      · rename_i hc
        subst hc
        simp [decode, entity]
      · split
        · rename_i hc
          subst hc
          simp [decode, entity]
        · split
          · rename_i hc
            subst hc
            simp [decode, entity]
          · simp [decode, hamp, hlt, h]

theorem decode_escape {t : List Char} (h : ∀ c ∈ t, isChar c = true) :
    decode none (escape t) = some t := by
  induction t with
  | nil => rfl
  | cons c t ih =>
    rw [List.forall_mem_cons] at h
    rw [escape, List.flatMap_cons, decode_escapeChar h.1]
    exact congrArg (Option.map (c :: ·)) (ih h.2)

/-- The characters of references. -/
def referenceChars : List Char := ['&', 'a', 'm', 'p', ';', 'l', 't', 'g', 'q', 'u', 'o', 's']

theorem of_referenceChars {P : Char → Bool} (h : referenceChars.all P = true) {c : Char}
    (hc : c ∈ referenceChars) : P c = true :=
  List.all_eq_true.mp h c hc

/-- An escaped text has characters of the text that need no escape and those of references. -/
theorem mem_escape {t : List Char} {c : Char} (h : c ∈ escape t) :
    (c ∈ t ∧ c ≠ '<' ∧ c ≠ '>' ∧ c ≠ '"') ∨ c ∈ referenceChars := by
  obtain ⟨d, hd, hc⟩ := List.mem_flatMap.mp h
  unfold escapeChar at hc
  repeat' split at hc
  case isFalse hamp hlt hgt hquot hapos =>
    obtain rfl := List.mem_singleton.mp hc
    exact .inl ⟨hd, hlt, hgt, hquot⟩
  all_goals exact .inr (by revert hc; simp [referenceChars]; grind)

theorem escape_ne_nil {t : List Char} (h : t ≠ []) : escape t ≠ [] := by
  obtain ⟨c, t, rfl⟩ := List.exists_cons_of_ne_nil h
  rw [escape, List.flatMap_cons]
  refine List.append_ne_nil_of_left_ne_nil ?_ _
  unfold escapeChar
  repeat' split
  all_goals exact List.cons_ne_nil _ _

theorem charData_escape {t : List Char} (h : Clean t) : charData (escape t) = some t := by
  rw [charData, if_neg, decode_escape fun c hc => (h c hc).1]
  intro hinfix
  have hmem : '>' ∈ escape t := hinfix.subset (by simp)
  obtain ⟨-, -, hgt, -⟩ | href := mem_escape hmem
  · exact hgt rfl
  · exact absurd href (by decide)

theorem attributeValue_escape {t : List Char} (h : CleanValue t) :
    attributeValue (escape t) = some t := by
  have hmap : (escape t).map (fun c => if isSpace c then ' ' else c) = escape t := by
    refine (List.map_congr_left fun c hc => ?_).trans (List.map_id _)
    split
    · rename_i hspace
      obtain ⟨hmem, -⟩ | href := mem_escape hc
      · exact ((h c hmem).2 hspace).symm
      · have hnot := of_referenceChars (P := fun c => !isSpace c) (by decide) href
        simp [hspace] at hnot
    · rfl
  rw [attributeValue, hmap, decode_escape fun c hc => (h c hc).1]

theorem span_name {name : List Char} (h : isName name = true) (rest : List Char)
    (hrest : ∀ c ∈ rest.head?, isNameChar c = false) :
    (name ++ rest).takeWhile isNameChar = name ∧ (name ++ rest).dropWhile isNameChar = rest := by
  have hall : ∀ c ∈ name, isNameChar c = true := by
    rw [isName, Bool.and_eq_true, List.all_eq_true] at h
    exact h.2
  rw [List.takeWhile_append_of_pos hall, List.dropWhile_append_of_pos hall]
  cases rest with
  | nil => simp
  | cons c rest =>
    have hc : isNameChar c = false := hrest c (by simp)
    simp [hc]

theorem notName_eq : isNameChar '=' = false := by decide

theorem pair_render {a : List Char × List Char} (hname : isName a.1 = true)
    (hvalue : CleanValue a.2) (rest : List Char) :
    pair (a.1 ++ '=' :: '"' :: escape a.2 ++ '"' :: rest) = some (a, rest) := by
  have hspan := span_name hname ('=' :: '"' :: escape a.2 ++ '"' :: rest) (by simp [notName_eq])
  rw [List.append_assoc, List.cons_append, List.cons_append] at *
  have hquote : ∀ c ∈ escape a.2, decide (c ≠ '"') = true := by
    intro c hc
    obtain ⟨-, -, -, hq⟩ | href := mem_escape hc
    · exact decide_eq_true hq
    · exact of_referenceChars (P := fun c => decide (c ≠ '"')) (by decide) href
  rw [pair, hspan.1, hspan.2, if_pos hname]
  have hliteral := literal_append ['=', '"'] (escape a.2 ++ '"' :: rest)
  simp only [List.cons_append, List.nil_append] at hliteral
  rw [hliteral, Option.bind_some, List.takeWhile_append_of_pos hquote,
    List.dropWhile_append_of_pos hquote, List.takeWhile_cons_of_neg (by simp),
    List.dropWhile_cons_of_neg (by simp), List.append_nil, attributeValue_escape hvalue,
    Option.bind_some]
  rfl

theorem renderAttributes_cons (a : List Char × List Char) (as : List (List Char × List Char))
    (rest : List Char) : renderAttributes (a :: as) ++ rest =
      ' ' :: (a.1 ++ '=' :: '"' :: escape a.2 ++ '"' :: (renderAttributes as ++ rest)) := by
  simp [renderAttributes]

theorem attributes_render {as : List (List Char × List Char)}
    (h : ∀ a ∈ as, isName a.1 = true ∧ CleanValue a.2) (rest : List Char) {n : Nat}
    (hn : as.length < n) :
    attributes n (renderAttributes as ++ '>' :: rest) = some (as, rest) := by
  induction as generalizing n with
  | nil =>
    cases n with
    | zero => omega
    | succ n => rfl
  | cons a as ih =>
    rw [List.forall_mem_cons] at h
    cases n with
    | zero => omega
    | succ n =>
      have hn : as.length < n := by simpa using hn
      rw [renderAttributes_cons, attributes, if_neg (by decide), if_pos (by decide),
        pair_render h.1.1 h.1.2, Option.bind_some, ih h.2 hn]
      rfl

theorem length_renderAttributes (as : List (List Char × List Char)) :
    as.length ≤ (renderAttributes as).length := by
  induction as with
  | nil => exact Nat.le_refl 0
  | cons a as ih =>
    have hcons := renderAttributes_cons a as []
    rw [List.append_nil] at hcons
    rw [hcons]
    simp only [List.length_cons, List.length_append, List.append_nil]
    omega

theorem tag_render {name : List Char} {as : List (List Char × List Char)}
    (hname : isName name = true) (h : ∀ a ∈ as, isName a.1 = true ∧ CleanValue a.2)
    (hnodup : (as.map Prod.fst).Nodup) (rest : List Char) :
    tag (name ++ renderAttributes as ++ '>' :: rest) = some (name, as, rest) := by
  have hstop : ∀ c ∈ (renderAttributes as ++ '>' :: rest).head?, isNameChar c = false := by
    intro c hc
    cases as with
    | nil =>
      obtain rfl : '>' = c := by simpa [renderAttributes] using hc
      decide
    | cons a as =>
      rw [renderAttributes_cons] at hc
      obtain rfl : ' ' = c := by simpa using hc
      decide
  have hspan := span_name hname _ hstop
  have hlen := length_renderAttributes as
  rw [List.append_assoc, tag, hspan.1, hspan.2, if_pos hname, attributes_render h rest,
    Option.bind_some, if_pos hnodup]
  simp only [List.length_append, List.length_cons]
  omega

/-- At least the turns that reading takes. -/
def Content.size : Content → Nat
  | .nil => 1
  | .text _ next => next.size + 1
  | .element _ _ children next => children.size + next.size + 1

/-- Content ends where the text ends or a closing tag begins. -/
def Ends (rest : List Char) : Prop := rest = [] ∨ ∃ r, rest = '<' :: '/' :: r

theorem takeWhile_text {t rest : List Char} (hrest : ∀ c ∈ rest.head?, c = '<') :
    (escape t ++ rest).takeWhile (· ≠ '<') = escape t ∧
      (escape t ++ rest).dropWhile (· ≠ '<') = rest := by
  have hall : ∀ c ∈ escape t, decide (c ≠ '<') = true := by
    intro c hc
    obtain ⟨-, hlt, -⟩ | href := mem_escape hc
    · exact decide_eq_true hlt
    · exact of_referenceChars (P := fun c => decide (c ≠ '<')) (by decide) href
  rw [List.takeWhile_append_of_pos hall, List.dropWhile_append_of_pos hall]
  cases rest with
  | nil => simp
  | cons c rest =>
    obtain rfl : c = '<' := hrest c (by simp)
    simp

theorem head_render {c : Content} (h : ∀ s next, c ≠ .text s next) {rest : List Char}
    (hrest : Ends rest) : ∀ d ∈ (render c ++ rest).head?, d = '<' := by
  intro d hd
  cases c with
  | nil =>
    obtain rfl | ⟨r, rfl⟩ := hrest
    · simp [render] at hd
    · simpa [render, eq_comm] using hd
  | text s next => exact absurd rfl (h s next)
  | element name as children next => simpa [render, eq_comm] using hd

/-- What was printed is read, whatever closing tag comes after it. -/
theorem content_render {c : Content} (h : c.Valid) {n : Nat} (hn : c.size ≤ n)
    {rest : List Char} (hrest : Ends rest) : content n (render c ++ rest) = some (c, rest) := by
  induction c generalizing n rest with
  | nil =>
    cases n with
    | zero => simp [Content.size] at hn
    | succ n =>
      obtain rfl | ⟨r, rfl⟩ := hrest
      · rfl
      · rfl
  | text t next ih =>
    obtain ⟨hne, hclean, hsolid, hnext⟩ := h
    cases n with
    | zero => simp [Content.size] at hn
    | succ n =>
      have hspan := takeWhile_text (t := t) (head_render hsolid hrest)
      obtain ⟨d, ds, hd⟩ := List.exists_cons_of_ne_nil (escape_ne_nil hne)
      have hfirst : d ≠ '<' := by
        obtain ⟨-, hlt, -⟩ | href := mem_escape (hd ▸ List.mem_cons_self : d ∈ escape t)
        · exact hlt
        · exact of_decide_eq_true
            (of_referenceChars (P := fun c => decide (c ≠ '<')) (by decide) href)
      have hn : next.size ≤ n := by
        rw [Content.size] at hn
        omega
      rw [render, List.append_assoc]
      rw [hd, List.cons_append] at hspan ⊢
      rw [content, if_neg hfirst, hspan.1, hspan.2, ← hd, charData_escape hclean,
        Option.bind_some, ih hnext hn hrest]
      rfl
  | element name as children next ihc ihn =>
    obtain ⟨hname, has, hnodup, hchildren, hnext⟩ := h
    cases n with
    | zero => simp [Content.size] at hn
    | succ n =>
      rw [Content.size] at hn
      have htext : render (.element name as children next) ++ rest =
          '<' :: (name ++ renderAttributes as ++ '>' :: (render children ++
            '<' :: '/' :: (name ++ '>' :: (render next ++ rest)))) := by
        simp [render]
      have hopen : (literal ['/'] (name ++ renderAttributes as ++ '>' :: (render children ++
          '<' :: '/' :: (name ++ '>' :: (render next ++ rest))))).isSome = false := by
        obtain ⟨d, ds, rfl⟩ := List.exists_cons_of_ne_nil (l := name) (by
          rintro rfl
          simp [isName] at hname)
        have hd : '/' ≠ d := by
          rintro rfl
          simp [isName, isNameStart] at hname
        simp [literal, hd]
      have hclose := literal_append ('<' :: '/' :: name ++ ['>']) (render next ++ rest)
      rw [htext, content, if_pos rfl, if_neg (by rw [hopen]; exact Bool.false_ne_true),
        tag_render hname has hnodup, Option.bind_some, ihc hchildren (by omega) (.inr ⟨_, rfl⟩),
        Option.bind_some]
      simp only [List.append_assoc, List.cons_append, List.nil_append] at hclose ⊢
      rw [hclose, Option.bind_some, ihn hnext (by omega) hrest]
      rfl

theorem normalize_eq {cs : List Char} (h : '\r' ∉ cs) : normalize false cs = cs := by
  induction cs with
  | nil => rfl
  | cons c cs ih =>
    rw [List.mem_cons, not_or] at h
    simp [normalize, Ne.symm h.1, ih h.2]

theorem noReturn_escape {t : List Char} (h : '\r' ∉ t) : '\r' ∉ escape t := by
  intro hc
  obtain ⟨hmem, -⟩ | href := mem_escape hc
  · exact h hmem
  · exact absurd href (by decide)

theorem noReturn_name {name : List Char} (h : isName name = true) : '\r' ∉ name := by
  intro hc
  rw [isName, Bool.and_eq_true, List.all_eq_true] at h
  exact absurd (h.2 _ hc) (by decide)

theorem noReturn_renderAttributes {as : List (List Char × List Char)}
    (h : ∀ a ∈ as, isName a.1 = true ∧ CleanValue a.2) : '\r' ∉ renderAttributes as := by
  intro hc
  obtain ⟨a, ha, hc⟩ := List.mem_flatMap.mp hc
  have hvalue : '\r' ∉ a.2 := fun hr => absurd ((h a ha).2 _ hr).2 (by decide)
  have hname := noReturn_name (h a ha).1
  simp [hname, noReturn_escape hvalue] at hc

theorem noReturn_render {c : Content} (h : c.Valid) : '\r' ∉ render c := by
  induction c with
  | nil => exact List.not_mem_nil
  | text t next ih =>
    obtain ⟨-, hclean, -, hnext⟩ := h
    have ht : '\r' ∉ t := fun hr => (hclean _ hr).2 rfl
    simp [render, noReturn_escape ht, ih hnext]
  | element name as children next ihc ihn =>
    obtain ⟨hname, has, -, hchildren, hnext⟩ := h
    simp [render, noReturn_name hname, noReturn_renderAttributes has, ihc hchildren, ihn hnext]

theorem declaration_append {header : List Char} (h : '?' ∉ header) (cs : List Char) :
    declaration (['<', '?', 'x', 'm', 'l', ' '] ++ header ++ ['?', '>'] ++ cs) = some cs := by
  have hall : ∀ c ∈ header, decide (c ≠ '?') = true := fun c hc =>
    decide_eq_true fun hq => h (hq ▸ hc)
  rw [declaration, List.append_assoc, List.append_assoc, literal_append]
  dsimp only
  rw [List.dropWhile_append_of_pos hall, List.cons_append,
    List.dropWhile_cons_of_neg (by simp), ← List.cons_append]
  exact literal_append ['?', '>'] cs

theorem size_le_length {c : Content} (h : c.Valid) : c.size ≤ (render c).length + 1 := by
  induction c with
  | nil => exact Nat.le_refl 1
  | text t next ih =>
    obtain ⟨hne, -, -, hnext⟩ := h
    have hlen := List.length_pos_iff.mpr (escape_ne_nil hne)
    have := ih hnext
    rw [Content.size, render, List.length_append]
    omega
  | element name as children next ihc ihn =>
    obtain ⟨-, -, -, hchildren, hnext⟩ := h
    have := ihc hchildren
    have := ihn hnext
    rw [Content.size, render]
    simp only [List.length_append, List.length_cons]
    omega

/-- A document that was printed after a declaration is read as the element it has. -/
theorem document_render {header : List Char} (hheader : '?' ∉ header ∧ '\r' ∉ header)
    {c : Content} (h : c.Valid) {name : List Char} {as : List (List Char × List Char)}
    {children : Content} (hroot : elements c = some (.element name as children .nil)) :
    document (['<', '?', 'x', 'm', 'l', ' '] ++ header ++ ['?', '>'] ++ render c) =
      some (.element name as children .nil) := by
  have hreturn :
      '\r' ∉ ['<', '?', 'x', 'm', 'l', ' '] ++ header ++ ['?', '>'] ++ render c := by
    simp [hheader.2, noReturn_render h]
  have hread := content_render h (size_le_length h) (.inl rfl)
  rw [List.append_nil] at hread
  rw [document, normalize_eq hreturn, declaration_append hheader.1, Option.bind_some, hread,
    Option.bind_some, if_pos rfl, hroot]
  rfl

/-! Elements on lines of their own. -/

structure Element where
  name : List Char
  attributes : List (List Char × List Char)
  children : Content

def Element.Valid (e : Element) : Prop :=
  isName e.name = true ∧ (∀ a ∈ e.attributes, isName a.1 = true ∧ CleanValue a.2) ∧
    (e.attributes.map Prod.fst).Nodup ∧ e.children.Valid

/-- The elements on one level. -/
def Content.siblings : Content → List Element
  | .nil => []
  | .text _ next => next.siblings
  | .element name attributes children next => ⟨name, attributes, children⟩ :: next.siblings

/-- The text on one level. -/
def Content.string : Content → List Char
  | .nil => []
  | .text t next => t ++ next.string
  | .element _ _ _ next => next.string

def spaces (n : Nat) : List Char := List.replicate n ' '

def leaf (t : List Char) : Content := if t = [] then .nil else .text t .nil

/-- Elements two steps in, and then the line of the closing tag. -/
def onLines (indent : Nat) : List Element → Content
  | [] => .text ('\n' :: spaces indent) .nil
  | e :: es =>
    .text ('\n' :: spaces (indent + 2))
      (.element e.name e.attributes e.children (onLines indent es))

def line (indent : Nat) (e : Element) : List Char :=
  spaces indent ++ '<' :: e.name ++ renderAttributes e.attributes ++ '>' :: render e.children ++
    '<' :: '/' :: e.name ++ ['>', '\n']

theorem escape_eq {t : List Char} (h : ∀ c ∈ t, escapeChar c = [c]) : escape t = t := by
  induction t with
  | nil => rfl
  | cons c t ih =>
    rw [List.forall_mem_cons] at h
    rw [escape, List.flatMap_cons, h.1]
    exact congrArg (c :: ·) (ih h.2)

theorem escape_indent (n : Nat) : escape ('\n' :: spaces n) = '\n' :: spaces n := by
  refine escape_eq (List.forall_mem_cons.mpr ⟨by decide, fun c hc => ?_⟩)
  obtain rfl := List.eq_of_mem_replicate hc
  decide

theorem clean_of_all {t : List Char}
    (h : t.all (fun c => isChar c && decide (c ≠ '\r')) = true) : Clean t := fun c hc => by
  simpa using List.all_eq_true.mp h c hc

theorem clean_indent (n : Nat) : Clean ('\n' :: spaces n) := by
  refine List.forall_mem_cons.mpr ⟨by decide, fun c hc => ?_⟩
  obtain rfl := List.eq_of_mem_replicate hc
  decide

@[simp] theorem siblings_onLines (indent : Nat) (es : List Element) :
    (onLines indent es).siblings = es := by
  induction es with
  | nil => rfl
  | cons e es ih => rw [onLines, Content.siblings, Content.siblings, ih]

@[simp] theorem string_leaf (t : List Char) : (leaf t).string = t := by
  unfold leaf
  split
  · rename_i h
    exact h.symm
  · exact List.append_nil t

theorem render_leaf (t : List Char) : render (leaf t) = escape t := by
  unfold leaf
  split
  · rename_i h
    rw [h]
    rfl
  · exact List.append_nil (escape t)

theorem render_onLines (indent : Nat) (es : List Element) :
    render (onLines indent es) =
      '\n' :: (es.flatMap (line (indent + 2)) ++ spaces indent) := by
  induction es with
  | nil => rw [onLines, render, escape_indent, render, List.append_nil]; rfl
  | cons e es ih =>
    rw [onLines, render, render, ih, escape_indent]
    simp [line]

theorem line_plain (indent : Nat) (name : List Char) (children : Content) :
    line indent ⟨name, [], children⟩ =
      spaces indent ++ '<' :: name ++ '>' :: render children ++ '<' :: '/' :: name ++
        ['>', '\n'] := by
  rw [line, renderAttributes, List.flatMap_nil, List.append_nil]

theorem valid_leaf {t : List Char} (h : Clean t) : (leaf t).Valid := by
  unfold leaf
  split
  · exact trivial
  · rename_i hne
    exact ⟨hne, h, fun s rest hnil => Content.noConfusion hnil, trivial⟩

theorem valid_onLines (indent : Nat) {es : List Element} (h : ∀ e ∈ es, e.Valid) :
    (onLines indent es).Valid := by
  induction es with
  | nil =>
    exact ⟨List.cons_ne_nil _ _, clean_indent indent,
      fun s rest hnil => Content.noConfusion hnil, trivial⟩
  | cons e es ih =>
    obtain ⟨he, hes⟩ := List.forall_mem_cons.mp h
    obtain ⟨hname, has, hnodup, hchildren⟩ := he
    exact ⟨List.cons_ne_nil _ _, clean_indent (indent + 2),
      fun s rest htext => Content.noConfusion htext, hname, has, hnodup, hchildren, ih hes⟩

end Xml

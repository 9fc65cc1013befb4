import Mathlib.Data.List.Basic
import SignalK.Lib.Text

/-! Texts and bytes read line by line: the place of a separator, lines, words. -/
namespace Lines
open Text

section find

variable {α : Type*}

/-- Lines and the separator between two of them. -/
def joined (cr lf : α) (ls : List (List α)) : List α :=
  [cr, lf].intercalate ls

variable {cr lf : α}

@[simp] theorem joined_singleton (l : List α) : joined cr lf [l] = l := by
  simp [joined]

theorem joined_cons_cons (l m : List α) (ls : List (List α)) :
    joined cr lf (l :: m :: ls) = l ++ cr :: lf :: joined cr lf (m :: ls) := by
  simp [joined, List.intercalate_cons_cons]

theorem exists_joined (l : List α) (ls : List (List α)) :
    ∃ t, joined cr lf (l :: ls) = l ++ t := by
  cases ls with
  | nil => exact ⟨[], by rw [joined_singleton, List.append_nil]⟩
  | cons m ls => exact ⟨_, joined_cons_cons l m ls⟩

variable [DecidableEq α]

/-- The place where `sep` is found first. -/
def find (sep : List α) : List α → Option Nat
  | [] => if sep = [] then some 0 else none
  | a :: l => if sep <+: a :: l then some 0 else (find sep l).map (· + 1)

theorem find_cons_of_ne {a b : α} {sep l : List α} (h : a ≠ b) :
    find (a :: sep) (b :: l) = (find (a :: sep) l).map (· + 1) := by
  have hpre : ¬ a :: sep <+: b :: l := fun hp => h (List.cons_prefix_cons.mp hp).1
  rw [find, if_neg hpre]

theorem find_append_of_notMem {a : α} {sep l : List α} (h : a ∉ l) (r : List α) :
    find (a :: sep) (l ++ r) = (find (a :: sep) r).map (· + l.length) := by
  induction l with
  | nil => simp
  | cons b l ih =>
    have hb : a ≠ b := fun he => h (he ▸ List.mem_cons_self)
    rw [List.cons_append, find_cons_of_ne hb, ih fun hm => h (List.mem_cons_of_mem b hm),
      Option.map_map, List.length_cons]
    rfl

/-- Two line ends are first found after the last line, when no line is empty. -/
theorem find_joined (hne : cr ≠ lf) {l : List α} {ls : List (List α)}
    (hcr : ∀ m ∈ l :: ls, cr ∉ m) (hempty : ∀ m ∈ ls, m ≠ []) (r : List α) :
    find [cr, lf, cr, lf] (joined cr lf (l :: ls) ++ cr :: lf :: cr :: lf :: r) =
      some (joined cr lf (l :: ls)).length := by
  induction ls generalizing l with
  | nil =>
    rw [joined_singleton, find_append_of_notMem (hcr l List.mem_cons_self), find,
      if_pos ⟨r, rfl⟩, Option.map_some, Nat.zero_add]
  | cons m ls ih =>
    have hm := ih (fun n hn => hcr n (List.mem_cons_of_mem l hn))
      fun n hn => hempty n (List.mem_cons_of_mem m hn)
    obtain ⟨c, m', hc⟩ := List.exists_cons_of_ne_nil (hempty m List.mem_cons_self)
    have hne' : cr ≠ c := by
      intro he
      exact hcr m (List.mem_cons_of_mem l List.mem_cons_self) (by rw [hc, he]; simp)
    obtain ⟨t, ht⟩ : ∃ t, joined cr lf (m :: ls) = m ++ t := exists_joined m ls
    have hpre : ¬ [cr, lf, cr, lf] <+: cr :: lf :: (joined cr lf (m :: ls) ++
        cr :: lf :: cr :: lf :: r) := by
      intro hp
      rw [ht, hc] at hp
      simp only [List.cons_append, List.cons_prefix_cons, true_and] at hp
      exact hne' hp.1
    rw [joined_cons_cons, List.append_assoc, find_append_of_notMem (hcr l List.mem_cons_self),
      List.cons_append, List.cons_append, find, if_neg hpre, find_cons_of_ne hne, hm]
    simp only [Option.map_some, List.length_append, List.length_cons]
    congr 1
    omega

end find

/-! Lines. -/

/-- A carriage return before the end of the line is not part of it. -/
def stripCr (line : List Char) : List Char :=
  if line.getLast? = some '\r' then line.dropLast else line

theorem stripCr_prefix (line : List Char) : stripCr line <+: line := by
  rw [stripCr]
  split_ifs
  · exact List.dropLast_prefix line
  · exact List.prefix_refl line

/-- What is left of a text of which `line` has been read. -/
def linesFrom (line : List Char) : List Char → List (List Char)
  | [] => if line = [] then [] else [line]
  | c :: cs => if c = '\n' then stripCr line :: linesFrom [] cs else linesFrom (line ++ [c]) cs

/-- `s.lines()` -/
def lines : List Char → List (List Char) :=
  linesFrom []

theorem linesFrom_append {l : List Char} (h : '\n' ∉ l) (line cs : List Char) :
    linesFrom line (l ++ cs) = linesFrom (line ++ l) cs := by
  induction l generalizing line with
  | nil => simp
  | cons c l ih =>
    have hc : c ≠ '\n' := fun he => h (he ▸ List.mem_cons_self)
    rw [List.cons_append, linesFrom, if_neg hc, ih fun hm => h (List.mem_cons_of_mem c hm)]
    simp

theorem lines_cons {l : List Char} (h : '\n' ∉ l) (cs : List Char) :
    lines (l ++ '\r' :: '\n' :: cs) = l :: lines cs := by
  have hstrip : stripCr (l ++ ['\r']) = l := by simp [stripCr]
  rw [lines, linesFrom_append h, List.nil_append, linesFrom, if_neg (by decide), linesFrom,
    if_pos rfl, hstrip]

/-- The lines that were joined. -/
theorem lines_joined {l : List Char} {ls : List (List Char)} (h : ∀ m ∈ l :: ls, '\n' ∉ m)
    (hempty : ∀ m ∈ l :: ls, m ≠ []) : lines (joined '\r' '\n' (l :: ls)) = l :: ls := by
  induction ls generalizing l with
  | nil =>
    have hl := linesFrom_append (h l List.mem_cons_self) [] []
    rw [List.append_nil, List.nil_append, linesFrom, if_neg (hempty l List.mem_cons_self)] at hl
    rw [joined_singleton]
    exact hl
  | cons m ls ih =>
    rw [joined_cons_cons, lines_cons (h l List.mem_cons_self),
      ih (fun n hn => h n (List.mem_cons_of_mem l hn))
        fun n hn => hempty n (List.mem_cons_of_mem l hn)]

/-- The first line of a text that begins with one. -/
theorem head_lines_joined {l : List Char} {ls : List (List Char)} (h : '\n' ∉ l)
    (cs : List Char) :
    (lines (joined '\r' '\n' (l :: ls) ++ '\r' :: '\n' :: cs)).head? = some l := by
  cases ls with
  | nil => rw [joined_singleton, lines_cons h, List.head?_cons]
  | cons m ls =>
    rw [joined_cons_cons, List.append_assoc, List.cons_append, List.cons_append, lines_cons h,
      List.head?_cons]

/-! Words. -/

def wordsFrom (word : List Char) : List Char → List (List Char)
  | [] => if word = [] then [] else [word]
  | c :: cs =>
    if isWhitespace c then
      if word = [] then wordsFrom [] cs else word :: wordsFrom [] cs
    else wordsFrom (word ++ [c]) cs

/-- `s.split_whitespace()` -/
def splitWhitespace : List Char → List (List Char) :=
  wordsFrom []

theorem wordsFrom_append {w : List Char} (h : ∀ c ∈ w, isWhitespace c = false)
    (word cs : List Char) : wordsFrom word (w ++ cs) = wordsFrom (word ++ w) cs := by
  induction w generalizing word with
  | nil => simp
  | cons c w ih =>
    rw [List.cons_append, wordsFrom, h c List.mem_cons_self, if_neg (by decide),
      ih fun d hd => h d (List.mem_cons_of_mem c hd)]
    simp

theorem splitWhitespace_cons {w : List Char} (h : ∀ c ∈ w, isWhitespace c = false) (hne : w ≠ [])
    {c : Char} (hc : isWhitespace c = true) (cs : List Char) :
    splitWhitespace (w ++ c :: cs) = w :: splitWhitespace cs := by
  rw [splitWhitespace, wordsFrom_append h, List.nil_append, wordsFrom, if_pos hc, if_neg hne]

/-! One place to cut. -/

/-- `s.split_once(c).map(|x| x.1)` -/
def after (c : Char) : List Char → Option (List Char)
  | [] => none
  | d :: cs => if d = c then some cs else after c cs

theorem after_append {c : Char} {l : List Char} (h : c ∉ l) (cs : List Char) :
    after c (l ++ c :: cs) = some cs := by
  induction l with
  | nil => rw [List.nil_append, after, if_pos rfl]
  | cons d l ih =>
    have hd : d ≠ c := fun he => h (he ▸ List.mem_cons_self)
    rw [List.cons_append, after, if_neg hd, ih fun hm => h (List.mem_cons_of_mem d hm)]

/-- A word and its separator begin a text whose first word it is. -/
theorem prefix_separator_iff {c : Char} {w v : List Char} (hw : c ∉ w) (hv : c ∉ v)
    (cs : List Char) : w ++ [c] <+: v ++ c :: cs ↔ v = w := by
  constructor
  · rintro ⟨t, ht⟩
    rw [List.append_assoc] at ht
    rcases cut_eq_cut_iff.mp ht with ⟨heq, -⟩ | ⟨mid, heq, -⟩ | ⟨mid, heq, -⟩
    · exact heq.symm
    · exact absurd (by rw [heq]; simp) hv
    · exact absurd (by rw [heq]; simp) hw
  · rintro rfl
    exact ⟨cs, by simp⟩

/-- Whitespace around a text that neither begins nor ends with it is trimmed. -/
theorem trim_padded {a l b : List Char} (ha : ∀ c ∈ a, isWhitespace c = true)
    (hb : ∀ c ∈ b, isWhitespace c = true) (hne : l ≠ [])
    (hfirst : ∀ c ∈ l.head?, isWhitespace c = false)
    (hlast : ∀ c ∈ l.getLast?, isWhitespace c = false) : trim (a ++ l ++ b) = l := by
  have hstart : (a ++ (l ++ b)).dropWhile isWhitespace = l ++ b := by
    obtain ⟨c, l', hl⟩ := List.exists_cons_of_ne_nil hne
    rw [List.dropWhile_append_of_pos ha, hl, List.cons_append, List.dropWhile_cons_of_neg]
    simp [hfirst c (by rw [hl]; rfl)]
  have hend : (b.reverse ++ l.reverse).dropWhile isWhitespace = l.reverse := by
    have hrev : l.reverse ≠ [] := fun he => hne (List.reverse_eq_nil_iff.mp he)
    obtain ⟨c, l', hl⟩ := List.exists_cons_of_ne_nil hrev
    have hc : isWhitespace c = false := by
      apply hlast
      rw [← List.head?_reverse, hl]
      rfl
    rw [List.dropWhile_append_of_pos (fun d hd => hb d (List.mem_reverse.mp hd)), hl,
      List.dropWhile_cons_of_neg (by simp [hc])]
  rw [trim, List.append_assoc, hstart, List.reverse_append, hend, List.reverse_reverse]

example : splitWhitespace "HTTP/1.1  204 No Content".toList =
    ["HTTP/1.1".toList, "204".toList, "No".toList, "Content".toList] := by
  decide

end Lines

import Mathlib.Data.String.Basic

/-! The string operations of a systems language on Lean strings, each reduced to
the list of characters so that it computes in the kernel. -/
namespace Text

/-- `s.split(c).collect()`: always at least one piece, empty pieces kept. -/
def split (c : Char) (s : String) : List String :=
  (s.toList.splitOn c).map String.ofList

/-- `parts.join(c)` for a one-character separator. -/
def join (c : Char) (parts : List String) : String :=
  String.ofList ([c].intercalate (parts.map String.toList))

def startsWith (s p : String) : Bool :=
  p.toList.isPrefixOf s.toList

def endsWith (s p : String) : Bool :=
  p.toList.isSuffixOf s.toList

def stripPrefix (s p : String) : Option String :=
  if startsWith s p then some (String.ofList (s.toList.drop p.toList.length)) else none

theorem join_split (c : Char) (s : String) : join c (split c s) = s := by
  have h : (String.toList ∘ String.ofList) = id := by
    funext l
    simp
  simp [join, split, h, List.intercalate_splitOn]

theorem join_cons_cons (c : Char) (a b : String) (l : List String) :
    join c (a :: b :: l) = join c ((a ++ String.singleton c ++ b) :: l) := by
  cases l with
  | nil => simp [join, List.intercalate]
  | cons d l => simp [join, List.intercalate]

theorem split_injective (c : Char) : Function.Injective (split c) := by
  intro s t h
  rw [← join_split c s, h, join_split]

theorem split_ne_nil (c : Char) (s : String) : split c s ≠ [] := by
  simp [split, List.splitOn_ne_nil]

theorem startsWith_iff (s p : String) : startsWith s p = true ↔ ∃ r, s = p ++ r := by
  simp only [startsWith, List.isPrefixOf_iff_prefix]
  constructor
  · rintro ⟨r, hr⟩
    refine ⟨String.ofList r, ?_⟩
    rw [← String.toList_inj]
    simpa using hr.symm
  · rintro ⟨r, rfl⟩
    simp

@[simp] theorem startsWith_append (p r : String) : startsWith (p ++ r) p = true :=
  (startsWith_iff _ _).mpr ⟨r, rfl⟩

@[simp] theorem stripPrefix_append (p r : String) : stripPrefix (p ++ r) p = some r := by
  simp [stripPrefix]

/-- Joining is undone unless a piece contains the separator. -/
theorem split_join {c : Char} {parts : List String} (h : ∀ part ∈ parts, c ∉ part.toList)
    (hne : parts ≠ []) : split c (join c parts) = parts := by
  have hparts : ∀ l ∈ parts.map String.toList, c ∉ l := by
    intro l hl
    obtain ⟨part, hpart, rfl⟩ := List.mem_map.mp hl
    exact h part hpart
  rw [split, join, String.toList_ofList, List.splitOn_intercalate c hparts (by simpa using hne)]
  simp [Function.comp_def]

theorem notMem_of_mem_splitOn {c : Char} {cs l : List Char} (h : l ∈ cs.splitOn c) : c ∉ l := by
  induction cs generalizing l with
  | nil =>
    rw [List.splitOn_nil, List.mem_singleton] at h
    simp [h]
  | cons d cs ih =>
    rw [List.splitOn_cons_eq_if_modifyHead] at h
    by_cases hd : (d == c) = true
    · rw [if_pos hd] at h
      rcases List.mem_cons.mp h with rfl | h
      · simp
      · exact ih h
    · obtain ⟨first, rest, hcs⟩ := List.exists_cons_of_ne_nil (List.splitOn_ne_nil c cs)
      have hne : c ≠ d := fun he => hd (by simp [he])
      rw [if_neg hd, hcs, List.modifyHead_cons] at h
      rcases List.mem_cons.mp h with rfl | h
      · have hfirst : c ∉ first := ih (by simp [hcs])
        simp [hne, hfirst]
      · exact ih (by simp [hcs, h])

/-- No piece contains the separator. -/
theorem notMem_of_mem_split {c : Char} {s part : String} (h : part ∈ split c s) :
    c ∉ part.toList := by
  obtain ⟨l, hl, rfl⟩ := List.mem_map.mp h
  simpa using notMem_of_mem_splitOn hl

/-- What comes before a text without separators is added to its first piece. -/
theorem split_append {c : Char} {a : String} (h : c ∉ a.toList) (b : String) :
    ∃ first rest, split c b = first :: rest ∧ split c (a ++ b) = (a ++ first) :: rest := by
  have hlist : ∀ cs ds : List Char, c ∉ cs → ∃ first rest,
      ds.splitOn c = first :: rest ∧ (cs ++ ds).splitOn c = (cs ++ first) :: rest := by
    intro cs ds hcs
    induction cs with
    | nil =>
      obtain ⟨first, rest, hds⟩ := List.exists_cons_of_ne_nil (List.splitOn_ne_nil c ds)
      exact ⟨first, rest, hds, hds⟩
    | cons d cs ih =>
      obtain ⟨first, rest, hds, hcs'⟩ := ih fun hm => hcs (List.mem_cons_of_mem d hm)
      have hd : ¬(d == c) = true := by
        rw [beq_iff_eq]
        exact fun he => hcs (he ▸ List.mem_cons_self)
      refine ⟨first, rest, hds, ?_⟩
      rw [List.cons_append, List.splitOn_cons_eq_if_modifyHead, if_neg hd, hcs']
      rfl
  obtain ⟨first, rest, hb, hab⟩ := hlist a.toList b.toList h
  refine ⟨String.ofList first, rest.map String.ofList, by rw [split, hb, List.map_cons], ?_⟩
  rw [split, String.toList_append, hab, List.map_cons, String.ofList_append, String.ofList_toList]

theorem split_append_separator (c : Char) (a b : String) :
    split c (a ++ String.singleton c ++ b) = split c a ++ split c b := by
  rw [split, String.toList_append, String.toList_append, List.append_assoc]
  simp only [String.toList_singleton, List.singleton_append]
  rw [List.splitOn_append_cons_self, List.map_append]
  rfl

/-- `s.replace(a, b)` for single characters. -/
def replace (a b : Char) (s : String) : String :=
  String.ofList (s.toList.map fun c => if c = a then b else c)

theorem replace_eq_empty {a b : Char} {s : String} : replace a b s = "" ↔ s = "" := by
  constructor
  · intro h
    have hlist := congrArg String.toList h
    simpa [replace] using hlist
  · rintro rfl
    rfl

theorem map_replace {a b : Char} {cs : List Char} (h : a ∉ cs) :
    cs.map (fun c => if c = a then b else c) = cs := by
  induction cs with
  | nil => rfl
  | cons c cs ih =>
    have hc : c ≠ a := fun he => h (he ▸ List.mem_cons_self)
    rw [List.map_cons, if_neg hc, ih fun hm => h (List.mem_cons_of_mem c hm)]

/-- The separators are replaced, and they alone. -/
theorem replace_join {a b : Char} {parts : List String} (h : ∀ part ∈ parts, a ∉ part.toList) :
    replace a b (join a parts) = join b parts := by
  induction parts with
  | nil => rfl
  | cons part parts ih =>
    have hpart := map_replace (b := b) (h part List.mem_cons_self)
    have hrest := ih fun p hp => h p (List.mem_cons_of_mem part hp)
    cases parts with
    | nil => simp [replace, join, List.intercalate, hpart]
    | cons next parts =>
      rw [← String.toList_inj] at hrest ⊢
      simp only [replace, join, String.toList_ofList, List.map_cons, List.intercalate_cons_cons,
        List.map_append, hpart, List.map_nil, if_true] at hrest ⊢
      rw [hrest]

/-- The order of bytes, which for UTF-8 is that of the characters. -/
def Le (s t : String) : Prop := s.toList ≤ t.toList

def Lt (s t : String) : Prop := s.toList < t.toList

instance : DecidableRel Le := fun s t => inferInstanceAs (Decidable (s.toList ≤ t.toList))

instance : DecidableRel Lt := fun s t => inferInstanceAs (Decidable (s.toList < t.toList))

def stripSuffix (s p : String) : Option String :=
  if endsWith s p then some (String.ofList (s.toList.take (s.toList.length - p.toList.length)))
  else none

/-! On literals this computes without looking at the bytes of a string. -/

theorem endsWith_ofList (s p : List Char) :
    endsWith (String.ofList s) (String.ofList p) = p.isSuffixOf s := by
  simp only [endsWith, String.toList_ofList]

@[simp] theorem endsWith_append (r p : String) : endsWith (r ++ p) p = true := by
  simp [endsWith]

theorem startsWith_append_right {s p r : String} (h : startsWith s p = true) :
    startsWith (s ++ r) p = true := by
  obtain ⟨q, rfl⟩ := (startsWith_iff s p).mp h
  rw [String.append_assoc]
  exact startsWith_append p (q ++ r)

theorem stripSuffix_eq_some {s p r : String} : stripSuffix s p = some r ↔ s = r ++ p := by
  have hlen : ∀ a b : List Char, (a ++ b).take ((a ++ b).length - b.length) = a := by simp
  constructor
  · intro h
    rw [stripSuffix] at h
    split_ifs at h with he
    obtain ⟨q, hq⟩ := List.isSuffixOf_iff_suffix.mp he
    rw [← Option.some.inj h, ← hq, hlen]
    apply String.toList_injective
    simp [hq]
  · rintro rfl
    rw [stripSuffix, if_pos (endsWith_append r p), String.toList_append, hlen, String.ofList_toList]

/-- Two ways to cut a list at a separator: the cuts agree, or one is further on. -/
theorem cut_eq_cut_iff {α : Type*} {c : α} {a b p q : List α} :
    a ++ c :: p = b ++ c :: q ↔
      (a = b ∧ p = q) ∨ (∃ mid, b = a ++ c :: mid ∧ p = mid ++ c :: q) ∨
        ∃ mid, a = b ++ c :: mid ∧ q = mid ++ c :: p := by
  rw [List.append_eq_append_iff]
  simp only [List.cons_eq_append_iff]
  constructor
  · rintro (⟨r, rfl, ⟨rfl, h⟩ | ⟨mid, rfl, rfl⟩⟩ | ⟨r, rfl, ⟨rfl, h⟩ | ⟨mid, rfl, rfl⟩⟩)
    · exact .inl ⟨by simp, (List.cons.inj h).2.symm⟩
    · exact .inr (.inl ⟨mid, rfl, rfl⟩)
    · exact .inl ⟨by simp, (List.cons.inj h).2⟩
    · exact .inr (.inr ⟨mid, rfl, rfl⟩)
  · rintro (⟨rfl, rfl⟩ | ⟨mid, rfl, rfl⟩ | ⟨mid, rfl, rfl⟩)
    · exact .inl ⟨[], by simp⟩
    · exact .inl ⟨c :: mid, rfl, .inr ⟨mid, rfl, rfl⟩⟩
    · exact .inr ⟨c :: mid, rfl, .inr ⟨mid, rfl, rfl⟩⟩

theorem separated_eq_iff {c : Char} {a b p q : String} :
    a ++ String.singleton c ++ p = b ++ String.singleton c ++ q ↔
      (a = b ∧ p = q) ∨
      (∃ mid, b = a ++ String.singleton c ++ mid ∧ p = mid ++ String.singleton c ++ q) ∨
        ∃ mid, a = b ++ String.singleton c ++ mid ∧ q = mid ++ String.singleton c ++ p := by
  have hmid : ∀ P : List Char → Prop, (∃ mid, P mid) ↔ ∃ mid : String, P mid.toList := by
    intro P
    constructor
    · rintro ⟨mid, h⟩
      exact ⟨String.ofList mid, by simpa using h⟩
    · rintro ⟨mid, h⟩
      exact ⟨mid.toList, h⟩
  have h := @cut_eq_cut_iff Char c a.toList b.toList p.toList q.toList
  rw [hmid, hmid] at h
  simpa [← String.toList_inj] using h

theorem endsWith_iff (s p : String) : endsWith s p = true ↔ ∃ r, s = r ++ p := by
  constructor
  · intro h
    refine ⟨_, stripSuffix_eq_some.mp (if_pos h)⟩
  · rintro ⟨r, rfl⟩
    exact endsWith_append r p

/-- Two ends of one string are an end of one another. -/
theorem append_ne_append {a b p q : String} (hpq : endsWith p q = false)
    (hqp : endsWith q p = false) : a ++ p ≠ b ++ q := by
  intro h
  have hp : p.toList <:+ (b ++ q).toList := ⟨a.toList, by rw [← h, String.toList_append]⟩
  have hq : q.toList <:+ (b ++ q).toList := ⟨b.toList, by rw [String.toList_append]⟩
  rcases List.suffix_or_suffix_of_suffix hp hq with hs | hs
  · rw [endsWith, List.isSuffixOf_iff_suffix.mpr hs] at hqp
    cases hqp
  · rw [endsWith, List.isSuffixOf_iff_suffix.mpr hs] at hpq
    cases hpq

theorem endsWith_eq_false {s p q : String} (h : endsWith s p = true) (hpq : endsWith p q = false)
    (hqp : endsWith q p = false) : endsWith s q = false := by
  by_contra hc
  obtain ⟨a, ha⟩ := (endsWith_iff s p).mp h
  obtain ⟨b, hb⟩ := (endsWith_iff s q).mp (by simpa using hc)
  exact append_ne_append hpq hqp (ha.symm.trans hb)

/-- The characters with the property White_Space. -/
def isWhitespace (c : Char) : Bool :=
  let n := c.toNat
  (9 ≤ n && n ≤ 13) || n = 32 || n = 0x85 || n = 0xA0 || n = 0x1680 ||
    (0x2000 ≤ n && n ≤ 0x200A) || n = 0x2028 || n = 0x2029 || n = 0x202F || n = 0x205F ||
    n = 0x3000

def trim (cs : List Char) : List Char :=
  ((cs.dropWhile isWhitespace).reverse.dropWhile isWhitespace).reverse

/-- A text without whitespace is not trimmed. -/
theorem trim_eq_self {cs : List Char} (h : ∀ c ∈ cs, isWhitespace c = false) : trim cs = cs := by
  have hfirst : cs.dropWhile isWhitespace = cs := by
    cases cs with
    | nil => rfl
    | cons c cs => rw [List.dropWhile_cons_of_neg (by simp [h c List.mem_cons_self])]
  have hlast : cs.reverse.dropWhile isWhitespace = cs.reverse := by
    cases hr : cs.reverse with
    | nil => rfl
    | cons c rest =>
      have hc : c ∈ cs := List.mem_reverse.mp (by rw [hr]; exact List.mem_cons_self)
      rw [List.dropWhile_cons_of_neg (by simp [h c hc])]
  rw [trim, hfirst, hlast, List.reverse_reverse]

theorem trim_infix (cs : List Char) : trim cs <:+: cs := by
  have hlast : trim cs <+: cs.dropWhile isWhitespace := by
    rw [trim, ← List.reverse_suffix, List.reverse_reverse]
    exact List.dropWhile_suffix _
  exact hlast.isInfix.trans (List.dropWhile_suffix _).isInfix

/-- The length in bytes of UTF-8. -/
def byteLen : List Char → Nat
  | [] => 0
  | c :: cs => c.utf8Size + byteLen cs

/-- `&s[..n]`, nothing when byte `n` is inside a character or past the end. -/
def takeBytes : Nat → List Char → Option (List Char)
  | 0, _ => some []
  | _ + 1, [] => none
  | n + 1, c :: cs =>
    if c.utf8Size ≤ n + 1 then (takeBytes (n + 1 - c.utf8Size) cs).map (c :: ·) else none

/-- `&s[n..]` -/
def dropBytes : Nat → List Char → Option (List Char)
  | 0, cs => some cs
  | _ + 1, [] => none
  | n + 1, c :: cs =>
    if c.utf8Size ≤ n + 1 then dropBytes (n + 1 - c.utf8Size) cs else none

/-- `&s[a..b]` -/
def slice (a b : Nat) (cs : List Char) : Option (List Char) := do
  if b < a then none
  else takeBytes (b - a) (← dropBytes a cs)

@[simp] theorem byteLen_append (cs ds : List Char) :
    byteLen (cs ++ ds) = byteLen cs + byteLen ds := by
  induction cs with
  | nil => simp [byteLen]
  | cons c cs ih => simp [byteLen, ih, Nat.add_assoc]

@[simp] theorem takeBytes_zero (cs : List Char) : takeBytes 0 cs = some [] := by
  cases cs <;> rfl

@[simp] theorem dropBytes_zero (cs : List Char) : dropBytes 0 cs = some cs := by
  cases cs <;> rfl

theorem takeBytes_cons (n : Nat) (c : Char) (cs : List Char) :
    takeBytes (c.utf8Size + n) (c :: cs) = (takeBytes n cs).map (c :: ·) := by
  have hpos := c.utf8Size_pos
  obtain ⟨k, hk⟩ : ∃ k, c.utf8Size + n = k + 1 := ⟨c.utf8Size + n - 1, by omega⟩
  rw [hk, takeBytes, if_pos (by omega)]
  congr 2
  omega

theorem dropBytes_cons (n : Nat) (c : Char) (cs : List Char) :
    dropBytes (c.utf8Size + n) (c :: cs) = dropBytes n cs := by
  have hpos := c.utf8Size_pos
  obtain ⟨k, hk⟩ : ∃ k, c.utf8Size + n = k + 1 := ⟨c.utf8Size + n - 1, by omega⟩
  rw [hk, dropBytes, if_pos (by omega)]
  congr 1
  omega

theorem takeBytes_byteLen (cs ds : List Char) : takeBytes (byteLen cs) (cs ++ ds) = some cs := by
  induction cs with
  | nil => simp [byteLen]
  | cons c cs ih =>
    rw [byteLen, List.cons_append, takeBytes_cons, ih]
    rfl

theorem dropBytes_byteLen (cs ds : List Char) : dropBytes (byteLen cs) (cs ++ ds) = some ds := by
  induction cs with
  | nil => simp [byteLen]
  | cons c cs ih => rw [byteLen, List.cons_append, dropBytes_cons, ih]

theorem slice_byteLen (cs ds es : List Char) :
    slice (byteLen cs) (byteLen (cs ++ ds)) (cs ++ ds ++ es) = some ds := by
  have hlt : ¬ byteLen cs + byteLen ds < byteLen cs := by omega
  have hsub : byteLen cs + byteLen ds - byteLen cs = byteLen ds := by omega
  simp only [slice, byteLen_append, if_neg hlt, hsub, List.append_assoc, dropBytes_byteLen]
  exact takeBytes_byteLen ds es

theorem length_le_byteLen (cs : List Char) : cs.length ≤ byteLen cs := by
  induction cs with
  | nil => exact le_rfl
  | cons c cs ih =>
    have hpos := c.utf8Size_pos
    rw [List.length_cons, byteLen]
    omega

/-- Up to byte `n` nothing but characters of a single byte. -/
theorem takeBytes_of_ascii {n : Nat} {cs : List Char} (hn : n ≤ cs.length)
    (h : ∀ c ∈ cs.take n, c.utf8Size = 1) : takeBytes n cs = some (cs.take n) := by
  have hlen : byteLen (cs.take n) = n := by
    have hsum (ds : List Char) (hds : ∀ c ∈ ds, c.utf8Size = 1) : byteLen ds = ds.length := by
      induction ds with
      | nil => rfl
      | cons d ds ih =>
        have hd := hds d List.mem_cons_self
        rw [byteLen, List.length_cons, hd, ih fun c hc => hds c (List.mem_cons_of_mem _ hc)]
        omega
    rw [hsum _ h, List.length_take]
    omega
  have := takeBytes_byteLen (cs.take n) (cs.drop n)
  rwa [hlen, List.take_append_drop] at this

example : split '.' "navigation.course" = ["navigation", "course"] := by decide

end Text

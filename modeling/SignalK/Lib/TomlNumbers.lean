import Mathlib.Tactic.IntervalCases
import SignalK.Lib.TomlReading

/-! Decimal texts as TOML: integers of 64 bits, and numbers with a fraction or an exponent. -/
namespace Toml

theorem groups_of_all {p : Char → Bool} {ds : List Char} (hp : p '_' = false) (hne : ds ≠ [])
    (h : ∀ c ∈ ds, p c = true) : groups p ds = true := by
  induction ds with
  | nil => exact absurd rfl hne
  | cons c ds ih =>
    obtain ⟨hc, hds⟩ := List.forall_mem_cons.mp h
    cases ds with
    | nil => simp [groups, hc]
    | cons d ds =>
      have hd : d ≠ '_' := by
        intro he
        rw [he] at hds
        rw [hds '_' List.mem_cons_self] at hp
        exact absurd hp (by decide)
      have htail := ih (by simp) hds
      rw [groups, hc]
      simpa [hd] using htail

theorem mem_groups {p : Char → Bool} {ds : List Char} (h : groups p ds = true) :
    ∀ c ∈ ds, p c = true ∨ c = '_' := by
  induction hn : ds.length using Nat.strong_induction_on generalizing ds with
  | _ n ih =>
    cases ds with
    | nil => simp
    | cons c ds =>
      rw [groups.eq_def] at h
      dsimp only at h
      obtain ⟨hc, h⟩ := Bool.and_eq_true_iff.mp h
      rw [List.length_cons] at hn
      refine List.forall_mem_cons.mpr ⟨.inl hc, ?_⟩
      cases ds with
      | nil => simp
      | cons d ds =>
        rw [List.length_cons] at hn
        dsimp only at h
        split_ifs at h with hd
        · exact List.forall_mem_cons.mpr ⟨.inr hd, ih ds.length (by omega) h rfl⟩
        · exact ih (d :: ds).length (by rw [List.length_cons]; omega) h rfl

theorem numeral_ten {ds : List Char} (h : ∀ c ∈ ds, c.isDigit = true) :
    numeral 10 ds = Nat.ofDigitChars 10 ds 0 := by
  have hfilter : ds.filterMap hexDigit = ds.map fun c => c.toNat - 48 := by
    induction ds with
    | nil => rfl
    | cons c ds ih =>
      obtain ⟨hc, hds⟩ := List.forall_mem_cons.mp h
      have hhex : hexDigit c = some (c.toNat - 48) := by rw [hexDigit, if_pos hc]
      rw [List.filterMap_cons_some hhex, ih hds, List.map_cons]
  rw [numeral, hfilter, List.foldl_map, Nat.ofDigitChars_eq_foldl]
  rfl

theorem head_toDigits {n : Nat} (h : 0 < n) : (Nat.toDigits 10 n).head? ≠ some '0' := by
  induction n using Nat.strong_induction_on with
  | _ n ih =>
    rcases Nat.lt_or_ge n 10 with hn | hn
    · rw [Nat.toDigits_of_lt_base hn]
      interval_cases n <;> decide
    · have hdiv := ih (n / 10) (by omega) (by omega)
      rw [Nat.toDigits_of_base_le (by decide) hn]
      obtain ⟨c, cs, hc⟩ := List.exists_cons_of_ne_nil (Nat.toDigits_ne_nil (n := n / 10) (b := 10))
      rw [hc] at hdiv ⊢
      simpa using hdiv

/-- The decimal text of an integer. -/
def intText (n : Int) : List Char :=
  if n < 0 then '-' :: Nat.toDigits 10 n.natAbs else Nat.toDigits 10 n.natAbs

theorem isDigit_toDigits {n : Nat} : ∀ c ∈ Nat.toDigits 10 n, c.isDigit = true :=
  fun _ hc => Nat.isDigit_of_mem_toDigits (by decide) (by decide) hc

theorem numeral_toDigits (n : Nat) : numeral 10 (Nat.toDigits 10 n) = n := by
  rw [numeral_ten isDigit_toDigits, Nat.ofDigitChars_ten_toDigits]

theorem ne_of_isDigit {c d : Char} (hc : c.isDigit = true) (hd : d.isDigit = false) : c ≠ d := by
  intro he
  rw [he, hd] at hc
  exact absurd hc (by decide)

theorem unsigned_digits {ds : List Char} (h : ∀ c ∈ ds, c.isDigit = true) :
    unsigned ds = ds := by
  cases ds with
  | nil => simp [unsigned]
  | cons c ds =>
    have hc := h c List.mem_cons_self
    have hplus : c ≠ '+' := ne_of_isDigit hc (by decide)
    have hminus : c ≠ '-' := ne_of_isDigit hc (by decide)
    simp [unsigned, hplus, hminus]

theorem unsigned_append {t : List Char} (h : t ≠ []) (s : List Char) :
    unsigned (t ++ s) = unsigned t ++ s := by
  obtain ⟨c, cs, rfl⟩ := List.exists_cons_of_ne_nil h
  by_cases hc : c = '+' ∨ c = '-'
  · simp [unsigned, hc]
  · simp [unsigned, hc]

theorem unsigned_intText (n : Int) : unsigned (intText n) = Nat.toDigits 10 n.natAbs := by
  rw [intText]
  split_ifs
  · simp [unsigned]
  · exact unsigned_digits isDigit_toDigits

theorem integer_intText (n : Int) : integer (intText n) = some n := by
  have hdec : isDecInt (intText n) = true := by
    have hgroups := groups_of_all (p := (·.isDigit)) (by decide)
      (Nat.toDigits_ne_nil (n := n.natAbs) (b := 10)) isDigit_toDigits
    rw [isDecInt, unsigned_intText, hgroups]
    rcases Nat.eq_zero_or_pos n.natAbs with hz | hpos
    · rw [hz]
      decide
    · simp [head_toDigits hpos]
  rw [integer, if_pos hdec, unsigned_intText, numeral_toDigits]
  by_cases hn : n < 0
  · have hhead : (intText n).head? = some '-' := by rw [intText, if_pos hn]; rfl
    rw [if_pos hhead]
    congr 1
    omega
  · have hhead : (intText n).head? ≠ some '-' := by
      rw [intText, if_neg hn]
      obtain ⟨c, cs, hc⟩ := List.exists_cons_of_ne_nil
        (Nat.toDigits_ne_nil (n := n.natAbs) (b := 10))
      have hd := isDigit_toDigits (n := n.natAbs) c (by rw [hc]; simp)
      rw [hc]
      exact fun he => ne_of_isDigit hd (by decide) (Option.some.inj he)
    rw [if_neg hhead]
    congr 1
    omega

theorem classify_intText (n : Int) : classify (intText n) =
    if -2 ^ 63 ≤ n ∧ n < 2 ^ 63 then some (.integer n) else none := by
  have hint := integer_intText n
  have htrue : intText n ≠ ['t', 'r', 'u', 'e'] := by
    intro he
    have hnone : integer ['t', 'r', 'u', 'e'] = none := by decide
    rw [he, hnone] at hint
    simp at hint
  have hfalse : intText n ≠ ['f', 'a', 'l', 's', 'e'] := by
    intro he
    have hnone : integer ['f', 'a', 'l', 's', 'e'] = none := by decide
    rw [he, hnone] at hint
    simp at hint
  rw [classify, if_neg htrue, if_neg hfalse, hint]

/-- A decimal number with a fraction, an exponent or both. -/
structure Decimal where
  negative : Bool
  whole : List Char
  fraction : List Char
  exponentSign : List Char
  exponent : List Char
  whole_ne_nil : whole ≠ []
  leading : whole.head? = some '0' → whole.length = 1
  digits : ∀ c ∈ whole ++ fraction ++ exponent, c.isDigit = true
  sign : exponentSign = [] ∨ exponentSign = ['+'] ∨ exponentSign = ['-']
  notInteger : fraction ≠ [] ∨ exponent ≠ []

namespace Decimal
variable (d : Decimal)

def integral : List Char := (if d.negative then ['-'] else []) ++ d.whole

def power : List Char := if d.exponent = [] then [] else 'e' :: (d.exponentSign ++ d.exponent)

def text : List Char :=
  d.integral ++ ((if d.fraction = [] then [] else '.' :: d.fraction) ++ d.power)

theorem isDigit_of_mem {c : Char} (h : c ∈ d.whole ∨ c ∈ d.fraction ∨ c ∈ d.exponent) :
    c.isDigit = true :=
  d.digits c (by simpa [or_assoc] using h)

theorem unsigned_integral : unsigned d.integral = d.whole := by
  rw [integral]
  cases d.negative with
  | true => simp [unsigned]
  | false => exact unsigned_digits fun c hc => d.isDigit_of_mem (.inl hc)

theorem mem_power {c : Char} (h : c ∈ d.power) :
    c.isDigit = true ∨ c = 'e' ∨ c = '+' ∨ c = '-' := by
  rw [power] at h
  split_ifs at h
  · simp at h
  · rcases List.mem_cons.mp h with rfl | h
    · exact .inr (.inl rfl)
    · rcases List.mem_append.mp h with h | h
      · rcases d.sign with hs | hs | hs <;> simp [hs] at h <;> simp [h]
      · exact .inl (d.isDigit_of_mem (.inr (.inr h)))

theorem mem_text {c : Char} (h : c ∈ d.text) :
    c.isDigit = true ∨ c = 'e' ∨ c = '+' ∨ c = '-' ∨ c = '.' := by
  rw [text, integral, List.mem_append, List.mem_append, List.mem_append] at h
  rcases h with (h | h) | h | h
  · cases hn : d.negative with
    | true => simp [hn] at h; simp [h]
    | false => simp [hn] at h
  · exact .inl (d.isDigit_of_mem (.inl h))
  · split_ifs at h
    · simp at h
    · rcases List.mem_cons.mp h with rfl | h
      · simp
      · exact .inl (d.isDigit_of_mem (.inr (.inl h)))
  · rcases d.mem_power h with h | h | h | h <;> simp [h]

theorem notMem_text {c : Char} (h : c.isDigit = false ∧ c ≠ 'e' ∧ c ≠ '+' ∧ c ≠ '-' ∧ c ≠ '.') :
    c ∉ d.text := by
  intro hm
  rcases d.mem_text hm with hc | hc | hc | hc | hc
  · rw [h.1] at hc
    exact absurd hc (by decide)
  · exact h.2.1 hc
  · exact h.2.2.1 hc
  · exact h.2.2.2.1 hc
  · exact h.2.2.2.2 hc

theorem text_ne_nil : d.text ≠ [] := by
  simp [text, integral, d.whole_ne_nil]

theorem unsigned_text : unsigned d.text =
    d.whole ++ ((if d.fraction = [] then [] else '.' :: d.fraction) ++ d.power) := by
  have hne : d.integral ≠ [] := by simp [integral, d.whole_ne_nil]
  rw [text, unsigned_append hne, unsigned_integral]

/-- The point or the exponent is no digit of an integer. -/
theorem exists_mem_unsigned : ∃ c ∈ unsigned d.text, c = '.' ∨ c = 'e' := by
  rw [unsigned_text]
  rcases d.notInteger with h | h
  · exact ⟨'.', by simp [h], .inl rfl⟩
  · exact ⟨'e', by simp [power, h], .inr rfl⟩

theorem integer_append {s : List Char} (hs : ∀ c ∈ s, c = '.' ∨ c = '0') :
    integer (d.text ++ s) = none := by
  have hdec : isDecInt (d.text ++ s) = false := by
    have hgroups : groups (·.isDigit) (unsigned (d.text ++ s)) = false := by
      by_contra ht
      have ht : groups (·.isDigit) (unsigned (d.text ++ s)) = true := by simpa using ht
      obtain ⟨c, hc, hce⟩ := d.exists_mem_unsigned
      have hmem : c ∈ unsigned (d.text ++ s) := by
        rw [unsigned_append d.text_ne_nil]
        exact List.mem_append_left s hc
      rcases hce with rfl | rfl
      · exact absurd (mem_groups ht '.' hmem) (by decide)
      · exact absurd (mem_groups ht 'e' hmem) (by decide)
    simp [isDecInt, hgroups]
  have hbase : ∀ c, c.isDigit = false → c ≠ 'e' → c ≠ '+' → c ≠ '-' → c ≠ '.' →
      (d.text ++ s).take 2 ≠ ['0', c] := by
    intro c hdigit he hplus hminus hdot htake
    have hm : c ∈ d.text ++ s := List.mem_of_mem_take (i := 2) (by rw [htake]; simp)
    rcases List.mem_append.mp hm with hm | hm
    · exact d.notMem_text ⟨hdigit, he, hplus, hminus, hdot⟩ hm
    · rcases hs c hm with rfl | rfl
      · exact hdot rfl
      · exact absurd hdigit (by decide)
  simp [integer, hdec, hbase 'x', hbase 'o', hbase 'b']

theorem isExponent_power : isExponent d.power = true := by
  rw [power]
  split_ifs with h
  · rfl
  · have hgroups := groups_of_all (p := (·.isDigit)) (by decide) h
      fun c hc => d.isDigit_of_mem (.inr (.inr hc))
    have hunsigned : unsigned (d.exponentSign ++ d.exponent) = d.exponent := by
      rcases d.sign with hs | hs | hs
      · rw [hs]
        exact unsigned_digits fun c hc => d.isDigit_of_mem (.inr (.inr hc))
      · simp [hs, unsigned]
      · simp [hs, unsigned]
    rw [isExponent, hunsigned, hgroups]
    rfl

theorem isDecInt_integral : isDecInt d.integral = true := by
  have hgroups := groups_of_all (p := (·.isDigit)) (by decide) d.whole_ne_nil
    fun c hc => d.isDigit_of_mem (.inl hc)
  rw [isDecInt, unsigned_integral, hgroups]
  by_cases hz : d.whole.head? = some '0'
  · simp [d.leading hz]
  · simp [hz]

/-- Where the integral part ends. -/
theorem cut_integral (rest : List Char) (h : ∀ c ∈ rest.head?, c = '.' ∨ c = 'e') :
    (d.integral ++ rest).takeWhile (fun c => c ≠ '.' && !isE c) = d.integral ∧
      (d.integral ++ rest).dropWhile (fun c => c ≠ '.' && !isE c) = rest := by
  have hall : ∀ c ∈ d.integral, (c ≠ '.' && !isE c) = true := by
    intro c hc
    rw [integral, List.mem_append] at hc
    rcases hc with hc | hc
    · have hminus : c = '-' := by
        cases hn : d.negative with
        | true => simpa [hn] using hc
        | false => simp [hn] at hc
      rw [hminus]
      decide
    · have hdigit := d.isDigit_of_mem (.inl hc)
      simp [isE, ne_of_isDigit hdigit (by decide : '.'.isDigit = false),
        ne_of_isDigit hdigit (by decide : 'e'.isDigit = false),
        ne_of_isDigit hdigit (by decide : 'E'.isDigit = false)]
  rw [List.takeWhile_append_of_pos hall, List.dropWhile_append_of_pos hall]
  cases rest with
  | nil => simp
  | cons c rest =>
    rcases h c rfl with rfl | rfl <;> simp [isE]

theorem cut_fraction : (d.fraction ++ d.power).takeWhile (fun c => !isE c) = d.fraction ∧
    (d.fraction ++ d.power).dropWhile (fun c => !isE c) = d.power := by
  have hall : ∀ c ∈ d.fraction, (!isE c) = true := by
    intro c hc
    have hdigit := d.isDigit_of_mem (.inr (.inl hc))
    simp [isE, ne_of_isDigit hdigit (by decide : 'e'.isDigit = false),
      ne_of_isDigit hdigit (by decide : 'E'.isDigit = false)]
  rw [List.takeWhile_append_of_pos hall, List.dropWhile_append_of_pos hall, power]
  split_ifs <;> simp [isE]

theorem isFloat_text : isFloat d.text = true := by
  have hhead : ∀ c ∈ ((if d.fraction = [] then [] else '.' :: d.fraction) ++ d.power).head?,
      c = '.' ∨ c = 'e' := by
    intro c hc
    split_ifs at hc with hf
    · have he := d.notInteger.resolve_left (not_not.mpr hf)
      simp [power, he] at hc
      exact .inr hc.symm
    · simp at hc
      exact .inl hc.symm
  obtain ⟨htake, hdrop⟩ := d.cut_integral _ hhead
  rw [isFloat, text, htake, hdrop, isDecInt_integral]
  by_cases hf : d.fraction = []
  · have he := d.notInteger.resolve_left (not_not.mpr hf)
    have hpow : d.power = 'e' :: (d.exponentSign ++ d.exponent) := by rw [power, if_neg he]
    have hexp := d.isExponent_power
    rw [hpow] at hexp
    simp [hf, hpow, hexp]
  · have hgroups := groups_of_all (p := (·.isDigit)) (by decide) hf
      fun c hc => d.isDigit_of_mem (.inr (.inl hc))
    obtain ⟨htake, hdrop⟩ := d.cut_fraction
    simp [hf, htake, hdrop, hgroups, isExponent_power]

theorem classify_text : classify d.text = some (.float d.text) := by
  have hint : integer d.text = none := by
    simpa using d.integer_append (s := []) (by simp)
  have htrue : d.text ≠ ['t', 'r', 'u', 'e'] :=
    fun he => d.notMem_text (c := 't') (by decide) (by rw [he]; decide)
  have hfalse : d.text ≠ ['f', 'a', 'l', 's', 'e'] :=
    fun he => d.notMem_text (c := 'f') (by decide) (by rw [he]; decide)
  have hfilter : d.text.filter (· ≠ '_') = d.text := by
    rw [List.filter_eq_self]
    intro c hc
    have hne : c ≠ '_' := fun he => d.notMem_text (c := '_') (by decide) (he ▸ hc)
    simp [hne]
  rw [classify, if_neg htrue, if_neg hfalse, hint]
  simp only [isFloat_text, hfilter, if_true]

/-- A fraction that is put after an exponent makes no number. -/
theorem classify_append (h : d.fraction = []) (v : List Char) :
    classify (d.text ++ ['.', '0']) ≠ some (.float v) := by
  have hint : integer (d.text ++ ['.', '0']) = none := d.integer_append (by simp)
  have he := d.notInteger.resolve_left (not_not.mpr h)
  have hpow : d.power = 'e' :: (d.exponentSign ++ d.exponent) := by rw [power, if_neg he]
  have htext : d.text ++ ['.', '0'] =
      d.integral ++ 'e' :: (d.exponentSign ++ d.exponent ++ ['.', '0']) := by
    simp [text, h, hpow]
  have hgroups : groups (·.isDigit) (unsigned (d.exponentSign ++ d.exponent ++ ['.', '0'])) =
      false := by
    have hne : d.exponentSign ++ d.exponent ≠ [] := by simp [he]
    have hpoint : '.' ∈ unsigned (d.exponentSign ++ d.exponent ++ ['.', '0']) := by
      rw [unsigned_append hne]
      simp
    by_contra ht
    exact absurd (mem_groups (by simpa using ht) '.' hpoint) (by decide)
  have hword : ∀ w : List Char, '.' ∉ w → unsigned (d.text ++ ['.', '0']) ≠ w := by
    intro w hw heq
    rw [← heq, unsigned_append d.text_ne_nil] at hw
    simp at hw
  have hfloat : isFloat (d.text ++ ['.', '0']) = false := by
    have hwords := And.intro (hword ['i', 'n', 'f'] (by decide)) (hword ['n', 'a', 'n'] (by decide))
    rw [htext] at hwords
    obtain ⟨htake, hdrop⟩ := d.cut_integral
      ('e' :: (d.exponentSign ++ d.exponent ++ ['.', '0'])) (by simp)
    rw [isFloat, htext, htake, hdrop]
    rw [List.append_assoc] at hgroups hwords
    simp [isExponent, hgroups, hwords]
  intro hc
  rw [classify, hint, hfloat] at hc
  split_ifs at hc <;> simp_all

end Decimal

theorem isTokenChar_of_isDigit {c : Char} (h : c.isDigit = true) : isTokenChar c = true := by
  simp [isTokenChar, isBare, Char.isAlphanum, h]

theorem Yields.int (n : Int) : Yields (intText n)
    (if -2 ^ 63 ≤ n ∧ n < 2 ^ 63 then some (.integer n) else none) := by
  rw [← classify_intText]
  apply Yields.scalar
  · rw [intText]
    split_ifs
    · simp
    · exact Nat.toDigits_ne_nil
  · intro c hc
    rw [intText] at hc
    split_ifs at hc
    · rcases List.mem_cons.mp hc with rfl | hc
      · decide
      · exact isTokenChar_of_isDigit (isDigit_toDigits c hc)
    · exact isTokenChar_of_isDigit (isDigit_toDigits c hc)

theorem Decimal.isTokenChar_of_mem (d : Decimal) {c : Char} (h : c ∈ d.text) :
    isTokenChar c = true := by
  rcases d.mem_text h with hc | rfl | rfl | rfl | rfl
  · exact isTokenChar_of_isDigit hc
  all_goals decide

theorem Yields.decimal (d : Decimal) : Yields d.text (some (.float d.text)) := by
  rw [← d.classify_text]
  exact Yields.scalar d.text_ne_nil fun c hc => d.isTokenChar_of_mem hc

end Toml

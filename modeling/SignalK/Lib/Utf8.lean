import Mathlib.Data.List.Basic
import Mathlib.Data.UInt
import Mathlib.Tactic.SplitIfs

/-! UTF-8: texts as bytes, and bytes read as a text where what is no UTF-8 is replaced. -/
namespace Utf8

def encode (cs : List Char) : List UInt8 :=
  cs.flatMap String.utf8EncodeChar

def replacement : Char := Char.ofNat 0xFFFD

/-- A byte that continues a character. -/
def Tail (b : Nat) : Prop := 0x80 ≤ b ∧ b ≤ 0xBF

instance (b : Nat) : Decidable (Tail b) := inferInstanceAs (Decidable (_ ∧ _))

/-- The first two bytes of a character of several. -/
def Opens (a b : Nat) : Prop :=
  0xC2 ≤ a ∧ a ≤ 0xF4 ∧ Tail b ∧ (a = 0xE0 → 0xA0 ≤ b) ∧ (a = 0xED → b ≤ 0x9F) ∧
    (a = 0xF0 → 0x90 ≤ b) ∧ (a = 0xF4 → b ≤ 0x8F)

instance (a b : Nat) : Decidable (Opens a b) := inferInstanceAs (Decidable (_ ∧ _))

/-- `String::from_utf8_lossy`: what cannot be continued to a character, as far as it could
have been one, is replaced. -/
def lossy : List UInt8 → List Char
  | [] => []
  | a :: t =>
    if a.toNat < 0x80 then Char.ofNat a.toNat :: lossy t
    else
      match t with
      | [] => [replacement]
      | b :: u =>
        if ¬ Opens a.toNat b.toNat then replacement :: lossy (b :: u)
        else if a.toNat < 0xE0 then
          Char.ofNat ((a.toNat - 0xC0) * 64 + (b.toNat - 0x80)) :: lossy u
        else
          match u with
          | [] => [replacement]
          | c :: v =>
            if ¬ Tail c.toNat then replacement :: lossy (c :: v)
            else if a.toNat < 0xF0 then
              Char.ofNat ((a.toNat - 0xE0) * 4096 + (b.toNat - 0x80) * 64 + (c.toNat - 0x80)) ::
                lossy v
            else
              match v with
              | [] => [replacement]
              | d :: w =>
                if ¬ Tail d.toNat then replacement :: lossy (d :: w)
                else
                  Char.ofNat ((a.toNat - 0xF0) * 262144 + (b.toNat - 0x80) * 4096 +
                    (c.toNat - 0x80) * 64 + (d.toNat - 0x80)) :: lossy w

/-- `std::str::from_utf8` -/
def decode (bs : List UInt8) : Option (List Char) :=
  if encode (lossy bs) = bs then some (lossy bs) else none

example : lossy [0x61, 0xE2, 0x82, 0xE2, 0x82, 0xAC, 0xFF] =
    ['a', replacement, '\u20ac', replacement] := by
  decide

theorem encode_append (cs ds : List Char) : encode (cs ++ ds) = encode cs ++ encode ds :=
  List.flatMap_append

theorem encode_cons (c : Char) (cs : List Char) :
    encode (c :: cs) = String.utf8EncodeChar c ++ encode cs :=
  List.flatMap_cons

/-! What is read is decided by the first bytes. -/
section steps

variable {a b c d : UInt8} {t : List UInt8}

attribute [local simp] lossy

theorem lossy_one (ha : a.toNat < 0x80) : lossy (a :: t) = Char.ofNat a.toNat :: lossy t := by
  rw [lossy.eq_def]
  simp only [if_pos ha]

theorem lossy_alone (ha : ¬ a.toNat < 0x80) : lossy [a] = [replacement] := by
  simp [ha]

theorem lossy_not_opens (ha : ¬ a.toNat < 0x80) (hb : ¬ Opens a.toNat b.toNat) :
    lossy (a :: b :: t) = replacement :: lossy (b :: t) := by
  rw [lossy.eq_def]
  simp only [if_neg ha, if_pos hb]

theorem lossy_two (ha : a.toNat < 0xE0) (hb : Opens a.toNat b.toNat) :
    lossy (a :: b :: t) =
      Char.ofNat ((a.toNat - 0xC0) * 64 + (b.toNat - 0x80)) :: lossy t := by
  have hlow : ¬ a.toNat < 0x80 := by
    unfold Opens at hb
    omega
  rw [lossy.eq_def]
  simp only [if_neg hlow, if_neg (not_not.mpr hb), if_pos ha]

theorem lossy_cut_two (ha : ¬ a.toNat < 0xE0) (hb : Opens a.toNat b.toNat) :
    lossy [a, b] = [replacement] := by
  have hlow : ¬ a.toNat < 0x80 := by omega
  rw [lossy.eq_def]
  simp only [if_neg hlow, if_neg (not_not.mpr hb), if_neg ha]

theorem lossy_not_third (ha : ¬ a.toNat < 0xE0) (hb : Opens a.toNat b.toNat)
    (hc : ¬ Tail c.toNat) : lossy (a :: b :: c :: t) = replacement :: lossy (c :: t) := by
  have hlow : ¬ a.toNat < 0x80 := by omega
  rw [lossy.eq_def]
  simp only [if_neg hlow, if_neg (not_not.mpr hb), if_neg ha, if_pos hc]

theorem lossy_three (ha : ¬ a.toNat < 0xE0) (ha' : a.toNat < 0xF0)
    (hb : Opens a.toNat b.toNat) (hc : Tail c.toNat) :
    lossy (a :: b :: c :: t) =
      Char.ofNat ((a.toNat - 0xE0) * 4096 + (b.toNat - 0x80) * 64 + (c.toNat - 0x80)) ::
        lossy t := by
  have hlow : ¬ a.toNat < 0x80 := by omega
  rw [lossy.eq_def]
  simp only [if_neg hlow, if_neg (not_not.mpr hb), if_neg ha, if_neg (not_not.mpr hc), if_pos ha']

theorem lossy_cut_three (ha : ¬ a.toNat < 0xF0) (hb : Opens a.toNat b.toNat)
    (hc : Tail c.toNat) : lossy [a, b, c] = [replacement] := by
  have hlow : ¬ a.toNat < 0x80 := by omega
  have hthree : ¬ a.toNat < 0xE0 := by omega
  rw [lossy.eq_def]
  simp only [if_neg hlow, if_neg (not_not.mpr hb), if_neg hthree, if_neg (not_not.mpr hc),
    if_neg ha]

theorem lossy_not_fourth (ha : ¬ a.toNat < 0xF0) (hb : Opens a.toNat b.toNat)
    (hc : Tail c.toNat) (hd : ¬ Tail d.toNat) :
    lossy (a :: b :: c :: d :: t) = replacement :: lossy (d :: t) := by
  have hlow : ¬ a.toNat < 0x80 := by omega
  have hthree : ¬ a.toNat < 0xE0 := by omega
  rw [lossy.eq_def]
  simp only [if_neg hlow, if_neg (not_not.mpr hb), if_neg hthree, if_neg (not_not.mpr hc),
    if_neg ha, if_pos hd]

theorem lossy_four (ha : ¬ a.toNat < 0xF0) (hb : Opens a.toNat b.toNat)
    (hc : Tail c.toNat) (hd : Tail d.toNat) :
    lossy (a :: b :: c :: d :: t) =
      Char.ofNat ((a.toNat - 0xF0) * 262144 + (b.toNat - 0x80) * 4096 +
        (c.toNat - 0x80) * 64 + (d.toNat - 0x80)) :: lossy t := by
  have hlow : ¬ a.toNat < 0x80 := by omega
  have hthree : ¬ a.toNat < 0xE0 := by omega
  rw [lossy.eq_def]
  simp only [if_neg hlow, if_neg (not_not.mpr hb), if_neg hthree, if_neg (not_not.mpr hc),
    if_neg ha, if_neg (not_not.mpr hd)]

end steps

/-- One character is read back. -/
theorem lossy_encodeChar (c : Char) (bs : List UInt8) :
    lossy (String.utf8EncodeChar c ++ bs) = c :: lossy bs := by
  have hvalid : c.val.toNat < 0xD800 ∨ 0xDFFF < c.val.toNat ∧ c.val.toNat < 0x110000 := c.valid
  have hc : Char.ofNat c.val.toNat = c := Char.ofNat_toNat c
  have hnat : ∀ n, n < 256 → (UInt8.ofNat n).toNat = n := fun n hn =>
    UInt8.toNat_ofNat_of_lt' hn
  unfold String.utf8EncodeChar
  generalize c.val.toNat = v at hvalid hc ⊢
  dsimp only
  split_ifs with h₁ h₂ h₃
  · have hv := hnat v (by omega)
    rw [List.cons_append, List.nil_append, lossy_one (by omega), hv, hc]
  · have hx := hnat (v / 64 % 32 + 192) (by omega)
    have hy := hnat (v % 64 + 128) (by omega)
    simp only [List.cons_append, List.nil_append]
    rw [lossy_two (by omega) (by unfold Opens Tail; omega), hx, hy]
    have hv : (v / 64 % 32 + 192 - 192) * 64 + (v % 64 + 128 - 128) = v := by omega
    rw [hv, hc]
  · have hx := hnat (v / 4096 % 16 + 224) (by omega)
    have hy := hnat (v / 64 % 64 + 128) (by omega)
    have hz := hnat (v % 64 + 128) (by omega)
    simp only [List.cons_append, List.nil_append]
    rw [lossy_three (by omega) (by omega) (by unfold Opens Tail; omega) (by unfold Tail; omega),
      hx, hy, hz]
    have hv : (v / 4096 % 16 + 224 - 224) * 4096 + (v / 64 % 64 + 128 - 128) * 64 +
        (v % 64 + 128 - 128) = v := by omega
    rw [hv, hc]
  · have hw := hnat (v / 262144 % 8 + 240) (by omega)
    have hx := hnat (v / 4096 % 64 + 128) (by omega)
    have hy := hnat (v / 64 % 64 + 128) (by omega)
    have hz := hnat (v % 64 + 128) (by omega)
    simp only [List.cons_append, List.nil_append]
    rw [lossy_four (by omega) (by unfold Opens Tail; omega) (by unfold Tail; omega)
      (by unfold Tail; omega), hw, hx, hy, hz]
    have hv : (v / 262144 % 8 + 240 - 240) * 262144 + (v / 4096 % 64 + 128 - 128) * 4096 +
        (v / 64 % 64 + 128 - 128) * 64 + (v % 64 + 128 - 128) = v := by omega
    rw [hv, hc]

theorem lossy_encode_append (cs : List Char) (bs : List UInt8) :
    lossy (encode cs ++ bs) = cs ++ lossy bs := by
  induction cs with
  | nil => rfl
  | cons c cs ih => rw [encode_cons, List.append_assoc, lossy_encodeChar, ih, List.cons_append]

theorem lossy_encode (cs : List Char) : lossy (encode cs) = cs := by
  have h := lossy_encode_append cs []
  rwa [List.append_nil, lossy, List.append_nil] at h

/-- A character of ASCII ends whatever comes before it. -/
theorem lossy_append {bs : List UInt8} (h : ∀ b ∈ bs.head?, b.toNat < 0x80) (as : List UInt8) :
    lossy (as ++ bs) = lossy as ++ lossy bs := by
  have htail : ∀ b ∈ bs.head?, ¬ Tail b.toNat := by
    intro b hb ht
    have hlt := h b hb
    unfold Tail at ht
    omega
  have hopens : ∀ a : UInt8, ∀ b ∈ bs.head?, ¬ Opens a.toNat b.toNat :=
    fun a b hb ho => htail b hb ho.2.2.1
  fun_induction lossy as with
  | case1 => rfl
  | case2 a t ha ih => rw [List.cons_append, lossy_one ha, ih, List.cons_append]
  | case3 a ha =>
    cases bs with
    | nil => rw [List.append_nil, lossy_alone ha, lossy, List.append_nil]
    | cons b t =>
      rw [List.singleton_append, lossy_not_opens ha (hopens a b rfl), List.singleton_append]
  | case4 a ha b u hb ih =>
    rw [List.cons_append, List.cons_append, lossy_not_opens ha hb, ← List.cons_append, ih,
      List.cons_append]
  | case5 a ha b u hb ha' ih =>
    rw [List.cons_append, List.cons_append, lossy_two ha' (not_not.mp hb), ih, List.cons_append]
  | case6 a ha b hb ha' =>
    cases bs with
    | nil => rw [List.append_nil, lossy_cut_two ha' (not_not.mp hb), lossy, List.append_nil]
    | cons c t =>
      rw [List.cons_append, List.singleton_append,
        lossy_not_third ha' (not_not.mp hb) (htail c rfl), List.singleton_append]
  | case7 a ha b hb ha' c v hc ih =>
    simp only [List.cons_append] at ih ⊢
    rw [lossy_not_third ha' (not_not.mp hb) hc, ih]
  | case8 a ha b hb ha' c v hc hf ih =>
    simp only [List.cons_append]
    rw [lossy_three ha' hf (not_not.mp hb) (not_not.mp hc), ih]
  | case9 a ha b hb ha' c hc hf =>
    cases bs with
    | nil =>
      rw [List.append_nil, lossy_cut_three hf (not_not.mp hb) (not_not.mp hc), lossy,
        List.append_nil]
    | cons d t =>
      simp only [List.cons_append, List.nil_append]
      rw [lossy_not_fourth hf (not_not.mp hb) (not_not.mp hc) (htail d rfl)]
  | case10 a ha b hb ha' c hc hf d w hd ih =>
    simp only [List.cons_append] at ih ⊢
    rw [lossy_not_fourth hf (not_not.mp hb) (not_not.mp hc) hd, ih]
  | case11 a ha b hb ha' c hc hf d w hd ih =>
    simp only [List.cons_append]
    rw [lossy_four hf (not_not.mp hb) (not_not.mp hc) (not_not.mp hd), ih]

theorem toNat_ofNat {n : Nat} (h : n < 0xD800 ∨ 0xDFFF < n ∧ n < 0x110000) :
    (Char.ofNat n).toNat = n := by
  rw [Char.ofNat, dif_pos h]
  rfl

/-- A character of ASCII was there as a byte. -/
theorem mem_of_mem_lossy {ch : Char} (hch : ch.toNat < 0x80) {bs : List UInt8}
    (h : ch ∈ lossy bs) : ∃ b ∈ bs, b.toNat = ch.toNat := by
  have hreplaced : ∀ {cs : List Char} {P : Prop}, (ch ∈ cs → P) → ch ∈ replacement :: cs → P := by
    intro cs P hcs hmem
    rcases List.mem_cons.mp hmem with heq | hmem
    · have hr : replacement.toNat = 0xFFFD := rfl
      rw [heq] at hch
      omega
    · exact hcs hmem
  have hlarge : ∀ {n : Nat} {cs : List Char} {P : Prop},
      (0x80 ≤ n ∧ (n < 0xD800 ∨ 0xDFFF < n ∧ n < 0x110000)) → (ch ∈ cs → P) →
      ch ∈ Char.ofNat n :: cs → P := by
    intro n cs P hn hcs hmem
    rcases List.mem_cons.mp hmem with heq | hmem
    · have hr := toNat_ofNat hn.2
      rw [heq] at hch
      omega
    · exact hcs hmem
  have hmore : ∀ (xs ys : List UInt8), (∃ b ∈ ys, b.toNat = ch.toNat) →
      ∃ b ∈ xs ++ ys, b.toNat = ch.toNat := by
    rintro xs ys ⟨b, hb, heq⟩
    exact ⟨b, List.mem_append_right xs hb, heq⟩
  fun_induction lossy bs with
  | case1 => exact absurd h List.not_mem_nil
  | case2 a t ha ih =>
    rcases List.mem_cons.mp h with heq | h
    · refine ⟨a, List.mem_cons_self, ?_⟩
      rw [heq, toNat_ofNat (by omega)]
    · exact hmore [a] t (ih h)
  | case3 a ha => exact hreplaced (fun h => absurd h List.not_mem_nil) h
  | case4 a ha b u hb ih => exact hreplaced (fun h => hmore [a] _ (ih h)) h
  | case5 a ha b u hb ha' ih =>
    unfold Opens Tail at hb
    exact hlarge (by omega) (fun h => hmore [a, b] _ (ih h)) h
  | case6 a ha b hb ha' => exact hreplaced (fun h => absurd h List.not_mem_nil) h
  | case7 a ha b hb ha' c v hc ih => exact hreplaced (fun h => hmore [a, b] _ (ih h)) h
  | case8 a ha b hb ha' c v hc hf ih =>
    unfold Opens Tail at hb
    unfold Tail at hc
    exact hlarge (by omega) (fun h => hmore [a, b, c] _ (ih h)) h
  | case9 a ha b hb ha' c hc hf => exact hreplaced (fun h => absurd h List.not_mem_nil) h
  | case10 a ha b hb ha' c hc hf d w hd ih => exact hreplaced (fun h => hmore [a, b, c] _ (ih h)) h
  | case11 a ha b hb ha' c hc hf d w hd ih =>
    unfold Opens Tail at hb
    unfold Tail at hc hd
    exact hlarge (by omega) (fun h => hmore [a, b, c, d] _ (ih h)) h

theorem lossy_ascii {bs : List UInt8} (h : ∀ b ∈ bs, b.toNat < 0x80) :
    lossy bs = bs.map fun b => Char.ofNat b.toNat := by
  induction bs with
  | nil => rfl
  | cons b bs ih =>
    rw [lossy_one (h b List.mem_cons_self), ih fun c hc => h c (List.mem_cons_of_mem b hc),
      List.map_cons]

theorem encodeChar_ascii {c : Char} (h : c.toNat < 0x80) :
    String.utf8EncodeChar c = [UInt8.ofNat c.toNat] := by
  have hv : c.val.toNat < 0x80 := h
  unfold String.utf8EncodeChar
  rw [if_pos (by omega)]
  rfl

theorem encode_ascii {cs : List Char} (h : ∀ c ∈ cs, c.toNat < 0x80) :
    encode cs = cs.map fun c => UInt8.ofNat c.toNat := by
  induction cs with
  | nil => rfl
  | cons c cs ih =>
    rw [encode_cons, encodeChar_ascii (h c List.mem_cons_self),
      ih fun d hd => h d (List.mem_cons_of_mem c hd)]
    rfl

theorem toNat_ofNat_toNat {c : Char} (h : c.toNat < 0x80) :
    (UInt8.ofNat c.toNat).toNat = c.toNat := by
  have hsize : UInt8.size = 256 := rfl
  exact UInt8.toNat_ofNat_of_lt' (by omega)

theorem exists_of_mem_lossy {bs : List UInt8} (h : ∀ b ∈ bs, b.toNat < 0x80) {c : Char}
    (hc : c ∈ lossy bs) : ∃ b ∈ bs, Char.ofNat b.toNat = c := by
  rw [lossy_ascii h] at hc
  exact List.mem_map.mp hc

theorem exists_of_mem_encode {cs : List Char} (h : ∀ c ∈ cs, c.toNat < 0x80) {b : UInt8}
    (hb : b ∈ encode cs) : ∃ c ∈ cs, c.toNat = b.toNat := by
  rw [encode_ascii h] at hb
  obtain ⟨c, hc, rfl⟩ := List.mem_map.mp hb
  exact ⟨c, hc, (toNat_ofNat_toNat (h c hc)).symm⟩

/-- The more bytes, the larger the character. -/
theorem length_encodeChar_le (c : Char) :
    1 ≤ (String.utf8EncodeChar c).length ∧
      (0x80 ≤ c.toNat → 2 ≤ (String.utf8EncodeChar c).length) ∧
      (0x800 ≤ c.toNat → 3 ≤ (String.utf8EncodeChar c).length) ∧
      (0x10000 ≤ c.toNat → 4 ≤ (String.utf8EncodeChar c).length) := by
  have hv : c.toNat = c.val.toNat := rfl
  rw [hv]
  unfold String.utf8EncodeChar
  dsimp only
  split_ifs <;> simp only [List.length_cons, List.length_nil] <;> omega

/-- A text is not shorter than the bytes it was read from. -/
theorem length_le_encode_lossy (bs : List UInt8) : bs.length ≤ (encode (lossy bs)).length := by
  have hreplaced : (String.utf8EncodeChar replacement).length = 3 := by decide
  fun_induction lossy bs with
  | case1 => exact le_rfl
  | case2 a t ha ih =>
    have hone := (length_encodeChar_le (Char.ofNat a.toNat)).1
    rw [encode_cons, List.length_append, List.length_cons]
    omega
  | case3 a ha =>
    rw [encode_cons, List.length_append, hreplaced]
    simp only [List.length_cons, List.length_nil]
    omega
  | case4 a ha b u hb ih =>
    rw [List.length_cons] at ih
    rw [encode_cons, List.length_append, List.length_cons, List.length_cons]
    omega
  | case5 a ha b u hb ha' ih =>
    unfold Opens Tail at hb
    have hn := toNat_ofNat (n := (a.toNat - 0xC0) * 64 + (b.toNat - 0x80)) (by omega)
    have htwo := (length_encodeChar_le
      (Char.ofNat ((a.toNat - 0xC0) * 64 + (b.toNat - 0x80)))).2.1 (by omega)
    rw [encode_cons, List.length_append, List.length_cons, List.length_cons]
    omega
  | case6 a ha b hb ha' =>
    rw [encode_cons, List.length_append, hreplaced]
    simp only [List.length_cons, List.length_nil]
    omega
  | case7 a ha b hb ha' c v hc ih =>
    rw [List.length_cons] at ih
    rw [encode_cons, List.length_append, List.length_cons, List.length_cons, List.length_cons]
    omega
  | case8 a ha b hb ha' c v hc hf ih =>
    unfold Opens Tail at hb
    unfold Tail at hc
    have hn := toNat_ofNat
      (n := (a.toNat - 0xE0) * 4096 + (b.toNat - 0x80) * 64 + (c.toNat - 0x80)) (by omega)
    have hthree := (length_encodeChar_le (Char.ofNat
      ((a.toNat - 0xE0) * 4096 + (b.toNat - 0x80) * 64 + (c.toNat - 0x80)))).2.2.1 (by omega)
    rw [encode_cons, List.length_append, List.length_cons, List.length_cons, List.length_cons]
    omega
  | case9 a ha b hb ha' c hc hf =>
    rw [encode_cons, List.length_append, hreplaced]
    simp only [List.length_cons, List.length_nil]
    omega
  | case10 a ha b hb ha' c hc hf d w hd ih =>
    rw [List.length_cons] at ih
    rw [encode_cons, List.length_append]
    simp only [List.length_cons]
    omega
  | case11 a ha b hb ha' c hc hf d w hd ih =>
    unfold Opens Tail at hb
    unfold Tail at hc hd
    have hn := toNat_ofNat
      (n := (a.toNat - 0xF0) * 262144 + (b.toNat - 0x80) * 4096 + (c.toNat - 0x80) * 64 +
        (d.toNat - 0x80)) (by omega)
    have hfour := (length_encodeChar_le (Char.ofNat ((a.toNat - 0xF0) * 262144 +
      (b.toNat - 0x80) * 4096 + (c.toNat - 0x80) * 64 + (d.toNat - 0x80)))).2.2.2 (by omega)
    rw [encode_cons, List.length_append]
    simp only [List.length_cons]
    omega

/-- Bytes that are a text. -/
def Valid (bs : List UInt8) : Prop :=
  encode (lossy bs) = bs

instance (bs : List UInt8) : Decidable (Valid bs) := inferInstanceAs (Decidable (_ = _))

theorem valid_encode (cs : List Char) : Valid (encode cs) := by
  rw [Valid, lossy_encode]

theorem valid_iff {bs : List UInt8} : Valid bs ↔ ∃ cs, encode cs = bs := by
  constructor
  · intro h
    exact ⟨lossy bs, h⟩
  · rintro ⟨cs, rfl⟩
    exact valid_encode cs

theorem decode_of_valid {bs : List UInt8} (h : Valid bs) : decode bs = some (lossy bs) :=
  if_pos h

theorem decode_of_not_valid {bs : List UInt8} (h : ¬ Valid bs) : decode bs = none :=
  if_neg h

theorem encode_of_decode {bs : List UInt8} {cs : List Char} (h : decode bs = some cs) :
    encode cs = bs := by
  rw [decode] at h
  split_ifs at h with hvalid
  obtain rfl := Option.some.inj h
  exact hvalid

theorem encode_infix {p cs : List Char} (h : p <:+: cs) : encode p <:+: encode cs := by
  obtain ⟨a, b, rfl⟩ := h
  rw [encode_append, encode_append]
  exact ⟨encode a, encode b, rfl⟩

/-- Before a character of ASCII a text may be cut. -/
theorem valid_append {bs : List UInt8} (h : ∀ b ∈ bs.head?, b.toNat < 0x80) (as : List UInt8) :
    Valid (as ++ bs) ↔ Valid as ∧ Valid bs := by
  unfold Valid
  rw [lossy_append h, encode_append]
  constructor
  · intro heq
    have hlen := congrArg List.length heq
    have has := length_le_encode_lossy as
    have hbs := length_le_encode_lossy bs
    rw [List.length_append, List.length_append] at hlen
    exact List.append_inj heq (by omega)
  · rintro ⟨has, hbs⟩
    rw [has, hbs]

end Utf8

import Mathlib.Data.List.Lex
import Mathlib.Data.Char
import Mathlib.Tactic.IntervalCases
import Mathlib.Tactic.Ring

/-! Decimal texts of a fixed width, in the order of their characters: the order of the
numbers they write. -/
namespace Digits

def digit (n : Nat) : Char :=
  Char.ofNat (48 + n % 10)

/-- The last `w` decimal digits of `n`. -/
def digits : Nat → Nat → List Char
  | 0, _ => []
  | w + 1, n => digits w (n / 10) ++ [digit n]

/-- The digit that a character stands for. -/
def value (c : Char) : Option Nat :=
  if 48 ≤ c.toNat ∧ c.toNat ≤ 57 then some (c.toNat - 48) else none

/-- The number that a list of digits writes. -/
def ofList (ds : List Nat) : Nat :=
  ds.foldl (fun n d => 10 * n + d) 0

theorem toNat_digit (n : Nat) : (digit n).toNat = 48 + n % 10 := by
  have h : n % 10 < 10 := Nat.mod_lt _ (by decide)
  unfold digit
  interval_cases n % 10 <;> rfl

theorem digit_lt {m n : Nat} (h : m % 10 < n % 10) : digit m < digit n := by
  rw [Char.lt_def, UInt32.lt_iff_toNat_lt]
  change (digit m).toNat < (digit n).toNat
  rw [toNat_digit, toNat_digit]
  omega

@[simp] theorem length_digits (w n : Nat) : (digits w n).length = w := by
  induction w generalizing n with
  | zero => rfl
  | succ w ih => simp [digits, ih]

theorem digits_ne_nil {w : Nat} (hw : 0 < w) (n : Nat) : digits w n ≠ [] := by
  apply List.ne_nil_of_length_pos
  rwa [length_digits]

theorem digits_lt {w m n : Nat} (h : m < n) (hn : n < 10 ^ w) (x y : List Char) :
    digits w m ++ x < digits w n ++ y := by
  induction w generalizing m n x y with
  | zero =>
    rw [Nat.pow_zero] at hn
    omega
  | succ w ih =>
    have hn' : n / 10 < 10 ^ w := by
      rw [Nat.pow_succ] at hn
      omega
    simp only [digits, List.append_assoc, List.cons_append, List.nil_append]
    rcases Nat.lt_or_ge (m / 10) (n / 10) with hlt | hge
    · exact ih hlt hn' _ _
    · have heq : m / 10 = n / 10 := by omega
      rw [heq]
      apply List.append_left_lt
      exact List.Lex.rel (digit_lt (by omega))

theorem exists_digits_cons {w : Nat} (hw : 0 < w) (n : Nat) :
    ∃ d ds, digits w n = digit d :: ds := by
  induction w generalizing n with
  | zero => omega
  | succ w ih =>
    rcases Nat.eq_zero_or_pos w with rfl | hw
    · exact ⟨n, [], rfl⟩
    · obtain ⟨d, ds, hd⟩ := ih hw (n / 10)
      exact ⟨d, ds ++ [digit n], by simp [digits, hd]⟩

/-- A text that ends where another still writes digits comes first, if it ends with a
character below them. -/
theorem lt_digits {w n : Nat} {c : Char} (hw : 0 < w) (hc : c.toNat < 48) (x y : List Char) :
    c :: x < digits w n ++ y := by
  obtain ⟨d, ds, hd⟩ := exists_digits_cons hw n
  rw [hd]
  apply List.Lex.rel
  rw [Char.lt_def, UInt32.lt_iff_toNat_lt]
  change c.toNat < (digit d).toNat
  rw [toNat_digit]
  omega

theorem digits_append (a b m : Nat) {r : Nat} (hr : r < 10 ^ b) :
    digits (a + b) (m * 10 ^ b + r) = digits a m ++ digits b r := by
  induction b generalizing r with
  | zero =>
    have : r = 0 := by simpa using hr
    simp [this, digits]
  | succ b ih =>
    have hpow : m * 10 ^ (b + 1) = 10 * (m * 10 ^ b) := by ring
    have hdiv : (m * 10 ^ (b + 1) + r) / 10 = m * 10 ^ b + r / 10 := by
      rw [hpow]
      omega
    have hr' : r / 10 < 10 ^ b := by
      rw [Nat.pow_succ] at hr
      omega
    have hlast : digit (m * 10 ^ (b + 1) + r) = digit r := by
      unfold digit
      rw [hpow]
      congr 2
      omega
    rw [← Nat.add_assoc, digits, hdiv, hlast, ih hr', digits, List.append_assoc]

theorem mem_digits {w n : Nat} {c : Char} (h : c ∈ digits w n) : ∃ d, c = digit d := by
  induction w generalizing n with
  | zero => simp [digits] at h
  | succ w ih =>
    rcases List.mem_append.mp h with h | h
    · exact ih h
    · exact ⟨n, List.mem_singleton.mp h⟩

end Digits

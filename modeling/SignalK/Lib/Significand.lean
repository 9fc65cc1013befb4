import Mathlib.Algebra.Order.Archimedean.Basic
import Mathlib.Data.Int.Log
import Mathlib.Data.Rat.Floor
import Mathlib.Tactic.Linarith
import Mathlib.Tactic.LinearCombination
import Mathlib.Tactic.NormNum
import Mathlib.Tactic.Positivity
import Mathlib.Tactic.Push
import Mathlib.Tactic.Ring

/-! Rounding to so many significant bits, to nearest and ties to even. Exponents have no
bounds: there is no overflow, and nothing but zero becomes zero. -/
namespace Significand

/-- The nearest whole number, the even one of two. -/
def halfEven (x : ℚ) : ℤ :=
  let n := ⌊x⌋
  if x - n < 1 / 2 then n
  else if 1 / 2 < x - n then n + 1
  else if n % 2 = 0 then n else n + 1

/-- The distance of the numbers with `p` significant bits around `x`. -/
def ulp (p : ℕ) (x : ℚ) : ℚ := 2 ^ (Int.log 2 |x| - (p - 1))

def round (p : ℕ) (x : ℚ) : ℚ := halfEven (x / ulp p x) * ulp p x

/-- `n` is nearest to `x`, and even if it is not the only one. -/
def Nearest (n : ℤ) (x : ℚ) : Prop := |n - x| < 1 / 2 ∨ |n - x| = 1 / 2 ∧ n % 2 = 0

theorem nearest_halfEven (x : ℚ) : Nearest (halfEven x) x := by
  have hlo := Int.floor_le x
  have hhi := Int.lt_floor_add_one x
  unfold halfEven
  simp only
  split_ifs with hdown hup heven
  · left
    rw [abs_lt]
    constructor <;> linarith
  · left
    rw [abs_lt]
    push_cast
    constructor <;> linarith
  · right
    have hhalf : (⌊x⌋ : ℚ) - x = -(1 / 2) := by linarith
    rw [hhalf, abs_neg]
    exact ⟨by norm_num, heven⟩
  · right
    have hhalf : ((⌊x⌋ + 1 : ℤ) : ℚ) - x = 1 / 2 := by
      push_cast
      linarith
    rw [hhalf]
    exact ⟨by norm_num, by omega⟩

theorem Nearest.dist_le {n : ℤ} {x : ℚ} (h : Nearest n x) : |n - x| ≤ 1 / 2 :=
  h.elim le_of_lt fun h => h.1.le

theorem Nearest.unique {m n : ℤ} {x : ℚ} (hm : Nearest m x) (hn : Nearest n x) : m = n := by
  have hclose : ∀ a b : ℤ, Nearest a x → Nearest b x → a ≤ b := by
    intro a b ha hb
    by_contra hlt
    have hab : (b : ℚ) + 1 ≤ a := by exact_mod_cast (by omega : b + 1 ≤ a)
    have hax := abs_le.mp ha.dist_le
    have hbx := abs_le.mp hb.dist_le
    have heq : (a : ℚ) = b + 1 := by linarith
    have hint : a = b + 1 := by exact_mod_cast heq
    have hae : a % 2 = 0 := (ha.resolve_left fun h => by linarith [(abs_lt.mp h).2]).2
    have hbe : b % 2 = 0 := (hb.resolve_left fun h => by linarith [(abs_lt.mp h).1]).2
    omega
  exact le_antisymm (hclose m n hm hn) (hclose n m hn hm)

theorem Nearest.neg {n : ℤ} {x : ℚ} (h : Nearest n x) : Nearest (-n) (-x) := by
  have hsub : ((-n : ℤ) : ℚ) - -x = -(n - x) := by
    push_cast
    ring
  rw [Nearest, hsub, abs_neg]
  exact h.imp_right fun h => ⟨h.1, by omega⟩

theorem halfEven_neg (x : ℚ) : halfEven (-x) = -halfEven x :=
  (nearest_halfEven (-x)).unique (nearest_halfEven x).neg

/-- Below an even number is what is nearer to another one. -/
theorem halfEven_lt_iff {n : ℤ} (hn : n % 2 = 0) (x : ℚ) : halfEven x < n ↔ x < n - 1 / 2 := by
  have hx := abs_le.mp (nearest_halfEven x).dist_le
  constructor
  · intro h
    rcases nearest_halfEven x with hnear | ⟨htie, heven⟩
    · have hbelow : (halfEven x : ℚ) + 1 ≤ n := by exact_mod_cast h
      linarith [(abs_lt.mp hnear).1]
    · have hbelow : (halfEven x : ℚ) + 2 ≤ n := by exact_mod_cast (by omega : halfEven x + 2 ≤ n)
      linarith
  · intro h
    by_contra hge
    have habove : (n : ℚ) ≤ halfEven x := by exact_mod_cast not_lt.mp hge
    linarith

theorem halfEven_le_iff {n : ℤ} (hn : n % 2 = 0) (x : ℚ) : halfEven x ≤ n ↔ x ≤ n + 1 / 2 := by
  have hneg := halfEven_lt_iff (n := -n) (by omega) (-x)
  rw [halfEven_neg] at hneg
  push_cast at hneg
  constructor
  · intro h
    by_contra hlt
    have := hneg.mpr (by linarith)
    omega
  · intro h
    by_contra hlt
    have := hneg.mp (by omega)
    linarith

theorem ulp_pos (p : ℕ) (x : ℚ) : 0 < ulp p x := zpow_pos two_pos _

theorem ulp_le {p : ℕ} {x : ℚ} (hx : x ≠ 0) : ulp p x ≤ |x| * 2 ^ (1 - (p : ℤ)) := by
  have hlog := Int.zpow_log_le_self (b := 2) one_lt_two (abs_pos.mpr hx)
  have hsplit : ulp p x = 2 ^ Int.log 2 |x| * 2 ^ (1 - (p : ℤ)) := by
    rw [ulp, ← zpow_add₀ two_ne_zero]
    congr 1
    ring
  rw [hsplit]
  exact mul_le_mul_of_nonneg_right (by exact_mod_cast hlog) (zpow_pos two_pos _).le

theorem abs_round_sub_le (p : ℕ) (x : ℚ) : |round p x - x| ≤ |x| * 2 ^ (-(p : ℤ)) := by
  by_cases hx : x = 0
  · subst hx
    simp [round, halfEven]
  · have hu := ulp_pos p x
    have hsub : round p x - x = (halfEven (x / ulp p x) - x / ulp p x) * ulp p x := by
      rw [round, sub_mul, div_mul_cancel₀ _ hu.ne']
    have hhalf : |x| * 2 ^ (1 - (p : ℤ)) = 2 * (|x| * 2 ^ (-(p : ℤ))) := by
      rw [sub_eq_add_neg, zpow_add₀ two_ne_zero, zpow_one]
      ring
    rw [hsub, abs_mul, abs_of_pos hu]
    have hnear := mul_le_mul_of_nonneg_right (nearest_halfEven (x / ulp p x)).dist_le hu.le
    linarith [ulp_le (p := p) hx]

theorem round_neg (p : ℕ) (x : ℚ) : round p (-x) = -round p x := by
  have hu : ulp p (-x) = ulp p x := by rw [ulp, ulp, abs_neg]
  rw [round, round, hu, neg_div, halfEven_neg]
  push_cast
  ring

theorem ulp_eq {k : ℤ} {x : ℚ} (p : ℕ) (hlo : 2 ^ k ≤ |x|) (hhi : |x| < 2 ^ (k + 1)) :
    ulp p x = 2 ^ (k - (p - 1)) := by
  have hx : 0 < |x| := (zpow_pos two_pos k).trans_le hlo
  have hlog : Int.log 2 |x| = k := by
    apply le_antisymm
    · exact Int.lt_add_one_iff.mp ((Int.lt_zpow_iff_log_lt one_lt_two hx).mp (by exact_mod_cast hhi))
    · exact (Int.zpow_le_iff_le_log one_lt_two hx).mp (by exact_mod_cast hlo)
  rw [ulp, hlog]

section
variable {p : ℕ} {k : ℤ} (hp : 0 < p)
include hp

theorem zpow_low : (2 : ℚ) ^ k = 2 ^ (p - 1) * 2 ^ (k - (p - 1)) := by
  obtain ⟨q, rfl⟩ := Nat.exists_eq_succ_of_ne_zero hp.ne'
  rw [Nat.succ_sub_one, ← zpow_natCast, ← zpow_add₀ two_ne_zero]
  congr 1
  push_cast
  ring

theorem zpow_high : (2 : ℚ) ^ (k + 1) = 2 ^ p * 2 ^ (k - (p - 1)) := by
  rw [zpow_add_one₀ two_ne_zero, zpow_low hp, mul_right_comm, ← pow_succ, Nat.sub_add_cancel hp]

theorem pow_mul_zpow_neg : (2 : ℚ) ^ (p - 1) * 2 ^ (-(p : ℤ)) = 1 / 2 := by
  obtain ⟨q, rfl⟩ := Nat.exists_eq_succ_of_ne_zero hp.ne'
  rw [Nat.succ_sub_one, zpow_neg, zpow_natCast, pow_succ]
  field_simp

theorem zpow_neg_le_half : (2 : ℚ) ^ (-(p : ℤ)) ≤ 1 / 2 := by
  have hone : (1 : ℚ) ≤ 2 ^ (p - 1) := one_le_pow₀ one_le_two
  have hpos : (0 : ℚ) < 2 ^ (-(p : ℤ)) := zpow_pos two_pos _
  nlinarith [pow_mul_zpow_neg hp]

theorem round_lt_of_lt {x : ℚ} (h : x < 2 ^ k) :
    round p x < (2 ^ (p - 1) + 1) * 2 ^ (k - (p - 1)) := by
  have herror := (abs_le.mp (abs_round_sub_le p x)).2
  have hsmall := zpow_neg_le_half hp
  have hscale := pow_mul_zpow_neg hp
  have hu : (0 : ℚ) < 2 ^ (k - (p - 1)) := zpow_pos two_pos _
  rw [zpow_low hp] at h
  set u : ℚ := 2 ^ (k - (p - 1))
  set e : ℚ := 2 ^ (-(p : ℤ))
  have hlow : (0 : ℚ) < 2 ^ (p - 1) := pow_pos two_pos _
  rcases le_or_gt x 0 with hx | hx
  · rw [abs_of_nonpos hx] at herror
    have hneg : round p x ≤ 0 := by nlinarith
    exact hneg.trans_lt (by positivity)
  · rw [abs_of_pos hx] at herror
    have he : 0 < e := zpow_pos two_pos _
    have hpart : x * e ≤ u / 2 := by
      calc x * e ≤ 2 ^ (p - 1) * u * e := by gcongr
        _ = u / 2 := by linear_combination u * hscale
    linarith

theorem le_round_of_le {x : ℚ} (h : 2 ^ (k + 1) ≤ x) :
    (2 ^ p - 1) * 2 ^ (k - (p - 1)) ≤ round p x := by
  have herror := (abs_le.mp (abs_round_sub_le p x)).1
  have hx : 0 < x := (zpow_pos two_pos _).trans_le h
  have hsmall := zpow_neg_le_half hp
  have hscale : (2 : ℚ) ^ p * 2 ^ (-(p : ℤ)) = 1 := by
    rw [zpow_neg, zpow_natCast, mul_inv_cancel₀ (by positivity)]
  rw [abs_of_pos hx] at herror
  rw [zpow_high hp] at h
  set u : ℚ := 2 ^ (k - (p - 1))
  set e : ℚ := 2 ^ (-(p : ℤ))
  have hmost : (2 ^ p * u) * (1 - e) ≤ x * (1 - e) :=
    mul_le_mul_of_nonneg_right h (by linarith)
  linear_combination hmost + herror + u * hscale

theorem round_nonneg_iff (x : ℚ) : 0 ≤ round p x ↔ 0 ≤ x := by
  have herror := abs_le.mp (abs_round_sub_le p x)
  have hsmall := mul_le_mul_of_nonneg_left (zpow_neg_le_half hp) (abs_nonneg x)
  rcases le_or_gt 0 x with hx | hx
  · rw [abs_of_nonneg hx] at herror hsmall
    exact iff_of_true (by linarith) hx
  · rw [abs_of_neg hx] at herror hsmall
    exact iff_of_false (by linarith) (by linarith)

/-- Below a range, in it or above it. -/
theorem round_cases (x : ℚ) :
    x < 2 ^ (p - 1) * 2 ^ (k - (p - 1)) ∧
        round p x < (2 ^ (p - 1) + 1) * 2 ^ (k - (p - 1)) ∨
      round p x = halfEven (x / 2 ^ (k - (p - 1))) * 2 ^ (k - (p - 1)) ∨
      2 ^ p * 2 ^ (k - (p - 1)) ≤ x ∧ (2 ^ p - 1) * 2 ^ (k - (p - 1)) ≤ round p x := by
  rw [← zpow_low hp, ← zpow_high hp]
  rcases lt_or_ge x (2 ^ k) with hlow | hlow
  · exact .inl ⟨hlow, round_lt_of_lt hp hlow⟩
  · rcases lt_or_ge x (2 ^ (k + 1)) with hhigh | hhigh
    · have habs : |x| = x := abs_of_nonneg ((zpow_pos two_pos k).le.trans hlow)
      rw [round, ulp_eq p (habs.symm ▸ hlow) (habs.symm ▸ hhigh)]
      exact .inr (.inl rfl)
    · exact .inr (.inr ⟨hhigh, le_round_of_le hp hhigh⟩)

/-! An even multiple of the distance inside a range, and what is rounded to less or no more. -/

theorem round_lt_iff {n : ℤ} (hn : n % 2 = 0) (hlo : 2 ^ (p - 1) < n) (hhi : n < 2 ^ p)
    (x : ℚ) : round p x < n * 2 ^ (k - (p - 1)) ↔ x < (n - 1 / 2) * 2 ^ (k - (p - 1)) := by
  have hu : (0 : ℚ) < 2 ^ (k - (p - 1)) := zpow_pos two_pos _
  have hnlo : (2 : ℚ) ^ (p - 1) + 1 ≤ n := by exact_mod_cast hlo
  have hnhi : (n : ℚ) + 1 ≤ 2 ^ p := by exact_mod_cast hhi
  have hcases := round_cases (k := k) hp x
  generalize (2 : ℚ) ^ (k - (p - 1)) = u at *
  rcases hcases with ⟨hx, hround⟩ | hround | ⟨hx, hround⟩
  · exact iff_of_true (by nlinarith) (by nlinarith)
  · rw [hround, mul_lt_mul_iff_left₀ hu, Int.cast_lt, halfEven_lt_iff hn, div_lt_iff₀ hu]
  · exact iff_of_false (by nlinarith) (by nlinarith)

theorem round_le_iff {n : ℤ} (hn : n % 2 = 0) (hlo : 2 ^ (p - 1) < n) (hhi : n < 2 ^ p)
    (x : ℚ) : round p x ≤ n * 2 ^ (k - (p - 1)) ↔ x ≤ (n + 1 / 2) * 2 ^ (k - (p - 1)) := by
  have hu : (0 : ℚ) < 2 ^ (k - (p - 1)) := zpow_pos two_pos _
  have hnlo : (2 : ℚ) ^ (p - 1) + 1 ≤ n := by exact_mod_cast hlo
  have hnhi : (n : ℚ) + 2 ≤ 2 ^ p := by
    obtain ⟨q, rfl⟩ := Nat.exists_eq_succ_of_ne_zero hp.ne'
    rw [pow_succ'] at hhi ⊢
    exact_mod_cast (by omega : n + 2 ≤ 2 * 2 ^ q)
  have hcases := round_cases (k := k) hp x
  generalize (2 : ℚ) ^ (k - (p - 1)) = u at *
  rcases hcases with ⟨hx, hround⟩ | hround | ⟨hx, hround⟩
  · exact iff_of_true (by nlinarith) (by nlinarith)
  · rw [hround, mul_le_mul_iff_left₀ hu, Int.cast_le, halfEven_le_iff hn, div_le_iff₀ hu]
  · exact iff_of_false (by nlinarith) (by nlinarith)

end

end Significand

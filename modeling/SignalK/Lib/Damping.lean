import Mathlib.Algebra.Order.Archimedean.Basic
import Mathlib.Algebra.Order.Field.Basic
import Mathlib.Data.Sign.Defs
import Mathlib.Tactic.Linarith
import Mathlib.Tactic.Ring

/-! A loop that pushes an error towards zero, by a share of the error and of its last change,
up to a bound, and rests inside a dead zone. It comes to rest without crossing zero. -/
namespace Damping
variable {K : Type*} [Field K] [LinearOrder K]

structure Loop (K : Type*) [Field K] [LinearOrder K] where
  gain : K
  damping : K
  bound : K
  deadZone : K
  gain_pos : 0 < gain
  damping_nonneg : 0 ≤ damping
  stable : gain + damping < 1
  bound_pos : 0 < bound
  deadZone_pos : 0 < deadZone

namespace Loop

/-- The push against an error, with the error before it. -/
def push (l : Loop K) (now prev : K) : K :=
  max (-l.bound) (min (l.gain * now + l.damping * (now - prev)) l.bound)

def next (l : Loop K) (now prev : K) : K :=
  if |now| < l.deadZone then now else now - l.push now prev

/-- The error after so many steps, and the one before it; there is none before the first. -/
def orbit (l : Loop K) (start : K) : ℕ → K × K
  | 0 => (start, 0)
  | n + 1 => (l.next (l.orbit start n).1 (l.orbit start n).2, (l.orbit start n).1)

variable (l : Loop K) {now prev start : K}

/-- In the dead zone an orbit rests. -/
theorem orbit_rests {n m : ℕ} (hnm : n ≤ m) (hin : |(l.orbit start n).1| < l.deadZone) :
    (l.orbit start m).1 = (l.orbit start n).1 := by
  induction m, hnm using Nat.le_induction with
  | base => rfl
  | succ m _ ih =>
    have hm : |(l.orbit start m).1| < l.deadZone := by rwa [ih]
    rw [orbit, next, if_pos hm, ih]

variable [IsStrictOrderedRing K]

theorem push_neg (now prev : K) : l.push (-now) (-prev) = -l.push now prev := by
  have hx : l.gain * -now + l.damping * (-now - -prev) =
      -(l.gain * now + l.damping * (now - prev)) := by ring
  have hb := l.bound_pos
  rw [push, push, hx]
  generalize l.gain * now + l.damping * (now - prev) = x
  obtain h | h := le_total x l.bound
  · obtain h' | h' := le_total (-l.bound) x
    · rw [min_eq_left h, max_eq_right h', min_eq_left (by linarith), max_eq_right (by linarith)]
    · rw [min_eq_left h, max_eq_left h', min_eq_right (by linarith), max_eq_right (by linarith),
        neg_neg]
  · have hneg : -x ≤ -l.bound := neg_le_neg h
    have hpair : -l.bound ≤ l.bound := by linarith
    rw [min_eq_right h, max_eq_right hpair, min_eq_left (hneg.trans hpair), max_eq_left hneg]

theorem next_neg (now prev : K) : l.next (-now) (-prev) = -l.next now prev := by
  unfold next
  rw [abs_neg, push_neg]
  split_ifs <;> ring

theorem orbit_neg (start : K) (n : ℕ) :
    l.orbit (-start) n = (-(l.orbit start n).1, -(l.orbit start n).2) := by
  induction n with
  | zero => simp [orbit]
  | succ n ih => simp [orbit, ih, next_neg]

/-- A push does not reach zero. -/
theorem push_lt (hnow : 0 < now) (hprev : 0 ≤ prev) : l.push now prev < now := by
  have hg := l.stable
  have hb := l.bound_pos
  have hlast : 0 ≤ l.damping * prev := mul_nonneg l.damping_nonneg hprev
  have hshare : (l.gain + l.damping) * now < 1 * now := mul_lt_mul_of_pos_right hg hnow
  refine max_lt (by linarith) (min_lt_of_left_lt ?_)
  linarith

/-- Outside of the dead zone the larger one of two errors is left behind. -/
theorem sub_push_le {least : K} (hleast : least ≤ now) :
    now - l.push now prev ≤ max now prev - min (l.gain * least) l.bound := by
  have hpush : min (l.gain * now + l.damping * (now - prev)) l.bound ≤ l.push now prev :=
    le_max_right _ _
  have hgain : l.gain * least ≤ l.gain * now := mul_le_mul_of_nonneg_left hleast l.gain_pos.le
  have hnow : now ≤ max now prev := le_max_left _ _
  obtain hsat | hfree := le_total l.bound (l.gain * now + l.damping * (now - prev))
  · have hmin : min (l.gain * least) l.bound ≤ l.bound := min_le_right _ _
    rw [min_eq_right hsat] at hpush
    linarith
  · have hmin : min (l.gain * least) l.bound ≤ l.gain * least := min_le_left _ _
    rw [min_eq_left hfree] at hpush
    obtain hle | hle := le_total prev now
    · have hd : 0 ≤ l.damping * (now - prev) := mul_nonneg l.damping_nonneg (by linarith)
      linarith
    · have hd : l.damping * (prev - now) ≤ 1 * (prev - now) := by
        have hone : l.damping ≤ 1 := by linarith [l.stable, l.gain_pos]
        exact mul_le_mul_of_nonneg_right hone (by linarith)
      rw [max_eq_right hle]
      linarith

/-- How much is left behind in two steps. -/
def decrement : K := min (l.gain * l.deadZone) l.bound

theorem decrement_pos : 0 < l.decrement :=
  lt_min (mul_pos l.gain_pos l.deadZone_pos) l.bound_pos

theorem next_pos (hnow : 0 < now) (hprev : 0 ≤ prev) : 0 < l.next now prev := by
  have hlt := l.push_lt hnow hprev
  unfold next
  split_ifs <;> linarith

theorem next_le (prev : K) (hout : l.deadZone ≤ now) :
    l.next now prev ≤ max now prev - l.decrement := by
  have habs : ¬ |now| < l.deadZone := not_lt.mpr (hout.trans (le_abs_self now))
  rw [next, if_neg habs]
  exact l.sub_push_le hout

/-- The errors of an orbit from above zero stay between zero and its start. -/
theorem orbit_bounds (hs : 0 < start) (n : ℕ) :
    0 < (l.orbit start n).1 ∧ 0 ≤ (l.orbit start n).2 ∧
      max (l.orbit start n).1 (l.orbit start n).2 ≤ start := by
  induction n with
  | zero => simp [orbit, hs, hs.le]
  | succ n ih =>
    obtain ⟨hnow, hprev, hmax⟩ := ih
    have hle := (le_max_left _ _).trans hmax
    refine ⟨l.next_pos hnow hprev, hnow.le, max_le ?_ hle⟩
    obtain hin | hout := lt_or_ge (l.orbit start n).1 l.deadZone
    · have habs : |(l.orbit start n).1| < l.deadZone := by rwa [abs_of_pos hnow]
      rw [orbit, next, if_pos habs]
      exact hle
    · have hnext := l.next_le (l.orbit start n).2 hout
      have hd := l.decrement_pos
      rw [orbit]
      linarith

/-- As long as it is outside of the dead zone, an orbit loses so much every two steps. -/
theorem orbit_descends (hs : 0 < start) (n : ℕ)
    (hout : ∀ k, l.deadZone ≤ (l.orbit start k).1) :
    max (l.orbit start (2 * n)).1 (l.orbit start (2 * n)).2 ≤ start - n * l.decrement := by
  induction n with
  | zero => simp [orbit, hs.le]
  | succ n ih =>
    have hd := l.decrement_pos
    have hone : (l.orbit start (2 * n + 1)).1 ≤
        max (l.orbit start (2 * n)).1 (l.orbit start (2 * n)).2 - l.decrement :=
      l.next_le _ (hout (2 * n))
    have htwo : (l.orbit start (2 * n + 2)).1 ≤
        max (l.orbit start (2 * n + 1)).1 (l.orbit start (2 * n)).1 - l.decrement :=
      l.next_le _ (hout (2 * n + 1))
    have hmid : max (l.orbit start (2 * n + 1)).1 (l.orbit start (2 * n)).1 ≤
        max (l.orbit start (2 * n)).1 (l.orbit start (2 * n)).2 :=
      max_le (by linarith) (le_max_left _ _)
    have hprev : (l.orbit start (2 * n + 2)).2 = (l.orbit start (2 * n + 1)).1 := rfl
    rw [show 2 * (n + 1) = 2 * n + 2 by omega, hprev]
    push_cast
    refine max_le ?_ ?_ <;> linarith

/-- What holds of an error of an orbit, on either side of zero. -/
structure Inside (start now prev : K) : Prop where
  side : SignType.sign now = SignType.sign start
  now_le : |now| ≤ |start|
  change_le : |now - prev| ≤ |start|
  next_lt : l.deadZone ≤ |now| → |l.next now prev| < |start|

theorem inside_of_pos (hs : 0 < start) (n : ℕ) :
    l.Inside start (l.orbit start n).1 (l.orbit start n).2 := by
  obtain ⟨hnow, hprev, hmax⟩ := l.orbit_bounds hs n
  have hle := (le_max_left _ _).trans hmax
  have hle' := (le_max_right _ _).trans hmax
  have hnext := l.next_pos hnow hprev
  constructor
  case side => rw [sign_pos hnow, sign_pos hs]
  case now_le => rwa [abs_of_pos hnow, abs_of_pos hs]
  case change_le =>
    rw [abs_of_pos hs]
    exact abs_le.mpr ⟨by linarith, by linarith⟩
  case next_lt =>
    intro hout
    rw [abs_of_pos hnow] at hout
    have hlow := l.next_le (l.orbit start n).2 hout
    have hd := l.decrement_pos
    rw [abs_of_pos hnext, abs_of_pos hs]
    linarith

theorem orbit_zero (n : ℕ) : l.orbit 0 n = (0, 0) := by
  induction n with
  | zero => rfl
  | succ n ih => simp [orbit, ih, next, l.deadZone_pos]

/-- Every error of an orbit is on the side of its start and no farther from zero. -/
theorem inside (start : K) (n : ℕ) :
    l.Inside start (l.orbit start n).1 (l.orbit start n).2 := by
  obtain hneg | rfl | hpos := lt_trichotomy start 0
  · have h := l.inside_of_pos (neg_pos.mpr hneg) n
    rw [orbit_neg] at h
    constructor
    case side =>
      have hside := h.side
      simp only [Left.sign_neg] at hside
      exact neg_injective hside
    case now_le => simpa using h.now_le
    case change_le =>
      have hchange := h.change_le
      rwa [abs_neg, ← neg_sub', abs_neg] at hchange
    case next_lt =>
      have hnext := h.next_lt
      simpa only [next_neg, abs_neg] using hnext
  · rw [orbit_zero]
    refine ⟨rfl, le_rfl, by simp, fun hout => ?_⟩
    simp only [abs_zero] at hout
    exact absurd l.deadZone_pos (not_lt.mpr hout)
  · exact l.inside_of_pos hpos n

theorem orbit_settles_of_pos [Archimedean K] (hs : 0 < start) :
    ∃ n, |(l.orbit start n).1| < l.deadZone := by
  by_contra hnever
  have hout : ∀ k, l.deadZone ≤ (l.orbit start k).1 := by
    intro k
    have hk := not_lt.mp fun h => hnever ⟨k, h⟩
    rwa [abs_of_pos (l.orbit_bounds hs k).1] at hk
  obtain ⟨n, hn⟩ := exists_nat_gt (start / l.decrement)
  have hlost : start < n * l.decrement := (div_lt_iff₀ l.decrement_pos).mp hn
  have hdown := l.orbit_descends hs n hout
  have hpos := (l.orbit_bounds hs (2 * n)).1
  have hmax := le_max_left (l.orbit start (2 * n)).1 (l.orbit start (2 * n)).2
  linarith

/-- From anywhere the dead zone is reached. -/
theorem orbit_settles [Archimedean K] (start : K) : ∃ n, |(l.orbit start n).1| < l.deadZone := by
  obtain hneg | rfl | hpos := lt_trichotomy start 0
  · obtain ⟨n, hn⟩ := l.orbit_settles_of_pos (neg_pos.mpr hneg)
    rw [orbit_neg, abs_neg] at hn
    exact ⟨n, hn⟩
  · exact ⟨0, by simpa [orbit] using l.deadZone_pos⟩
  · exact l.orbit_settles_of_pos hpos

end Loop

end Damping

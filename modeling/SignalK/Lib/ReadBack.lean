import SignalK.Lib.Rfc3339

/-! Decimal digits read back, and with them the instants that are written in UTC; and the
order of their texts among those of earlier years. -/
namespace Digits

theorem value_digit (n : Nat) : value (digit n) = some (n % 10) := by
  have hn := toNat_digit n
  have hlt : n % 10 < 10 := Nat.mod_lt n (by decide)
  rw [value, if_pos (by omega), hn, Nat.add_sub_cancel_left]

/-- The numbers of the last digits. -/
def values : Nat → Nat → List Nat
  | 0, _ => []
  | w + 1, n => values w (n / 10) ++ [n % 10]

@[simp] theorem length_values (w n : Nat) : (values w n).length = w := by
  induction w generalizing n with
  | zero => rfl
  | succ w ih => simp [values, ih]

theorem ofList_append_one (ds : List Nat) (d : Nat) : ofList (ds ++ [d]) = 10 * ofList ds + d := by
  simp [ofList]

theorem ofList_append_zeros (ds : List Nat) (k : Nat) :
    ofList (ds ++ List.replicate k 0) = ofList ds * 10 ^ k := by
  induction k with
  | zero => simp
  | succ k ih =>
    rw [List.replicate_succ', ← List.append_assoc, ofList_append_one, ih, Nat.pow_succ]
    ring

theorem ofList_values (w n : Nat) (h : n < 10 ^ w) : ofList (values w n) = n := by
  induction w generalizing n with
  | zero =>
    have hzero : n = 0 := by simpa using h
    rw [hzero]
    rfl
  | succ w ih =>
    rw [Nat.pow_succ] at h
    rw [values, ofList_append_one, ih _ (by omega)]
    omega

end Digits

namespace Rfc3339
open Calendar Digits Instant

theorem pair_digit (m n : Nat) : pair (digit m) (digit n) = some (10 * (m % 10) + n % 10) := by
  rw [pair, value_digit, value_digit]
  rfl

theorem digits_two (n : Nat) : digits 2 n = [digit (n / 10), digit n] := rfl

theorem digits_four (n : Nat) :
    digits 4 n = [digit (n / 10 / 10 / 10), digit (n / 10 / 10), digit (n / 10), digit n] := rfl

theorem takeDigits_digits (w n : Nat) {c : Char} (hc : value c = none) (cs : List Char) :
    takeDigits (digits w n ++ c :: cs) = (values w n, c :: cs) := by
  have happend : ∀ w n ds (rest : List Char), takeDigits rest = (ds, c :: cs) →
      takeDigits (digits w n ++ rest) = (values w n ++ ds, c :: cs) := by
    intro w
    induction w with
    | zero => exact fun n ds rest h => h
    | succ w ih =>
      intro n ds rest h
      rw [digits, values, List.append_assoc, List.append_assoc]
      refine ih (n / 10) ([n % 10] ++ ds) ([digit n] ++ rest) ?_
      rw [List.singleton_append, takeDigits, value_digit, h]
      rfl
  have hstop : takeDigits (c :: cs) = ([], c :: cs) := by
    rw [takeDigits, hc]
  rw [happend w n [] (c :: cs) hstop, List.append_nil]

/-- Three, six or nine digits, or none, stand for the nanoseconds. -/
theorem takeFraction_fraction {n : Nat} (hn : n < 10 ^ 9) {c : Char} (hc : value c = none)
    (hpoint : c ≠ '.') (cs : List Char) :
    ∃ ds, takeFraction (fraction n ++ c :: cs) = some (ds, c :: cs) ∧
      ofList ((ds ++ List.replicate 9 0).take 9) = n := by
  have hdigits : ∀ w m, 0 < w → takeFraction ('.' :: (digits w m ++ c :: cs)) =
      some (values w m, c :: cs) := by
    intro w m hw
    have hne : (values w m) ≠ [] := List.ne_nil_of_length_pos (by simpa using hw)
    rw [takeFraction, takeDigits_digits w m hc, if_neg hne]
  have hread : ∀ w m, w ≤ 9 → m < 10 ^ w → m * 10 ^ (9 - w) = n →
      ofList ((values w m ++ List.replicate 9 0).take 9) = n := by
    intro w m hw hm hmn
    have htake : (values w m ++ List.replicate 9 0).take 9 =
        values w m ++ List.replicate (9 - w) 0 := by
      rw [List.take_append, length_values, List.take_of_length_le (by simpa using hw),
        List.take_replicate, min_eq_left (Nat.sub_le 9 w)]
    rw [htake, ofList_append_zeros, ofList_values w m hm, hmn]
  unfold fraction
  split_ifs with h₀ h₃ h₆
  · refine ⟨[], ?_, by rw [h₀]; rfl⟩
    rw [List.nil_append, takeFraction]
    exact fun _ h => absurd (List.cons.inj h).1 hpoint
  · exact ⟨_, hdigits 3 _ (by omega), hread 3 _ (by omega) (by omega) (by omega)⟩
  · exact ⟨_, hdigits 6 _ (by omega), hread 6 _ (by omega) (by omega) (by omega)⟩
  · exact ⟨_, hdigits 9 _ (by omega), hread 9 _ (by omega) hn (by omega)⟩

/-- An instant whose year has four digits is read back as it was written. -/
theorem parse_utc {t : Int} (h : FourDigit t) : parse (utc t) = some ⟨t, 0⟩ := by
  obtain ⟨hy₀, hy₁⟩ := year_of_fourDigit h
  have hvalid : (date (day t)).Valid := date_valid (day t)
  have hday := hvalid.day_le
  have hmonth := hvalid.2.1
  have hnano : nano t < 10 ^ 9 := by
    simp only [nano]
    omega
  obtain ⟨ds, hfraction, hds⟩ := takeFraction_fraction hnano (show value '+' = none by decide)
    (by decide) ['0', '0', ':', '0', '0']
  have htext : (utc t).toList = dateText (date (day t)) ++ 'T' :: clockText t ++
      (fraction (nano t) ++ ['+', '0', '0', ':', '0', '0']) := by
    have hoffset : offsetText 0 = ['+', '0', '0', ':', '0', '0'] := by decide
    simp only [utc, toRfc3339, text, String.toList_ofList, hoffset, zero_mul, add_zero,
      List.append_assoc]
  have hyear : yearText (date (day t)).year = digits 4 (date (day t)).year.toNat :=
    if_pos (by omega)
  have hfields : fieldsOf (utc t).toList =
      some ⟨date (day t), hour t, minuteOfHour t, second t, ds, 0⟩ := by
    have hhour : hour t < 24 ∧ minuteOfHour t < 60 ∧ second t ≤ 60 := by
      simp only [hour, minuteOfHour, second, minute]
      omega
    rw [htext, dateText, hyear, digits_four, digits_two, digits_two, clockText, digits_two,
      digits_two, digits_two]
    simp only [List.cons_append, List.nil_append, fieldsOf, pair_digit, hfraction]
    have hzone : zone ['+', '0', '0', ':', '0', '0'] = some 0 := by decide
    have hnum : ∀ n, n < 100 → 10 * (n / 10 % 10) + n % 10 = n := fun n hn => by omega
    generalize date (day t) = d at hy₀ hy₁ hvalid hday hmonth ⊢
    have hdate : (⟨100 * ((10 * (d.year.toNat / 10 / 10 / 10 % 10) + d.year.toNat / 10 / 10 % 10 :
        Nat) : Int) + ((10 * (d.year.toNat / 10 % 10) + d.year.toNat % 10 : Nat) : Int), d.month,
        d.day⟩ : Date) = d := by
      have hyears : 100 * ((10 * (d.year.toNat / 10 / 10 / 10 % 10) + d.year.toNat / 10 / 10 % 10 :
          Nat) : Int) + ((10 * (d.year.toNat / 10 % 10) + d.year.toNat % 10 : Nat) : Int) =
          d.year := by omega
      rw [hyears]
    simp only [hzone, Option.bind_eq_bind, Option.bind_some, hnum d.month (by omega),
      hnum d.day (by omega), hnum (hour t) (by omega), hnum (minuteOfHour t) (by omega),
      hnum (second t) (by omega)]
    rw [hdate, if_pos ⟨trivial, trivial, .inl trivial, trivial, trivial, hvalid, hhour⟩]
  rw [parse, hfields, Option.map_some, Fields.dateTime, hds]
  have hstart : Fields.start ⟨date (day t), hour t, minuteOfHour t, second t, ds, 0⟩ + nano t =
      t := by
    simp only [Fields.start, number_date, hour, minuteOfHour, second, nano, day, minutes, minute]
    omega
  rw [hstart]

/-! Years before 0 are written with a sign, which stands before every digit. -/

theorem year_neg {t : Int} (h : t < startOfYear 0) : (date (day t)).year < 0 := by
  have hspec := (yearOf_spec (day t)).1
  have hzero : startOfYear 0 = 0 := by decide
  have hday : day t < 0 := by
    simp only [day, minutes, minute]
    omega
  by_contra hle
  have hmono := yearStart_mono (not_lt.mp hle)
  have hstart : yearStart 0 = 0 := by decide
  have hyear : (date (day t)).year = yearOf (day t) := rfl
  rw [hyear, hstart] at hmono
  omega

theorem utc_lt_of_neg {s t : Int} (ht : t < startOfYear 0) (hs : FourDigit s) :
    (utc t).toList < (utc s).toList := by
  obtain ⟨d, ds, hd⟩ := utc_head hs
  have hyear := year_neg ht
  have hsign : ∃ cs, (utc t).toList = '-' :: cs := by
    have htext : yearText (date (day t)).year = '-' :: (yearText (date (day t)).year).tail := by
      rw [yearText, if_neg (by omega), if_pos hyear, List.tail_cons]
    simp only [utc, toRfc3339, text, dateText, String.toList_ofList, zero_mul, add_zero]
    rw [htext]
    exact ⟨_, rfl⟩
  obtain ⟨cs, hcs⟩ := hsign
  rw [hcs, hd]
  apply List.Lex.rel
  rw [Char.lt_def, UInt32.lt_iff_toNat_lt]
  change 45 < (digit d).toNat
  rw [toNat_digit]
  omega

/-- Instants with a year of four digits compare as texts with all that are before the year
10000. -/
theorem utc_le_iff_of_lt {s t : Int} (ht : t < startOfYear 10000) (hs : FourDigit s) :
    (utc t).toList ≤ (utc s).toList ↔ t ≤ s := by
  by_cases hneg : t < startOfYear 0
  · exact iff_of_true (utc_lt_of_neg hneg hs).le (hneg.le.trans hs.1)
  · exact utc_le_iff ⟨not_lt.mp hneg, ht⟩ hs

theorem le_utc_iff_of_lt {s t : Int} (ht : t < startOfYear 10000) (hs : FourDigit s) :
    (utc s).toList ≤ (utc t).toList ↔ s ≤ t := by
  by_cases hneg : t < startOfYear 0
  · exact iff_of_false (not_le.mpr (utc_lt_of_neg hneg hs)) (not_le.mpr (hneg.trans_le hs.1))
  · exact utc_le_iff hs ⟨not_lt.mp hneg, ht⟩

end Rfc3339

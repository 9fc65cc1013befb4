import Mathlib.Data.Rat.Defs
import SignalK.Lib.Calendar
import SignalK.Lib.Digits

/-! RFC 3339 date-times. An instant is a number of nanoseconds since the start of year 0
in UTC, on a time line that gives every minute a sixty-first second: the place of a leap
second, which most minutes leave empty. -/
namespace Rfc3339
open Calendar Digits


/-- The length of a minute with its leap second. -/
def minute : Int := 61000000000

/-- The first instant of a year. -/
def startOfYear (y : Int) : Int :=
  yearStart y * 1440 * minute

namespace Instant

def minutes (t : Int) : Int := t / minute
def day (t : Int) : Int := minutes t / 1440
def hour (t : Int) : Nat := (minutes t % 1440).toNat / 60
def minuteOfHour (t : Int) : Nat := (minutes t % 1440).toNat % 60

/-- The second of the minute, 60 in a leap second. -/
def second (t : Int) : Nat := (t % minute / 1000000000).toNat

def nano (t : Int) : Nat := (t % 1000000000).toNat

/-- Adds whole seconds; what leaves a leap second counts it as the one before when it
goes forward, and as the one after when it goes back. -/
def addSeconds (t : Int) (n : Int) : Int :=
  if n = 0 then t
  else
    let s := if second t = 60 ∧ 0 < n then 59 else (second t : Int)
    let total := minutes t * 60 + s + n
    total / 60 * minute + total % 60 * 1000000000 + nano t

end Instant

open Instant

def yearText (y : Int) : List Char :=
  if 0 ≤ y ∧ y ≤ 9999 then digits 4 y.toNat
  else
    let n := y.natAbs
    (if y < 0 then '-' else '+') ::
      (if n ≤ 9999 then digits 4 n else if n ≤ 99999 then digits 5 n else digits 6 n)

def dateText (d : Date) : List Char :=
  yearText d.year ++ '-' :: digits 2 d.month ++ '-' :: digits 2 d.day

def fraction (n : Nat) : List Char :=
  if n = 0 then []
  else if n % 1000000 = 0 then '.' :: digits 3 (n / 1000000)
  else if n % 1000 = 0 then '.' :: digits 6 (n / 1000)
  else '.' :: digits 9 n

def clockText (t : Int) : List Char :=
  digits 2 (hour t) ++ ':' :: digits 2 (minuteOfHour t) ++ ':' :: digits 2 (second t)

def offsetText (offset : Int) : List Char :=
  (if offset < 0 then '-' else '+') ::
    digits 2 (offset.natAbs / 60) ++ ':' :: digits 2 (offset.natAbs % 60)

/-- A date and time of day with its offset from UTC in minutes. -/
structure DateTime where
  instant : Int
  offset : Int
  deriving DecidableEq

def text (d : DateTime) : List Char :=
  let t := d.instant + d.offset * minute
  dateText (date (day t)) ++ 'T' :: clockText t ++ fraction (nano t) ++ offsetText d.offset

/-- `to_rfc3339`: as many of the groups of three fractional digits as are needed. -/
def toRfc3339 (d : DateTime) : String :=
  String.ofList (text d)

/-- The same of an instant in UTC. -/
def utc (t : Int) : String :=
  toRfc3339 { instant := t, offset := 0 }

/-- What the fields of a text say, with all its fractional digits. -/
structure Fields where
  date : Date
  hour : Nat
  minute : Nat
  second : Nat
  fraction : List Nat
  offset : Int

namespace Fields

/-- The instant without its fraction. -/
def start (f : Fields) : Int :=
  ((f.date.number * 1440 + f.hour * 60 + f.minute - f.offset) * Rfc3339.minute) +
    f.second * 1000000000

/-- The instant that the text names, exactly. -/
def exact (f : Fields) : ℚ :=
  f.start + (ofList f.fraction : ℚ) * 1000000000 / (10 : ℚ) ^ f.fraction.length

/-- The instant as it is held: digits after the ninth are skipped. -/
def dateTime (f : Fields) : DateTime where
  instant := f.start + (ofList ((f.fraction ++ List.replicate 9 0).take 9) : Nat)
  offset := f.offset

end Fields

def pair (a b : Char) : Option Nat := do
  let x ← value a
  let y ← value b
  some (10 * x + y)

def takeDigits : List Char → List Nat × List Char
  | [] => ([], [])
  | c :: cs =>
    match value c with
    | some d => (d :: (takeDigits cs).1, (takeDigits cs).2)
    | none => ([], c :: cs)

/-- The fractional digits, at least one after a point, and what follows them. -/
def takeFraction : List Char → Option (List Nat × List Char)
  | '.' :: cs => if (takeDigits cs).1 = [] then none else some (takeDigits cs)
  | cs => some ([], cs)

/-- `Z` or a numeric offset in minutes, up to the end of the text. -/
def zone : List Char → Option Int
  | [z] => if z = 'Z' ∨ z = 'z' then some 0 else none
  | [sign, a, b, colon, c, d] => do
    let h ← pair a b
    let m ← pair c d
    if colon = ':' ∧ h < 24 ∧ m < 60 then
      if sign = '+' then some (h * 60 + m)
      -- the typographic minus sign is read as well
      else if sign = '-' ∨ sign = '\u2212' then some (-(h * 60 + m))
      else none
    else none
  | _ => none

def fieldsOf (cs : List Char) : Option Fields :=
  match cs with
  | y₁ :: y₂ :: y₃ :: y₄ :: dash :: m₁ :: m₂ :: dash' :: d₁ :: d₂ :: sep ::
      h₁ :: h₂ :: colon :: n₁ :: n₂ :: colon' :: s₁ :: s₂ :: rest => do
    let century ← pair y₁ y₂
    let year ← pair y₃ y₄
    let month ← pair m₁ m₂
    let day ← pair d₁ d₂
    let hour ← pair h₁ h₂
    let minute ← pair n₁ n₂
    let second ← pair s₁ s₂
    let (fraction, rest) ← takeFraction rest
    let offset ← zone rest
    let date : Date := { year := 100 * century + year, month := month, day := day }
    if dash = '-' ∧ dash' = '-' ∧ (sep = 'T' ∨ sep = 't' ∨ sep = ' ') ∧ colon = ':' ∧
        colon' = ':' ∧ date.Valid ∧ hour < 24 ∧ minute < 60 ∧ second ≤ 60 then
      some { date, hour, minute, second, fraction, offset }
    else none
  | _ => none

/-- `DateTime::parse_from_rfc3339` -/
def parse (s : String) : Option DateTime :=
  (fieldsOf s.toList).map Fields.dateTime

/-- The instant that a valid text names. -/
def instantOf (s : String) : Option ℚ :=
  (fieldsOf s.toList).map Fields.exact

example : instantOf "2026-03-02T13:00:00.5+01:00" = instantOf "2026-03-02 12:00:00.500z" := by
  decide +kernel

/-- The instants whose year has four digits. -/
def FourDigit (t : Int) : Prop :=
  startOfYear 0 ≤ t ∧ t < startOfYear 10000

instance (t : Int) : Decidable (FourDigit t) := by
  unfold FourDigit
  infer_instance

theorem fraction_eq {n : Nat} (h : 0 < n) (hn : n < 10 ^ 9) :
    fraction n = '.' :: (digits 3 (n / 1000000) ++
      if n % 1000000 = 0 then []
      else digits 3 (n / 1000 % 1000) ++ if n % 1000 = 0 then [] else digits 3 (n % 1000)) := by
  have h₆ : digits 6 (n / 1000) = digits 3 (n / 1000000) ++ digits 3 (n / 1000 % 1000) := by
    rw [← digits_append 3 3 _ (by omega)]
    congr 1
    omega
  have h₉ : digits 9 n = digits 6 (n / 1000) ++ digits 3 (n % 1000) := by
    rw [← digits_append 6 3 _ (by omega)]
    congr 1
    omega
  have h₀ : n ≠ 0 := by omega
  unfold fraction
  rw [if_neg h₀]
  split
  · simp
  · split
    · rw [h₆]
      simp
    · rw [h₉, h₆]
      simp

/-- Fractions keep their order when a sign follows that stands below the point. -/
theorem fraction_lt {m n : Nat} (h : m < n) (hn : n < 10 ^ 9) {c : Char} (hc : c < '.')
    (x y : List Char) : fraction m ++ c :: x < fraction n ++ y := by
  have hd : c.toNat < 48 := by
    rw [Char.lt_def, UInt32.lt_iff_toNat_lt] at hc
    change c.toNat < 46 at hc
    omega
  rw [fraction_eq (by omega) hn]
  rcases Nat.eq_zero_or_pos m with rfl | hm
  · exact List.Lex.rel hc
  · rw [fraction_eq hm (by omega)]
    simp only [List.cons_append, List.append_assoc]
    apply List.Lex.cons
    rcases Nat.lt_or_ge (m / 1000000) (n / 1000000) with h₃ | h₃
    · exact digits_lt h₃ (by omega) _ _
    have e₃ : m / 1000000 = n / 1000000 := by omega
    rw [e₃]
    apply List.append_left_lt
    have hn₆ : n % 1000000 ≠ 0 := by omega
    rw [if_neg hn₆]
    split
    · rw [List.append_assoc]
      exact lt_digits (by decide) hd _ _
    simp only [List.append_assoc]
    rcases Nat.lt_or_ge (m / 1000 % 1000) (n / 1000 % 1000) with h₆ | h₆
    · exact digits_lt h₆ (by omega) _ _
    have e₆ : m / 1000 % 1000 = n / 1000 % 1000 := by omega
    rw [e₆]
    apply List.append_left_lt
    have hn₉ : n % 1000 ≠ 0 := by omega
    rw [if_neg hn₉]
    split
    · exact lt_digits (by decide) hd _ _
    · exact digits_lt (by omega) (by omega) _ _

theorem dateText_lt {d e : Date} (h : d.Before e) (he : e.Valid) (hd₀ : 0 ≤ d.year)
    (he₁ : e.year ≤ 9999) (x y : List Char) : dateText d ++ x < dateText e ++ y := by
  have hday := he.day_le
  have hmonth := he.2.1
  simp only [Date.Before] at h
  have hd₁ : 0 ≤ d.year ∧ d.year ≤ 9999 := by omega
  have he₂ : 0 ≤ e.year ∧ e.year ≤ 9999 := by omega
  simp only [dateText, yearText, if_pos hd₁, if_pos he₂, List.append_assoc, List.cons_append]
  rcases h with h | ⟨hy, h | ⟨hm, h⟩⟩
  · exact digits_lt (by omega) (by omega) _ _
  · rw [hy]
    apply List.append_left_lt
    apply List.Lex.cons
    exact digits_lt h (by omega) _ _
  · rw [hy, hm]
    apply List.append_left_lt
    apply List.Lex.cons
    apply List.append_left_lt
    apply List.Lex.cons
    exact digits_lt h (by omega) _ _

theorem year_of_fourDigit {t : Int} (h : FourDigit t) :
    0 ≤ (date (day t)).year ∧ (date (day t)).year < 10000 := by
  obtain ⟨h₀, h₁⟩ := h
  apply date_year_bounds
  · simp only [startOfYear, minute] at h₀
    simp only [day, minutes, minute]
    omega
  · simp only [startOfYear, minute] at h₁
    simp only [day, minutes, minute]
    omega

theorem clockText_lt {s t : Int} (hday : day s = day t) (h : s / 1000000000 < t / 1000000000)
    (x y : List Char) : clockText s ++ x < clockText t ++ y := by
  have hsec : second s < 61 ∧ second t < 61 := by
    simp only [second, minute]
    omega
  simp only [day] at hday
  simp only [clockText, List.append_assoc, List.cons_append]
  rcases Nat.lt_or_ge (hour s) (hour t) with h₁ | h₁
  · apply digits_lt h₁
    simp only [hour]
    omega
  have hmin : minutes s ≤ minutes t := by
    simp only [minutes, minute]
    omega
  have e₁ : hour s = hour t := by
    simp only [hour] at h₁ ⊢
    omega
  rw [e₁]
  apply List.append_left_lt
  apply List.Lex.cons
  rcases Nat.lt_or_ge (minuteOfHour s) (minuteOfHour t) with h₂ | h₂
  · apply digits_lt h₂
    simp only [minuteOfHour]
    omega
  have e₂ : minuteOfHour s = minuteOfHour t := by
    simp only [minuteOfHour, hour] at e₁ h₂ ⊢
    omega
  rw [e₂]
  apply List.append_left_lt
  apply List.Lex.cons
  have e₃ : minutes s = minutes t := by
    simp only [minuteOfHour, hour] at e₁ e₂
    omega
  apply digits_lt _ (by omega)
  simp only [minutes, minute] at e₃
  simp only [second, minute]
  omega

/-- The texts of instants in UTC are in the order of the instants. -/
theorem utc_lt {s t : Int} (hs : FourDigit s) (ht : FourDigit t) (h : s < t) :
    (utc s).toList < (utc t).toList := by
  obtain ⟨hs₀, hs₁⟩ := year_of_fourDigit hs
  obtain ⟨ht₀, ht₁⟩ := year_of_fourDigit ht
  simp only [utc, toRfc3339, text, String.toList_ofList, zero_mul, add_zero, List.append_assoc,
    List.cons_append]
  have hle : day s ≤ day t := by
    simp only [day, minutes, minute]
    omega
  rcases lt_or_eq_of_le hle with hday | hday
  · exact dateText_lt (date_before hday) (date_valid _) hs₀ (by omega) _ _
  rw [hday]
  apply List.append_left_lt
  apply List.Lex.cons
  have hsec : s / 1000000000 ≤ t / 1000000000 := by omega
  rcases lt_or_eq_of_le hsec with hsec | hsec
  · exact clockText_lt hday hsec _ _
  have hclock : clockText s = clockText t := by
    have hm : minutes s = minutes t := by
      simp only [minutes, minute]
      omega
    have h₂ : second s = second t := by
      simp only [minutes, minute] at hm
      simp only [second, minute]
      omega
    simp only [clockText, hour, minuteOfHour, hm, h₂]
  rw [hclock]
  apply List.append_left_lt
  have hnano : nano s < nano t := by
    simp only [nano]
    omega
  have hbound : nano t < 10 ^ 9 := by
    simp only [nano]
    omega
  exact fraction_lt hnano hbound (by decide) _ _

theorem utc_le_iff {s t : Int} (hs : FourDigit s) (ht : FourDigit t) :
    (utc s).toList ≤ (utc t).toList ↔ s ≤ t := by
  constructor
  · intro h
    by_contra hlt
    exact not_lt.mpr h (utc_lt ht hs (not_le.mp hlt))
  · intro h
    rcases lt_or_eq_of_le h with h | rfl
    · exact (utc_lt hs ht h).le
    · exact le_rfl

theorem utc_injective {s t : Int} (hs : FourDigit s) (ht : FourDigit t) (h : utc s = utc t) :
    s = t := by
  apply le_antisymm
  · rw [← utc_le_iff hs ht, h]
  · rw [← utc_le_iff ht hs, h]

/-- The text that bounds texts in UTC as `t` bounds their instants. -/
def boundText (t : Int) : String :=
  if t < startOfYear 0 then ""
  else if startOfYear 10000 ≤ t then "~"
  else utc t

theorem utc_head {t : Int} (h : FourDigit t) : ∃ d ds, (utc t).toList = digit d :: ds := by
  obtain ⟨h₀, h₁⟩ := year_of_fourDigit h
  have hy : 0 ≤ (date (day t)).year ∧ (date (day t)).year ≤ 9999 := by omega
  obtain ⟨d, ds, hd⟩ := exists_digits_cons (show 0 < 4 by decide) (date (day t)).year.toNat
  simp only [utc, toRfc3339, text, dateText, yearText, String.toList_ofList, zero_mul, add_zero,
    if_pos hy, hd, List.cons_append]
  exact ⟨d, _, rfl⟩

theorem utc_ne_empty {t : Int} (h : FourDigit t) : utc t ≠ "" := by
  obtain ⟨d, ds, hd⟩ := utc_head h
  intro he
  rw [he] at hd
  cases hd

theorem utc_lt_tilde {t : Int} (h : FourDigit t) : (utc t).toList < ['~'] := by
  obtain ⟨d, ds, hd⟩ := utc_head h
  rw [hd]
  apply List.Lex.rel
  rw [Char.lt_def, UInt32.lt_iff_toNat_lt]
  change (digit d).toNat < 126
  rw [toNat_digit]
  omega

theorem boundText_le_iff {s : Int} (hs : FourDigit s) (t : Int) :
    (boundText t).toList ≤ (utc s).toList ↔ t ≤ s := by
  obtain ⟨h₀, h₁⟩ := hs
  unfold boundText
  split
  · next h =>
    have hle : t ≤ s := by omega
    have hnil : ¬ (utc s).toList < [] := List.not_lex_nil
    exact iff_of_true (not_lt.mp hnil) hle
  · split
    · next h =>
      have hgt : ¬ t ≤ s := by omega
      exact iff_of_false (not_le.mpr (utc_lt_tilde ⟨h₀, h₁⟩)) hgt
    · exact utc_le_iff ⟨by omega, by omega⟩ ⟨h₀, h₁⟩

theorem le_boundText_iff {s : Int} (hs : FourDigit s) (t : Int) :
    (utc s).toList ≤ (boundText t).toList ↔ s ≤ t := by
  obtain ⟨h₀, h₁⟩ := hs
  obtain ⟨d, ds, hd⟩ := utc_head ⟨h₀, h₁⟩
  unfold boundText
  split
  · next h =>
    have hgt : ¬ s ≤ t := by omega
    simp [hd, hgt]
  · split
    · next h =>
      have hle : s ≤ t := by omega
      exact iff_of_true (utc_lt_tilde ⟨h₀, h₁⟩).le hle
    · exact utc_le_iff ⟨h₀, h₁⟩ ⟨by omega, by omega⟩

theorem utf8Size_of_value {c : Char} {n : Nat} (h : value c = some n) : c.utf8Size = 1 := by
  unfold value at h
  split at h
  · next hc =>
    have hle : c.val ≤ 127 := by
      rw [UInt32.le_iff_toNat_le]
      change c.toNat ≤ 127
      omega
    simp [Char.utf8Size, hle]
  · cases h

theorem utf8Size_of_pair {a b : Char} {n : Nat} (h : pair a b = some n) :
    a.utf8Size = 1 ∧ b.utf8Size = 1 := by
  simp only [pair, bind, Option.bind_eq_some_iff] at h
  obtain ⟨x, hx, y, hy, _⟩ := h
  exact ⟨utf8Size_of_value hx, utf8Size_of_value hy⟩

/-- A valid text begins with a date of ten bytes. -/
theorem ascii_of_fieldsOf {cs : List Char} {f : Fields} (h : fieldsOf cs = some f) :
    10 ≤ cs.length ∧ ∀ c ∈ cs.take 10, c.utf8Size = 1 := by
  unfold fieldsOf at h
  split at h
  · simp only [bind, Option.bind_eq_some_iff] at h
    obtain ⟨_, hy, _, hy', _, hm, _, hd, _, _, _, _, _, _, _, _, _, _, h⟩ := h
    split at h
    · next hc =>
      obtain ⟨rfl, rfl, _⟩ := hc
      obtain ⟨h₁, h₂⟩ := utf8Size_of_pair hy
      obtain ⟨h₃, h₄⟩ := utf8Size_of_pair hy'
      obtain ⟨h₅, h₆⟩ := utf8Size_of_pair hm
      obtain ⟨h₇, h₈⟩ := utf8Size_of_pair hd
      have hdash : ('-' : Char).utf8Size = 1 := by decide
      constructor
      · simp only [List.length_cons]
        omega
      · simp [h₁, h₂, h₃, h₄, h₅, h₆, h₇, h₈, hdash]
    · cases h
  · cases h

theorem ascii_digits {w n : Nat} {c : Char} (h : c ∈ digits w n) : c.utf8Size = 1 := by
  obtain ⟨d, rfl⟩ := mem_digits h
  have hle : (digit d).val ≤ 127 := by
    rw [UInt32.le_iff_toNat_le]
    change (digit d).toNat ≤ 127
    rw [toNat_digit]
    omega
  simp [Char.utf8Size, hle]

theorem ascii_yearText {y : Int} {c : Char} (h : c ∈ yearText y) : c.utf8Size = 1 := by
  have hsign : ('-' : Char).utf8Size = 1 ∧ ('+' : Char).utf8Size = 1 := by decide
  unfold yearText at h
  split at h
  · exact ascii_digits h
  · rcases List.mem_cons.mp h with rfl | h
    · split
      · exact hsign.1
      · exact hsign.2
    · repeat' split at h
      all_goals exact ascii_digits h

theorem length_yearText (y : Int) : 4 ≤ (yearText y).length := by
  unfold yearText
  split
  · simp
  · rw [List.length_cons]
    repeat' split
    all_goals simp

/-- The first ten bytes of a written date-time can always be cut off. -/
theorem ascii_text (d : DateTime) :
    10 ≤ (text d).length ∧ ∀ c ∈ (text d).take 10, c.utf8Size = 1 := by
  have hdash : ('-' : Char).utf8Size = 1 := by decide
  have hdate (e : Date) : ∀ c ∈ dateText e, c.utf8Size = 1 := by
    intro c hc
    simp only [dateText, List.mem_append, List.mem_cons] at hc
    rcases hc with (hc | rfl | hc) | rfl | hc
    · exact ascii_yearText hc
    · exact hdash
    · exact ascii_digits hc
    · exact hdash
    · exact ascii_digits hc
  have hlen (e : Date) : 10 ≤ (dateText e).length := by
    have := length_yearText e.year
    simp only [dateText, List.length_append, List.length_cons, length_digits]
    omega
  simp only [text, List.append_assoc]
  generalize date (day (d.instant + d.offset * minute)) = e
  constructor
  · rw [List.length_append]
    have := hlen e
    omega
  · rw [List.take_append_of_le_length (hlen e)]
    exact fun c hc => hdate e c (List.mem_of_mem_take hc)

end Rfc3339

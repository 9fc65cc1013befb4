import SignalK.History.Query
import SignalK.Types.FloatText

/-! Which texts are read as a duration. The scanner cuts the text after the `P` at the
designators it knows; what it does with the pieces decides whether it reads the grammar. -/
namespace SignalK
open FloatText

inductive TimeUnit where
  | days
  | hours
  | minutes
  | seconds
  deriving DecidableEq

namespace TimeUnit

def letter : TimeUnit → Char
  | days => 'D'
  | hours => 'H'
  | minutes => 'M'
  | seconds => 'S'

def secs : TimeUnit → ℚ
  | days => 86400
  | hours => 3600
  | minutes => 60
  | seconds => 1

/-- The unit of a designator, before or after the `T`. -/
def designated (inTime : Bool) (c : Char) : Option TimeUnit :=
  match inTime, c with
  | false, 'D' => some days
  | true, 'H' => some hours
  | true, 'M' => some minutes
  | true, 'S' => some seconds
  | _, _ => none

end TimeUnit

/-- What the scanner cuts off: a number with its unit, or what it skips before a `T`. -/
inductive Piece where
  | part (number : List Char) (unit : TimeUnit)
  | mark (skipped : List Char)
  deriving DecidableEq

namespace Piece

/-- The pieces of a text, and what is left after the last designator. -/
def scan : Bool → List Char → List Char → List Piece × List Char
  | _, number, [] => ([], number)
  | inTime, number, c :: rest =>
    if c = 'T' then (.mark number :: (scan true [] rest).1, (scan true [] rest).2)
    else
      match TimeUnit.designated inTime c with
      | none => scan inTime (number ++ [c]) rest
      | some unit => (.part number unit :: (scan inTime [] rest).1, (scan inTime [] rest).2)

/-- The text of a piece. -/
def text : Piece → List Char
  | .part number unit => number ++ [unit.letter]
  | .mark skipped => skipped ++ ['T']

theorem letter_of_designated {inTime : Bool} {c : Char} {unit : TimeUnit}
    (h : TimeUnit.designated inTime c = some unit) : unit.letter = c := by
  unfold TimeUnit.designated at h
  split at h
  all_goals first | (cases h; rfl) | cases h

/-- The pieces and the rest make up the text. -/
theorem text_scan (inTime : Bool) (number cs : List Char) :
    (scan inTime number cs).1.flatMap text ++ (scan inTime number cs).2 = number ++ cs := by
  induction cs generalizing inTime number with
  | nil => simp [scan]
  | cons c cs ih =>
    rw [scan]
    by_cases hT : c = 'T'
    · simp [hT, text, ih]
    · rw [if_neg hT]
      cases hu : TimeUnit.designated inTime c with
      | none => simp [ih]
      | some unit => simp [text, letter_of_designated hu, ih]

/-- Characters that are no designators are gathered. -/
theorem scan_gather (inTime : Bool) (number cs rest : List Char)
    (h : ∀ c ∈ cs, c ≠ 'T' ∧ TimeUnit.designated inTime c = none) :
    scan inTime number (cs ++ rest) = scan inTime (number ++ cs) rest := by
  induction cs generalizing number with
  | nil => simp
  | cons c cs ih =>
    obtain ⟨hT, hu⟩ := h c List.mem_cons_self
    have hrest := ih (number ++ [c]) fun c' hc' => h c' (List.mem_cons_of_mem c hc')
    rw [List.cons_append, scan, if_neg hT, hu]
    simpa using hrest

end Piece

/-- The parts of a duration after the `T`. -/
structure ClockTime where
  hours : Option Decimal
  minutes : Option Decimal
  seconds : Option Decimal

/-- The pieces of a number that may be missing. -/
def Decimal.pieces (unit : TimeUnit) (d : Option Decimal) : List Piece :=
  d.toList.map fun d => .part d.text unit

def Decimal.amount (unit : TimeUnit) (d : Option Decimal) : ℚ :=
  (d.map Decimal.value).getD 0 * unit.secs

namespace ClockTime

def pieces (t : ClockTime) : List Piece :=
  Decimal.pieces .hours t.hours ++ Decimal.pieces .minutes t.minutes ++
    Decimal.pieces .seconds t.seconds

def secs (t : ClockTime) : ℚ :=
  Decimal.amount .hours t.hours + Decimal.amount .minutes t.minutes +
    Decimal.amount .seconds t.seconds

end ClockTime

/-- `P[nD][T[nH][nM][nS]]` with at least one component. -/
structure IsoDuration where
  days : Option Decimal
  time : Option ClockTime
  component : days ≠ none ∨ ∃ t, time = some t ∧ t.pieces ≠ []

namespace IsoDuration

def pieces (t : IsoDuration) : List Piece :=
  Decimal.pieces .days t.days ++
    match t.time with
    | none => []
    | some time => .mark [] :: time.pieces

def text (t : IsoDuration) : List Char := 'P' :: t.pieces.flatMap Piece.text

def secs (t : IsoDuration) : ℚ :=
  Decimal.amount .days t.days + (t.time.map ClockTime.secs).getD 0

end IsoDuration

section
variable {inTime : Bool} {unit : TimeUnit}

theorem mem_digitsText {ds : List (Fin 10)} {c : Char} (h : c ∈ Decimal.digitsText ds) :
    ∃ k : Fin 10, c = Digits.digit k.val := by
  obtain ⟨k, -, hk⟩ := List.mem_map.mp h
  exact ⟨k, hk.symm⟩

theorem mem_decimal {d : Decimal} {c : Char} (h : c ∈ d.text) :
    c = '.' ∨ ∃ k : Fin 10, c = Digits.digit k.val := by
  obtain ⟨whole, fraction, complete⟩ := d
  simp only [Decimal.text, List.mem_append] at h
  cases h with
  | inl hwhole => exact .inr (mem_digitsText hwhole)
  | inr hrest =>
    split_ifs at hrest
    · cases hrest
    · cases List.mem_cons.mp hrest with
      | inl hpoint => exact .inl hpoint
      | inr hfraction => exact .inr (mem_digitsText hfraction)

theorem gathers_decimal {d : Decimal} {c : Char} (h : c ∈ d.text) :
    c ≠ 'T' ∧ TimeUnit.designated inTime c = none := by
  have hdigit : ∀ (inTime : Bool) (k : Fin 10), Digits.digit k.val ≠ 'T' ∧
      TimeUnit.designated inTime (Digits.digit k.val) = none := by decide
  have hpoint : ∀ inTime : Bool, '.' ≠ 'T' ∧ TimeUnit.designated inTime '.' = none := by decide
  obtain rfl | ⟨k, rfl⟩ := mem_decimal h
  · exact hpoint inTime
  · exact hdigit inTime k

theorem scan_pieces (hu : TimeUnit.designated inTime unit.letter = some unit) (d : Option Decimal)
    (rest : List Char) :
    Piece.scan inTime [] ((Decimal.pieces unit d).flatMap Piece.text ++ rest) =
      (Decimal.pieces unit d ++ (Piece.scan inTime [] rest).1, (Piece.scan inTime [] rest).2) := by
  have hT : unit.letter ≠ 'T' := by cases unit <;> decide
  cases d with
  | none => rfl
  | some d =>
    have htext : (Decimal.pieces unit (some d)).flatMap Piece.text ++ rest =
        d.text ++ unit.letter :: rest := by simp [Decimal.pieces, Piece.text]
    rw [htext, Piece.scan_gather inTime [] _ _ fun c hc => gathers_decimal hc, Piece.scan,
      if_neg hT, hu]
    rfl

theorem scan_clock (t : ClockTime) :
    Piece.scan true [] (t.pieces.flatMap Piece.text) = (t.pieces, []) := by
  have hseconds : Piece.scan true []
      ((Decimal.pieces .seconds t.seconds).flatMap Piece.text ++ []) =
      (Decimal.pieces .seconds t.seconds ++ [], []) := scan_pieces rfl t.seconds []
  rw [List.append_nil] at hseconds
  simp only [ClockTime.pieces, List.flatMap_append, List.append_assoc]
  rw [scan_pieces rfl, scan_pieces rfl, hseconds]
  simp

/-- The scanner finds the pieces of a duration. -/
theorem scan_duration (t : IsoDuration) :
    Piece.scan false [] (t.pieces.flatMap Piece.text) = (t.pieces, []) := by
  simp only [IsoDuration.pieces, List.flatMap_append]
  rw [scan_pieces rfl]
  cases t.time with
  | none => rfl
  | some time =>
    have hmark : Piece.scan false [] ((Piece.mark [] :: time.pieces).flatMap Piece.text) =
        (.mark [] :: (Piece.scan true [] (time.pieces.flatMap Piece.text)).1,
          (Piece.scan true [] (time.pieces.flatMap Piece.text)).2) := rfl
    rw [hmark, scan_clock]

end

namespace Piece

/-- The place of a piece in a duration. -/
def rank : Piece → Nat
  | .part _ .days => 0
  | .mark _ => 1
  | .part _ .hours => 2
  | .part _ .minutes => 3
  | .part _ .seconds => 4

theorem rank_le (p : Piece) : p.rank ≤ 4 := by
  cases p with
  | mark skipped => exact (by decide : 1 ≤ 4)
  | part number unit => cases unit <;> simp [rank]

end Piece

/-- The pieces are those of a duration: each at most once and in their order, nothing
skipped, every number complete. -/
structure Tidy (ps : List Piece) : Prop where
  order : ps.Pairwise fun p q => p.rank < q.rank
  unskipped : ∀ skipped, .mark skipped ∈ ps → skipped = []
  complete : ∀ number unit, .part number unit ∈ ps → ∃ d : Decimal, number = d.text

/-- The first piece of an ordered list, if it is the one of a place. -/
theorem exists_head {ps : List Piece} {k : Nat} (ho : ps.Pairwise fun p q => p.rank < q.rank)
    (hk : ∀ p ∈ ps, k ≤ p.rank) :
    ∃ (head : Option Piece) (tail : List Piece), ps = head.toList ++ tail ∧
      (∀ p ∈ head, p.rank = k) ∧ tail.Pairwise (fun p q => p.rank < q.rank) ∧
      ∀ p ∈ tail, k + 1 ≤ p.rank := by
  cases ps with
  | nil => exact ⟨none, [], rfl, (fun _ h => nomatch h), .nil, fun _ h => nomatch h⟩
  | cons p ps =>
    obtain ⟨hfirst, hrest⟩ := List.pairwise_cons.mp ho
    by_cases hp : p.rank = k
    · refine ⟨some p, ps, rfl, fun q hq => ?_, hrest, fun q hq => ?_⟩
      · rw [← Option.some.inj hq]
        exact hp
      · have hlt := hfirst q hq
        omega
    · have hle := hk p List.mem_cons_self
      refine ⟨none, p :: ps, rfl, (fun _ h => nomatch h), ho, fun q hq => ?_⟩
      cases List.mem_cons.mp hq with
      | inl h =>
        rw [h]
        omega
      | inr h =>
        have hlt := hfirst q h
        omega

/-- Before a `T` only days are found. -/
theorem rank_of_no_mark (number cs : List Char)
    (h : ∀ skipped, .mark skipped ∉ (Piece.scan false number cs).1) :
    ∀ p ∈ (Piece.scan false number cs).1, p.rank = 0 := by
  induction cs generalizing number with
  | nil => exact fun p hp => nomatch hp
  | cons c cs ih =>
    rw [Piece.scan] at h ⊢
    by_cases hT : c = 'T'
    · rw [if_pos hT] at h
      exact absurd List.mem_cons_self (h number)
    · rw [if_neg hT] at h ⊢
      cases hu : TimeUnit.designated false c with
      | none =>
        rw [hu] at h
        exact ih _ h
      | some unit =>
        rw [hu] at h
        have hdays : unit = .days := by
          unfold TimeUnit.designated at hu
          split at hu
          all_goals first | contradiction | (cases hu; rfl)
        intro p hp
        cases List.mem_cons.mp hp with
        | inl hfirst =>
          rw [hfirst, hdays]
          rfl
        | inr hrest => exact ih _ (fun skipped hmark => h skipped (List.mem_cons_of_mem _ hmark)) p hrest

/-- A piece in the place of a unit is a number with that unit. -/
theorem pieces_of_rank {head : Option Piece} (unit : TimeUnit)
    (hrank : ∀ p ∈ head, p.rank = (Piece.part [] unit).rank)
    (hcomplete : ∀ number u, .part number u ∈ head.toList → ∃ d : Decimal, number = d.text) :
    ∃ d, head.toList = Decimal.pieces unit d := by
  cases head with
  | none => exact ⟨none, rfl⟩
  | some p =>
    have hp := hrank p rfl
    cases p with
    | mark skipped => cases unit <;> cases hp
    | part number u =>
      obtain ⟨d, rfl⟩ := hcomplete number u (by simp)
      have hu : u = unit := by cases u <;> cases unit <;> first | rfl | cases hp
      exact ⟨some d, by rw [hu]; rfl⟩

theorem mark_of_rank {head : Option Piece} (hrank : ∀ p ∈ head, p.rank = 1)
    (hunskipped : ∀ skipped, .mark skipped ∈ head.toList → skipped = []) :
    head = none ∨ head = some (.mark []) := by
  cases head with
  | none => exact .inl rfl
  | some p =>
    have hp := hrank p rfl
    cases p with
    | mark skipped => exact .inr (by rw [hunskipped skipped (by simp)])
    | part number u => cases u <;> cases hp

theorem mark_notMem (skipped : List Char) (unit : TimeUnit) (d : Option Decimal) :
    .mark skipped ∉ Decimal.pieces unit d := by
  cases d <;> simp [Decimal.pieces]

theorem none_of_rank (unit : TimeUnit) (d : Option Decimal) (hu : unit ≠ .days)
    (h : ∀ p ∈ Decimal.pieces unit d, p.rank = 0) : d = none := by
  cases d with
  | none => rfl
  | some d =>
    have hrank := h _ List.mem_cons_self
    cases unit <;> first | exact absurd rfl hu | cases hrank

/-- An ordered list has at most one piece in each place. -/
theorem exists_places {ps : List Piece} (ho : ps.Pairwise fun p q => p.rank < q.rank) :
    ∃ days mark hours minutes seconds : Option Piece,
      ps = days.toList ++ (mark.toList ++ (hours.toList ++ (minutes.toList ++ seconds.toList))) ∧
      (∀ p ∈ days, p.rank = 0) ∧ (∀ p ∈ mark, p.rank = 1) ∧ (∀ p ∈ hours, p.rank = 2) ∧
      (∀ p ∈ minutes, p.rank = 3) ∧ ∀ p ∈ seconds, p.rank = 4 := by
  obtain ⟨days, ps₁, hps, hrank₀, ho₁, hk₁⟩ := exists_head ho fun p _ => Nat.zero_le p.rank
  obtain ⟨mark, ps₂, hps₁, hrank₁, ho₂, hk₂⟩ := exists_head ho₁ hk₁
  obtain ⟨hours, ps₃, hps₂, hrank₂, ho₃, hk₃⟩ := exists_head ho₂ hk₂
  obtain ⟨minutes, ps₄, hps₃, hrank₃, ho₄, hk₄⟩ := exists_head ho₃ hk₃
  obtain ⟨seconds, ps₅, hps₄, hrank₄, ho₅, hk₅⟩ := exists_head ho₄ hk₄
  have hend : ps₅ = [] := by
    refine List.eq_nil_iff_forall_not_mem.mpr fun p hp => ?_
    have hle := p.rank_le
    have hge := hk₅ p hp
    omega
  refine ⟨days, mark, hours, minutes, seconds, ?_, hrank₀, hrank₁, hrank₂, hrank₃, hrank₄⟩
  rw [hps, hps₁, hps₂, hps₃, hps₄, hend, List.append_nil]

/-- Tidy pieces are those of a duration. -/
theorem Tidy.exists_duration {cs : List Char} (h : Tidy (Piece.scan false [] cs).1)
    (hpart : ∃ number unit, .part number unit ∈ (Piece.scan false [] cs).1) :
    ∃ t : IsoDuration, t.pieces = (Piece.scan false [] cs).1 := by
  have hdays := rank_of_no_mark [] cs
  generalize (Piece.scan false [] cs).1 = ps at h hpart hdays
  obtain ⟨days, mark, hours, minutes, seconds, hps, hrank₀, hrank₁, hrank₂, hrank₃, hrank₄⟩ :=
    exists_places h.order
  have hnumber : ∀ head : Option Piece, (∀ p ∈ head.toList, p ∈ ps) →
      ∀ number u, .part number u ∈ head.toList → ∃ d : Decimal, number = d.text :=
    fun head hin number u hp => h.complete number u (hin _ hp)
  obtain ⟨d, hd⟩ := pieces_of_rank .days hrank₀ (hnumber days fun p hp => by simp [hps, hp])
  obtain ⟨hr, hhr⟩ := pieces_of_rank .hours hrank₂ (hnumber hours fun p hp => by simp [hps, hp])
  obtain ⟨mn, hmn⟩ := pieces_of_rank .minutes hrank₃
    (hnumber minutes fun p hp => by simp [hps, hp])
  obtain ⟨sc, hsc⟩ := pieces_of_rank .seconds hrank₄
    (hnumber seconds fun p hp => by simp [hps, hp])
  obtain ⟨number, unit, hmem⟩ := hpart
  have hmark : mark = none ∨ mark = some (.mark []) :=
    mark_of_rank hrank₁ fun skipped hskipped =>
      h.unskipped skipped (by rw [hps]; simp [hskipped])
  rw [hd, hhr, hmn, hsc] at hps
  cases hmark with
  | inl hnone =>
    rw [hnone, Option.toList_none, List.nil_append] at hps
    have hnomark : ∀ skipped, .mark skipped ∉ ps := by
      intro skipped hskipped
      simp [hps, mark_notMem] at hskipped
    have hranks := hdays hnomark
    obtain rfl := none_of_rank .hours hr (by decide) fun p hp => hranks p (by simp [hps, hp])
    obtain rfl := none_of_rank .minutes mn (by decide) fun p hp => hranks p (by simp [hps, hp])
    obtain rfl := none_of_rank .seconds sc (by decide) fun p hp => hranks p (by simp [hps, hp])
    have hcomponent : d ≠ none := by
      rintro rfl
      rw [hps] at hmem
      cases hmem
    refine ⟨⟨d, none, .inl hcomponent⟩, ?_⟩
    rw [hps]
    simp [IsoDuration.pieces, Decimal.pieces]
  | inr hsome =>
    rw [hsome] at hps
    have hcomponent : d ≠ none ∨ ∃ t, some (⟨hr, mn, sc⟩ : ClockTime) = some t ∧ t.pieces ≠ [] := by
      rw [or_iff_not_imp_left, not_not]
      intro hnone
      refine ⟨_, rfl, fun hclock => ?_⟩
      simp only [ClockTime.pieces, List.append_assoc] at hclock
      rw [hps, hnone, hclock] at hmem
      simp [Decimal.pieces] at hmem
    refine ⟨⟨d, some ⟨hr, mn, sc⟩, hcomponent⟩, ?_⟩
    rw [hps]
    simp [IsoDuration.pieces, ClockTime.pieces]

theorem mem_decimal_pieces {p : Piece} {unit : TimeUnit} {d : Option Decimal}
    (h : p ∈ Decimal.pieces unit d) : ∃ e : Decimal, p = .part e.text unit := by
  obtain ⟨e, -, he⟩ := List.mem_map.mp h
  exact ⟨e, he.symm⟩

/-- A piece of a duration. -/
theorem mem_duration {t : IsoDuration} {p : Piece} (h : p ∈ t.pieces) :
    p = .mark [] ∨ ∃ (e : Decimal) (unit : TimeUnit), p = .part e.text unit := by
  have hpart : ∀ unit d, p ∈ Decimal.pieces unit d →
      ∃ (e : Decimal) (unit : TimeUnit), p = .part e.text unit := by
    intro unit d hp
    obtain ⟨e, he⟩ := mem_decimal_pieces hp
    exact ⟨e, unit, he⟩
  obtain ⟨days, time, component⟩ := t
  simp only [IsoDuration.pieces, List.mem_append] at h
  cases h with
  | inl hdays => exact .inr (hpart _ _ hdays)
  | inr hrest =>
    cases time with
    | none => cases hrest
    | some time =>
      simp only [ClockTime.pieces, List.mem_cons, List.mem_append] at hrest
      obtain hmark | (hhours | hminutes) | hseconds := hrest
      · exact .inl hmark
      · exact .inr (hpart _ _ hhours)
      · exact .inr (hpart _ _ hminutes)
      · exact .inr (hpart _ _ hseconds)

theorem tidy_duration (t : IsoDuration) : Tidy t.pieces where
  order := by
    obtain ⟨days, time, component⟩ := t
    cases time with
    | none => cases days <;> simp [IsoDuration.pieces, Decimal.pieces]
    | some time =>
      obtain ⟨hours, minutes, seconds⟩ := time
      cases days <;> cases hours <;> cases minutes <;> cases seconds <;>
        simp [IsoDuration.pieces, ClockTime.pieces, Decimal.pieces, Piece.rank]
  unskipped skipped h := by
    obtain hmark | ⟨e, unit, hpart⟩ := mem_duration h
    · cases hmark
      rfl
    · cases hpart
  complete number unit h := by
    obtain hmark | ⟨e, u, hpart⟩ := mem_duration h
    · cases hmark
    · cases hpart
      exact ⟨e, rfl⟩

theorem exists_part (t : IsoDuration) : ∃ number unit, .part number unit ∈ t.pieces := by
  have hpart : ∀ ps : List Piece, ps ≠ [] → (∀ p ∈ ps, p ∈ t.pieces ∧ p ≠ .mark []) →
      ∃ number unit, .part number unit ∈ t.pieces := by
    intro ps hne hin
    obtain ⟨p, hp⟩ := List.exists_mem_of_ne_nil ps hne
    obtain ⟨hmem, hmark⟩ := hin p hp
    obtain rfl | ⟨e, unit, rfl⟩ := mem_duration hmem
    · exact absurd rfl hmark
    · exact ⟨_, _, hmem⟩
  have hnumbers : ∀ unit d, ∀ p ∈ Decimal.pieces unit d, p ≠ .mark [] := by
    rintro unit d p hp rfl
    exact mark_notMem [] unit d hp
  cases t.component with
  | inl hdays =>
    refine hpart (Decimal.pieces .days t.days) ?_ fun p hp => ⟨?_, hnumbers _ _ p hp⟩
    · obtain ⟨d, hd⟩ := Option.ne_none_iff_exists'.mp hdays
      simp [hd, Decimal.pieces]
    · exact List.mem_append_left _ hp
  | inr htime =>
    obtain ⟨time, ht, hne⟩ := htime
    refine hpart _ hne fun p hp => ⟨?_, ?_⟩
    · simp [IsoDuration.pieces, ht, hp]
    · simp only [ClockTime.pieces, List.mem_append] at hp
      obtain (h | h) | h := hp
      · exact hnumbers _ _ p h
      · exact hnumbers _ _ p h
      · exact hnumbers _ _ p h

theorem isWhitespace_digit (k : Fin 10) : Text.isWhitespace (Digits.digit k.val) = false := by
  revert k
  decide

theorem isWhitespace_piece {e : Decimal} {unit : TimeUnit} {c : Char}
    (h : c ∈ (Piece.part e.text unit).text) : Text.isWhitespace c = false := by
  cases List.mem_append.mp h with
  | inl hnumber =>
    obtain rfl | ⟨k, rfl⟩ := mem_decimal hnumber
    · rfl
    · exact isWhitespace_digit k
  | inr hletter =>
    rw [List.mem_singleton.mp hletter]
    cases unit <;> rfl

/-- There is nothing to trim off a duration. -/
theorem trim_duration (t : IsoDuration) : Text.trim t.text = t.text := by
  refine Text.trim_eq_self fun c hc => ?_
  cases List.mem_cons.mp hc with
  | inl hfirst =>
    rw [hfirst]
    rfl
  | inr hrest =>
    obtain ⟨p, hp, hmem⟩ := List.mem_flatMap.mp hrest
    obtain rfl | ⟨e, unit, rfl⟩ := mem_duration hp
    · rw [List.mem_singleton.mp hmem]
      rfl
    · exact isWhitespace_piece hmem

/-- A text whose pieces are tidy is that of a duration. -/
theorem Tidy.exists_text {cs number : List Char} {unit : TimeUnit}
    (h : Tidy (Piece.scan false [] cs).1) (hrest : (Piece.scan false [] cs).2 = [])
    (hpart : .part number unit ∈ (Piece.scan false [] cs).1) :
    ∃ t : IsoDuration, 'P' :: cs = t.text ∧ t.pieces = (Piece.scan false [] cs).1 := by
  obtain ⟨t, ht⟩ := h.exists_duration ⟨number, unit, hpart⟩
  have htext := Piece.text_scan false [] cs
  rw [hrest, List.append_nil, ← ht] at htext
  exact ⟨t, congrArg (List.cons 'P') htext.symm, ht⟩

namespace Query
local instance durationMath : FloatMath := FloatMath.unrounded
local instance durationParse : FloatParse := FloatParse.grammar

/-- The seconds of the pieces on top of a total, if all their numbers can be read. -/
def sumPieces : F64 → List Piece → Option F64
  | total, [] => some total
  | total, .mark _ :: ps => sumPieces total ps
  | total, .part number unit :: ps =>
    (FloatText.parse (String.ofList number)).bind fun n =>
      sumPieces (total + n * .finite unit.secs) ps

theorem mul_one_second (n : F64) : n * .finite 1 = n := by
  cases n with
  | finite q => exact congrArg F64.finite (mul_one q)
  | posInf => rfl
  | negInf => rfl
  | nan => rfl

theorem designator_eq (inTime : Bool) (c : Char) :
    designator inTime c =
      (TimeUnit.designated inTime c).map fun unit n => n * .finite unit.secs := by
  unfold designator
  split
  · rfl
  · rfl
  · rfl
  · exact congrArg some (funext fun n => (mul_one_second n).symm)
  · have hnone : TimeUnit.designated inTime c = none := by
      unfold TimeUnit.designated
      split <;> simp_all
    rw [hnone]
    rfl

/-- The loop adds up the pieces and takes only a positive sum. -/
theorem durationLoop_eq (s skipped number rest : List Char) (i : Nat) (total : F64)
    (inTime : Bool) (numStart : Nat) (hs : s = skipped ++ number ++ rest)
    (hstart : numStart = Text.byteLen skipped) (hi : i = Text.byteLen (skipped ++ number)) :
    durationLoop s rest i total inTime numStart =
      .ok ((sumPieces total (Piece.scan inTime number rest).1).filter
        fun sum => (F64.finite 0).lt sum) := by
  induction rest generalizing i total inTime numStart skipped number with
  | nil =>
    rw [durationLoop, Piece.scan, sumPieces, Option.filter_some]
  | cons c rest ih =>
    have hnext : i + c.utf8Size = Text.byteLen (skipped ++ number ++ [c]) := by
      simp [hi, Text.byteLen, Nat.add_assoc]
    have hafter (hc : c.utf8Size = 1) (total : F64) (inTime : Bool) :
        durationLoop s rest (i + c.utf8Size) total inTime (i + 1) =
          .ok ((sumPieces total (Piece.scan inTime [] rest).1).filter
            fun sum => (F64.finite 0).lt sum) := by
      apply ih (skipped ++ number ++ [c]) []
      · simp [hs]
      · rw [← hnext, hc]
      · rw [List.append_nil, hnext]
    rw [durationLoop, Piece.scan, designator_eq]
    by_cases hT : c = 'T'
    · rw [if_pos hT, if_pos hT, sumPieces]
      exact hafter (by rw [hT]; rfl) total true
    · rw [if_neg hT, if_neg hT]
      cases hu : TimeUnit.designated inTime c with
      | none =>
        apply ih skipped (number ++ [c])
        · simp [hs]
        · exact hstart
        · rw [hnext, List.append_assoc]
      | some unit =>
        have hc : c.utf8Size = 1 := by
          unfold TimeUnit.designated at hu
          split at hu
          all_goals first | rfl | cases hu
        have hslice : Text.slice numStart i s = some number := by
          rw [hi, hstart, hs, Text.slice_byteLen]
        simp only [Option.map_some, hslice, sumPieces]
        have hunwrap : Fallible.unwrap (some number) = (.ok number : Fallible String _) := rfl
        rw [hunwrap, Fallible.bind_ok]
        cases hp : FloatText.parse (String.ofList number) with
        | none =>
          have hread : FloatParse.parse (String.ofList number) = none := hp
          rw [hread]
          rfl
        | some n =>
          have hread : FloatParse.parse (String.ofList number) = some n := hp
          rw [hread]
          exact hafter hc _ inTime

/-- Seconds that a text stands for: milliseconds, or a duration. -/
def Denotes (s : String) (secs : ℚ) : Prop :=
  (∃ d : Decimal, s.toList = d.text ∧ secs = d.value / 1000) ∨
    ∃ t : IsoDuration, s.toList = t.text ∧ secs = t.secs

/-- The text is accepted exactly when it stands for so many seconds. -/
def ReadExactly (s : String) : Prop :=
  ∀ v, parseDurationSecs s = .ok (some v) ↔ ∃ secs, Denotes s secs ∧ v = .finite secs

/-- What is read as a number is a plain one; pieces that add up to something are those of
a duration that is the whole text; and the pieces of a duration do not add up to zero. -/
structure WellWritten (s : String) : Prop where
  number : ∀ v, FloatText.parse s = some v → ∃ d : Decimal, s.toList = d.text
  duration : ∀ cs sum, FloatText.parse s = none → Text.trim s.toList = 'P' :: cs →
    sumPieces (.finite 0) (Piece.scan false [] cs).1 = some sum → (F64.finite 0).lt sum = true →
      s.toList = 'P' :: cs ∧ (Piece.scan false [] cs).2 = [] ∧ Tidy (Piece.scan false [] cs).1
  nonzero : ∀ cs number unit, s.toList = 'P' :: cs → (Piece.scan false [] cs).2 = [] →
    Tidy (Piece.scan false [] cs).1 → .part number unit ∈ (Piece.scan false [] cs).1 →
      sumPieces (.finite 0) (Piece.scan false [] cs).1 ≠ some (.finite 0)

theorem sumPieces_pieces (total : ℚ) (unit : TimeUnit) (d : Option Decimal) (ps : List Piece) :
    sumPieces (.finite total) (Decimal.pieces unit d ++ ps) =
      sumPieces (.finite (total + Decimal.amount unit d)) ps := by
  cases d with
  | none => simp [Decimal.pieces, Decimal.amount]
  | some d =>
    have hread : FloatText.parse (String.ofList d.text) = some (.finite d.value) :=
      parse_text String.toList_ofList
    simp only [Decimal.pieces, Option.toList_some, List.map_cons, List.map_nil, List.cons_append,
      List.nil_append, sumPieces, hread, Option.bind_some]
    rfl

/-- The pieces of a duration add up to its seconds. -/
theorem sumPieces_duration (t : IsoDuration) :
    sumPieces (.finite 0) t.pieces = some (.finite t.secs) := by
  rw [IsoDuration.pieces, sumPieces_pieces, IsoDuration.secs, zero_add]
  cases t.time with
  | none => simp [sumPieces]
  | some time =>
    have hseconds : ∀ total, sumPieces (.finite total) (Decimal.pieces .seconds time.seconds) =
        some (.finite (total + Decimal.amount .seconds time.seconds)) := by
      intro total
      have happend := sumPieces_pieces total .seconds time.seconds []
      rwa [List.append_nil] at happend
    simp only [sumPieces, ClockTime.pieces, List.append_assoc, sumPieces_pieces, hseconds,
      Option.map_some, Option.getD_some, ClockTime.secs, add_assoc]

theorem secs_nonneg (t : IsoDuration) : 0 ≤ t.secs := by
  have hamount : ∀ unit d, 0 ≤ Decimal.amount unit d := by
    intro unit d
    have hunit : 0 ≤ unit.secs := by cases unit <;> simp [TimeUnit.secs]
    cases d with
    | none => simp [Decimal.amount]
    | some d => exact mul_nonneg d.value_nonneg hunit
  unfold IsoDuration.secs
  cases t.time with
  | none => simpa using hamount _ _
  | some time =>
    have htime : 0 ≤ time.secs :=
      add_nonneg (add_nonneg (hamount _ _) (hamount _ _)) (hamount _ _)
    exact add_nonneg (hamount _ _) htime

/-- A text is not a plain number and a duration at once, and stands for one number only. -/
theorem denotes_of_number {s : String} {d : Decimal} (h : s.toList = d.text) (secs : ℚ) :
    Denotes s secs ↔ secs = d.value / 1000 := by
  have hread := parse_text h
  constructor
  · rintro (⟨d', h', rfl⟩ | ⟨t, ht, rfl⟩)
    · have hsame := Option.some.inj (hread.symm.trans (parse_text h'))
      rw [F64.finite.inj hsame]
    · rw [parse_duration ht] at hread
      cases hread
  · rintro rfl
    exact .inl ⟨d, h, rfl⟩

theorem denotes_of_duration {s : String} {t : IsoDuration} (h : s.toList = t.text) (secs : ℚ) :
    Denotes s secs ↔ secs = t.secs := by
  constructor
  · rintro (⟨d, hd, rfl⟩ | ⟨t', ht', rfl⟩)
    · have hread := parse_text hd
      rw [parse_duration h] at hread
      cases hread
    · have htext : t'.pieces.flatMap Piece.text = t.pieces.flatMap Piece.text :=
        List.tail_eq_of_cons_eq (ht'.symm.trans h)
      have hpieces : t'.pieces = t.pieces := by
        have hscan := scan_duration t'
        rw [htext, scan_duration t] at hscan
        exact (congrArg Prod.fst hscan).symm
      have hsum := sumPieces_duration t'
      rw [hpieces, sumPieces_duration t] at hsum
      exact (F64.finite.inj (Option.some.inj hsum)).symm
  · rintro rfl
    exact .inr ⟨t, h, rfl⟩

theorem sumPieces_no_part {ps : List Piece} (h : ∀ number unit, .part number unit ∉ ps)
    (total : F64) : sumPieces total ps = some total := by
  induction ps with
  | nil => rfl
  | cons p ps ih =>
    have hrest : ∀ number unit, .part number unit ∉ ps :=
      fun number unit hp => h number unit (List.mem_cons_of_mem p hp)
    cases p with
    | part number unit => exact absurd List.mem_cons_self (h number unit)
    | mark skipped => exact ih hrest

section
variable {s : String} {cs : List Char}

theorem parse_of_number {ms : F64} (h : FloatText.parse s = some ms) :
    parseDurationSecs s = .ok (some (ms / .finite 1000)) := by
  have hread : FloatParse.parse s = some ms := h
  rw [parseDurationSecs, hread]
  rfl

theorem parse_of_duration (h : FloatText.parse s = none) (ht : Text.trim s.toList = 'P' :: cs) :
    parseDurationSecs s = .ok ((sumPieces (.finite 0) (Piece.scan false [] cs).1).filter
      fun sum => (F64.finite 0).lt sum) := by
  have hread : FloatParse.parse s = none := h
  rw [parseDurationSecs, hread]
  simp only [ht]
  exact durationLoop_eq cs [] [] cs 0 _ false 0 rfl rfl rfl

theorem parse_of_other (h : FloatText.parse s = none)
    (ht : ∀ cs, Text.trim s.toList ≠ 'P' :: cs) : parseDurationSecs s = .ok none := by
  have hread : FloatParse.parse s = none := h
  rw [parseDurationSecs, hread]
  simp only

/-- What the scanner makes of the text of a duration. -/
theorem parse_text_duration {t : IsoDuration} (h : s.toList = t.text) :
    parseDurationSecs s = .ok (if 0 < t.secs then some (.finite t.secs) else none) := by
  have htrim : Text.trim s.toList = 'P' :: t.pieces.flatMap Piece.text := by
    rw [h, trim_duration]
    rfl
  rw [parse_of_duration (parse_duration h) htrim, scan_duration, sumPieces_duration]
  by_cases hpos : 0 < t.secs
  · simp [hpos, F64.lt]
  · simp [hpos, F64.lt]

/-- A positive sum has a part. -/
theorem exists_part_of_pos {ps : List Piece} {sum : F64}
    (hsum : sumPieces (.finite 0) ps = some sum) (hpos : (F64.finite 0).lt sum = true) :
    ∃ number unit, .part number unit ∈ ps := by
  by_contra hnone
  simp only [not_exists] at hnone
  rw [sumPieces_no_part hnone] at hsum
  cases hsum
  exact absurd hpos (by decide)

theorem readExactly_number {d : Decimal} (h : s.toList = d.text) : ReadExactly s := by
  intro v
  rw [parse_of_number (parse_text h)]
  simp only [denotes_of_number h]
  have hdiv : F64.finite d.value / .finite 1000 = .finite (d.value / 1000) :=
    if_neg (by norm_num)
  rw [hdiv]
  simp [eq_comm]

theorem wellWritten_number {d : Decimal} (h : s.toList = d.text) : WellWritten s where
  number _ _ := ⟨d, h⟩
  duration cs sum hread := by
    rw [parse_text h] at hread
    cases hread
  nonzero cs number unit hs := by
    have hread := parse_text h
    rw [parse_duration hs] at hread
    cases hread

theorem readExactly_duration_iff {t : IsoDuration} (h : s.toList = t.text) :
    ReadExactly s ↔ t.secs ≠ 0 := by
  have hpos : t.secs ≠ 0 ↔ 0 < t.secs := (secs_nonneg t).lt_iff_ne'.symm
  rw [hpos, ReadExactly]
  simp only [parse_text_duration h, denotes_of_duration h]
  constructor
  · intro hexact
    by_contra hn
    have haccepted := (hexact (.finite t.secs)).mpr ⟨t.secs, rfl, rfl⟩
    rw [if_neg hn] at haccepted
    cases haccepted
  · intro hp v
    rw [if_pos hp]
    simp [eq_comm]

theorem wellWritten_duration_iff {t : IsoDuration} (h : s.toList = t.text) :
    WellWritten s ↔ t.secs ≠ 0 := by
  have hcs : ∀ cs, s.toList = 'P' :: cs → cs = t.pieces.flatMap Piece.text :=
    fun cs hs => List.tail_eq_of_cons_eq (hs.symm.trans h)
  constructor
  · intro hw hzero
    obtain ⟨number, unit, hpart⟩ := exists_part t
    have hnonzero := hw.nonzero (t.pieces.flatMap Piece.text) number unit h
    rw [scan_duration, sumPieces_duration, hzero] at hnonzero
    exact hnonzero rfl (tidy_duration t) hpart rfl
  · intro hne
    refine ⟨fun v hread => ?_, fun cs sum hread htrim hsum hpos => ?_,
      fun cs number unit hs hrest htidy hpart => ?_⟩
    · rw [parse_duration h] at hread
      cases hread
    · have hs : s.toList = 'P' :: cs := by
        rw [← htrim, h, trim_duration]
      rw [hcs cs hs, scan_duration]
      exact ⟨h, rfl, tidy_duration t⟩
    · rw [hcs cs hs, scan_duration, sumPieces_duration]
      intro hzero
      exact hne (F64.finite.inj (Option.some.inj hzero))

/-- A text that stands for nothing must be refused. -/
theorem readExactly_other_iff (hd : ∀ d : Decimal, s.toList ≠ d.text)
    (ht : ∀ t : IsoDuration, s.toList ≠ t.text) :
    ReadExactly s ↔ ∀ v, parseDurationSecs s ≠ .ok (some v) := by
  refine forall_congr' fun v => ⟨fun h haccepted => ?_, fun h => iff_of_false h ?_⟩
  · obtain ⟨secs, ⟨d, hs, -⟩ | ⟨t, hs, -⟩, -⟩ := h.mp haccepted
    · exact hd d hs
    · exact ht t hs
  · rintro ⟨secs, ⟨d, hs, -⟩ | ⟨t, hs, -⟩, -⟩
    · exact hd d hs
    · exact ht t hs

theorem wellWritten_other_iff (hd : ∀ d : Decimal, s.toList ≠ d.text)
    (ht : ∀ t : IsoDuration, s.toList ≠ t.text) :
    WellWritten s ↔ ∀ v, parseDurationSecs s ≠ .ok (some v) := by
  constructor
  · intro hw v haccepted
    cases hread : FloatText.parse s with
    | some ms =>
      obtain ⟨d, hs⟩ := hw.number ms hread
      exact hd d hs
    | none =>
      by_cases htrim : ∃ cs, Text.trim s.toList = 'P' :: cs
      · obtain ⟨cs, htrim⟩ := htrim
        rw [parse_of_duration hread htrim] at haccepted
        obtain ⟨hsum, hpos⟩ := Option.filter_eq_some_iff.mp (Fallible.ok.inj haccepted)
        obtain ⟨hs, hrest, htidy⟩ := hw.duration cs v hread htrim hsum hpos
        obtain ⟨number, unit, hpart⟩ := exists_part_of_pos hsum hpos
        obtain ⟨t, htext, -⟩ := htidy.exists_text hrest hpart
        exact ht t (hs.trans htext)
      · rw [parse_of_other hread (not_exists.mp htrim)] at haccepted
        cases haccepted
  · intro hrefused
    refine ⟨fun v hread => ?_, fun cs sum hread htrim hsum hpos => ?_,
      fun cs number unit hs hrest htidy hpart => ?_⟩
    · exact absurd (parse_of_number hread) (hrefused _)
    · have haccepted := parse_of_duration hread htrim
      rw [hsum, Option.filter_some, if_pos hpos] at haccepted
      exact absurd haccepted (hrefused sum)
    · obtain ⟨t, htext, -⟩ := htidy.exists_text hrest hpart
      exact absurd (hs.trans htext) (ht t)

/-- A text is accepted exactly when it stands for so many seconds, if and only if it is
well written. -/
theorem readExactly_iff (s : String) : ReadExactly s ↔ WellWritten s := by
  by_cases hd : ∃ d : Decimal, s.toList = d.text
  · obtain ⟨d, hs⟩ := hd
    exact iff_of_true (readExactly_number hs) (wellWritten_number hs)
  · by_cases ht : ∃ t : IsoDuration, s.toList = t.text
    · obtain ⟨t, hs⟩ := ht
      exact (readExactly_duration_iff hs).trans (wellWritten_duration_iff hs).symm
    · rw [not_exists] at hd ht
      exact (readExactly_other_iff hd ht).trans (wellWritten_other_iff hd ht).symm

/-- What follows the last designator is ignored: ten minutes are lost here. -/
theorem trailing_digits_ignored :
    parseDurationSecs "PT5H10" = .ok (some (.finite 18000)) ∧ ¬ ReadExactly "PT5H10" := by
  have hparsed : parseDurationSecs "PT5H10" = .ok (some (.finite 18000)) := by decide +kernel
  refine ⟨hparsed, fun hexact => ?_⟩
  have hrest := ((readExactly_iff _).mp hexact).duration ['T', '5', 'H', '1', '0'] (.finite 18000)
    (by decide +kernel) (by decide +kernel) (by decide +kernel) (by decide +kernel)
  exact absurd hrest.2.1 (by decide +kernel)

end

end Query
end SignalK

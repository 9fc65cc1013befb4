import SignalK.Lib.Fallible
import SignalK.Lib.Text
import SignalK.Types.F64

/-! Requests of the history API and the texts of durations and resolutions in them. -/
namespace SignalK
open FloatMath

inductive AggregateMethod where
  | average
  | min
  | max
  | first
  | last
  | count
  | mid
  | middleIndex
  deriving DecidableEq

def AggregateMethod.asStr : AggregateMethod → String
  | average => "average"
  | min => "min"
  | max => "max"
  | first => "first"
  | last => "last"
  | count => "count"
  | mid => "mid"
  | middleIndex => "middle_index"

structure PathSpec where
  path : String
  method : AggregateMethod

structure ValuesRequest where
  context : String
  pathSpecs : List PathSpec
  fromTs : Option String
  toTs : Option String
  duration : Option String
  resolution : Option String

structure ContextsRequest where
  fromTs : Option String
  toTs : Option String
  duration : Option String

structure PathsRequest where
  context : String
  fromTs : Option String
  toTs : Option String
  duration : Option String

namespace Query
variable [FloatMath]

/-- A resolution that gives some five hundred points over a range of so many seconds;
none is full resolution. -/
def autoResolutionSecs (rangeSecs : F64) : Option F64 :=
  if rangeSecs.le (.finite 0) then none
  else
    let bucket := div rangeSecs (.finite 500)
    if bucket.lt (.finite 1) then none
    else if bucket.lt (.finite 5) then some (.finite 1)
    else if bucket.lt (.finite 30) then some (.finite 10)
    else if bucket.lt (.finite 120) then some (.finite 60)
    else if bucket.lt (.finite 600) then some (.finite 300)
    else if bucket.lt (.finite 3600) then some (.finite 900)
    else if bucket.lt (.finite 14400) then some (.finite 3600)
    else some (.finite 86400)

/-- The seconds that a number before a designator stands for. -/
def designator (inTime : Bool) (c : Char) : Option (F64 → F64) :=
  match inTime, c with
  | false, 'D' => some fun n => mul n (.finite 86400)
  | true, 'H' => some fun n => mul n (.finite 3600)
  | true, 'M' => some fun n => mul n (.finite 60)
  | true, 'S' => some fun n => n
  | _, _ => none

variable [FloatParse]

/-- The loop over the characters after the `P`: `rest` begins at byte `i` of `s`, and a
number at byte `numStart`. -/
def durationLoop (s : List Char) :
    List Char → Nat → F64 → Bool → Nat → Fallible String (Option F64)
  | [], _, total, _, _ => .ok (if (F64.finite 0).lt total then some total else none)
  | c :: rest, i, total, inTime, numStart =>
    if c = 'T' then durationLoop s rest (i + c.utf8Size) total true (i + 1)
    else
      match designator inTime c with
      | none => durationLoop s rest (i + c.utf8Size) total inTime numStart
      | some secs => do
        let text ← Fallible.unwrap (Text.slice numStart i s)
        match FloatParse.parse (String.ofList text) with
        | none => .ok none
        | some n => durationLoop s rest (i + c.utf8Size) (add total (secs n)) inTime (i + 1)

/-- Milliseconds or an ISO 8601 duration of days, hours, minutes and seconds. -/
def parseDurationSecs (s : String) : Fallible String (Option F64) :=
  match FloatParse.parse s with
  | some ms => .ok (some (div ms (.finite 1000)))
  | none =>
    match Text.trim s.toList with
    | 'P' :: rest => durationLoop rest rest 0 (.finite 0) false 0
    | _ => .ok none

/-- Seconds, minutes, hours or days by their suffix, milliseconds without. -/
def parseResolutionSecs (s : String) : Option F64 :=
  let s := String.ofList (Text.trim s.toList)
  match Text.stripSuffix s "s" with
  | some n => FloatParse.parse n
  | none =>
  match Text.stripSuffix s "m" with
  | some n => (FloatParse.parse n).map fun v => mul v (.finite 60)
  | none =>
  match Text.stripSuffix s "h" with
  | some n => (FloatParse.parse n).map fun v => mul v (.finite 3600)
  | none =>
  match Text.stripSuffix s "d" with
  | some n => (FloatParse.parse n).map fun v => mul v (.finite 86400)
  | none => (FloatParse.parse s).map fun ms => div ms (.finite 1000)

/-- The slices that the loop takes end where a number does and begin after a designator,
each of a single byte. -/
theorem durationLoop_returns (s skipped number rest : List Char) (i : Nat) (total : F64)
    (inTime : Bool) (numStart : Nat) (hs : s = skipped ++ number ++ rest)
    (hstart : numStart = Text.byteLen skipped) (hi : i = Text.byteLen (skipped ++ number)) :
    (durationLoop s rest i total inTime numStart).Returns := by
  induction rest generalizing i total inTime numStart skipped number with
  | nil => simp [durationLoop]
  | cons c rest ih =>
    have hnext : i + c.utf8Size = Text.byteLen (skipped ++ number ++ [c]) := by
      simp [hi, Text.byteLen, Nat.add_assoc]
    have hafter (hc : c.utf8Size = 1) (total : F64) (inTime : Bool) :
        (durationLoop s rest (i + c.utf8Size) total inTime (i + 1)).Returns := by
      apply ih (skipped ++ number ++ [c]) []
      · simp [hs]
      · rw [← hnext, hc]
      · rw [List.append_nil, hnext]
    rw [durationLoop]
    split
    · next h =>
      subst h
      exact hafter (by decide) _ _
    · split
      · apply ih skipped (number ++ [c])
        · simp [hs]
        · exact hstart
        · rw [hnext, List.append_assoc]
      · next h =>
        have hc : c.utf8Size = 1 := by
          unfold designator at h
          split at h
          all_goals first | rfl | cases h
        rw [Fallible.returns_bind]
        constructor
        · rw [hi, hstart, hs, Text.slice_byteLen]
          trivial
        · intro text _
          split
          · trivial
          · exact hafter hc _ _

theorem parseDurationSecs_returns (s : String) : (parseDurationSecs s).Returns := by
  unfold parseDurationSecs
  split
  · trivial
  · split
    · exact durationLoop_returns _ [] [] _ _ _ _ _ rfl rfl rfl
    · trivial

end Query

end SignalK

import Mathlib.Data.Rat.Defs
import SignalK.Lib.Nested
import Mathlib.Data.String.Basic

/-! JSON values as serde_json holds them. Objects are B-tree maps, so their
fields are kept in ascending key order; a finite double is its rational value. -/
namespace SignalK

inductive Number where
  | posInt (n : UInt64)
  | negInt (n : Int64)
  | float (x : ℚ)
  deriving DecidableEq

/-- `n as f64`: the nearest double, ties to even. -/
def roundToDouble (n : Nat) : Nat :=
  if n < 2 ^ 53 then n
  else
    let ulp := 2 ^ (Nat.log2 n - 52)
    let q := n / ulp
    let r := n % ulp
    if 2 * r > ulp ∨ (2 * r = ulp ∧ q % 2 = 1) then (q + 1) * ulp else q * ulp

def Number.asF64 : Number → ℚ
  | .posInt n => (roundToDouble n.toNat : ℚ)
  | .negInt n => -(roundToDouble n.toInt.natAbs : ℚ)
  | .float x => x

inductive Json where
  | null
  | bool (b : Bool)
  | number (n : Number)
  | string (s : String)
  | array (items : List Json)
  | object (fields : List (String × Json))

namespace Json

mutual
/-- `PartialEq` of `Value`. -/
def beq : Json → Json → Bool
  | null, null => true
  | bool a, bool b => a == b
  | number a, number b => decide (a = b)
  | string a, string b => a == b
  | array a, array b => beqItems a b
  | object a, object b => beqFields a b
  | _, _ => false

def beqItems : List Json → List Json → Bool
  | [], [] => true
  | x :: xs, y :: ys => beq x y && beqItems xs ys
  | _, _ => false

def beqFields : List (String × Json) → List (String × Json) → Bool
  | [], [] => true
  | (k, x) :: xs, (l, y) :: ys => k == l && (beq x y && beqFields xs ys)
  | _, _ => false
end

mutual
theorem beq_iff : ∀ a b : Json, beq a b = true ↔ a = b
  | null, b | bool _, b | number _, b | string _, b => by cases b <;> simp [beq]
  | array a, b => by cases b <;> simp [beq, beqItems_iff a]
  | object a, b => by cases b <;> simp [beq, beqFields_iff a]

theorem beqItems_iff : ∀ a b : List Json, beqItems a b = true ↔ a = b
  | [], b => by cases b <;> simp [beqItems]
  | x :: xs, [] => by simp [beqItems]
  | x :: xs, y :: ys => by simp [beqItems, beq_iff x y, beqItems_iff xs ys]

theorem beqFields_iff : ∀ a b : List (String × Json), beqFields a b = true ↔ a = b
  | [], b => by cases b <;> simp [beqFields]
  | (k, x) :: xs, [] => by simp [beqFields]
  | (k, x) :: xs, (l, y) :: ys => by
    simp [beqFields, beq_iff x y, beqFields_iff xs ys, and_assoc]
end

instance : DecidableEq Json := fun a b => decidable_of_iff (beq a b = true) (beq_iff a b)

instance : Inhabited Json := ⟨null⟩

instance : Nested.Node String Json where
  object := object
  fields
    | object fields => some fields
    | _ => none
  fields_eq_some j m := by cases j <;> simp

/-- `value.get(key)` on anything but an object is `None`. -/
def get (j : Json) (key : String) : Option Json :=
  match j with
  | object fields => SortedMap.get key fields
  | _ => none

/-- `value.get(i)` by array index. -/
def getIdx (j : Json) (i : Nat) : Option Json :=
  match j with
  | array items => items[i]?
  | _ => none

def asStr : Json → Option String
  | string s => some s
  | _ => none

def asF64 : Json → Option ℚ
  | number n => some n.asF64
  | _ => none

def asArray : Json → Option (List Json)
  | array items => some items
  | _ => none

/-- `json!` of a double. -/
def ofF64 (x : ℚ) : Json := number (.float x)

/-- The object that inserting the fields one after another builds. -/
def ofFields (fields : List (String × Json)) : Json :=
  object (fields.foldl (fun m e => SortedMap.insert e.1 e.2 m) [])

end Json

/-- serde_json's compact `Display`, which prints numbers with its own shortest
float algorithm; only `make_source_ref` depends on it. -/
class JsonText where
  toText : Json → String

/-- For runs in which no source carries a `pgn`, so that nothing is printed. -/
@[reducible] def JsonText.unused : JsonText := ⟨fun _ => ""⟩

end SignalK

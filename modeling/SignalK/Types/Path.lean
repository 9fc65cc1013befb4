import SignalK.Lib.Text

/-! Dot-separated paths and the wildcard patterns of subscriptions. -/
namespace SignalK

/-- The segments of a path. -/
def segments (path : String) : List String :=
  Text.split '.' path

def matchesParts : List String → List String → Bool
  | [], [] => true
  | p :: ps, path =>
    if p = "**" then true
    else match path with
      | [] => false
      | q :: qs => if p = "*" then matchesParts ps qs else p == q && matchesParts ps qs
  | [], _ :: _ => false

def matchesPattern (pattern path : String) : Bool :=
  matchesParts (segments pattern) (segments path)

theorem matchesParts_self (parts : List String) : matchesParts parts parts = true := by
  induction parts with
  | nil => rfl
  | cons p parts ih =>
    by_cases hp : p = "**" <;> by_cases hq : p = "*" <;> simp [matchesParts, hp, hq, ih]

@[simp] theorem matchesPattern_all (path : String) : matchesPattern "**" path = true := by
  have h : segments "**" = ["**"] := by decide
  simp [matchesPattern, h, matchesParts]

example : matchesPattern "propulsion.*.oilTemperature" "propulsion.main.oilTemperature" = true := by
  decide

end SignalK

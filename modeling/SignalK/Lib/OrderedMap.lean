import Mathlib.Data.List.Basic

/-! Maps that are visited in the order in which their keys were first set. -/
namespace OrderedMap
variable {κ ν : Type*} [DecidableEq κ]

def get (k : κ) : List (κ × ν) → Option ν
  | [] => none
  | (a, b) :: m => if k = a then some b else get k m

/-- A key that is there keeps its place. -/
def set (k : κ) (v : ν) : List (κ × ν) → List (κ × ν)
  | [] => [(k, v)]
  | (a, b) :: m => if k = a then (k, v) :: m else (a, b) :: set k v m

theorem mem_of_get {k : κ} {v : ν} {m : List (κ × ν)} (h : get k m = some v) : (k, v) ∈ m := by
  induction m with
  | nil => cases h
  | cons e m ih =>
    obtain ⟨a, b⟩ := e
    rw [get] at h
    split_ifs at h with hk
    · obtain rfl := Option.some.inj h
      rw [hk]
      exact List.mem_cons_self
    · exact List.mem_cons_of_mem _ (ih h)

theorem mem_set {k : κ} {v : ν} {m : List (κ × ν)} {e : κ × ν} (h : e ∈ set k v m) :
    e = (k, v) ∨ e ∈ m := by
  induction m with
  | nil => exact .inl (List.mem_singleton.mp h)
  | cons f m ih =>
    obtain ⟨a, b⟩ := f
    rw [set] at h
    split_ifs at h with hk
    · obtain rfl | h := List.mem_cons.mp h
      · exact .inl rfl
      · exact .inr (List.mem_cons_of_mem _ h)
    · obtain rfl | h := List.mem_cons.mp h
      · exact .inr List.mem_cons_self
      · exact (ih h).imp_right (List.mem_cons_of_mem _)

end OrderedMap

import Mathlib.Order.Defs.LinearOrder

/-! Computations that return a value, return an error or panic. -/

inductive Fallible (ε α : Type) where
  | ok (a : α)
  | err (e : ε)
  | panic
  deriving DecidableEq

namespace Fallible
variable {ε α β : Type}

protected def bind (x : Fallible ε α) (f : α → Fallible ε β) : Fallible ε β :=
  match x with
  | ok a => f a
  | err e => err e
  | panic => panic

instance : Monad (Fallible ε) where
  pure := ok
  bind := Fallible.bind

/-- `unwrap`, `expect` and the indexing operators. -/
def unwrap : Option α → Fallible ε α
  | some a => ok a
  | none => panic

def okOr (e : ε) : Option α → Fallible ε α
  | some a => ok a
  | none => err e

/-- It returns, be it an error. -/
def Returns (x : Fallible ε α) : Prop :=
  match x with
  | panic => False
  | _ => True

instance (x : Fallible ε α) : Decidable x.Returns :=
  match x with
  | ok _ => .isTrue trivial
  | err _ => .isTrue trivial
  | panic => .isFalse id

@[simp] theorem bind_ok (a : α) (f : α → Fallible ε β) : (ok a >>= f) = f a := rfl

@[simp] theorem bind_err (e : ε) (f : α → Fallible ε β) : (err e >>= f) = err e := rfl

@[simp] theorem bind_panic (f : α → Fallible ε β) : ((panic : Fallible ε α) >>= f) = panic := rfl

@[simp] theorem returns_ok (a : α) : (ok a : Fallible ε α).Returns := trivial

@[simp] theorem returns_err (e : ε) : (err e : Fallible ε α).Returns := trivial

@[simp] theorem not_returns_panic : ¬ (panic : Fallible ε α).Returns := id

theorem returns_bind (x : Fallible ε α) (f : α → Fallible ε β) :
    (x >>= f).Returns ↔ x.Returns ∧ ∀ a, x = ok a → (f a).Returns := by
  cases x <;> simp

@[simp] theorem returns_okOr (e : ε) (o : Option α) : (okOr e o).Returns := by
  cases o <;> trivial

@[simp] theorem returns_unwrap (o : Option α) :
    (unwrap o : Fallible ε α).Returns ↔ o.isSome = true := by
  cases o <;> simp [unwrap]

end Fallible

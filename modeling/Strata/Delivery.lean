/-!
# Deliveries

What comes one item after the other may be cut off by a fault. A delivery keeps the items that came before it.
-/

namespace Strata

/-- Items that came one after the other, and the fault that ended the delivery early, if one did. -/
structure Delivery (ε α : Type) where
  items : List α
  fault : Option ε
  deriving Repr, DecidableEq

namespace Delivery

variable {ε ε' α : Type}

/-- All items, or the fault that kept some of them back. -/
def complete (d : Delivery ε α) : Except ε (List α) :=
  match d.fault with
  | none => .ok d.items
  | some f => .error f

/-- A delivery is complete iff no fault ended it. -/
theorem complete_eq_ok_iff {d : Delivery ε α} {items : List α} :
    d.complete = .ok items ↔ d.fault = none ∧ d.items = items := by
  rw [complete]
  cases d.fault <;> simp

/-- A delivery is incomplete because of the fault that ended it. -/
theorem complete_eq_error_iff {d : Delivery ε α} {f : ε} : d.complete = .error f ↔ d.fault = some f := by
  rw [complete]
  cases d.fault <;> simp

/-- The delivery with its fault seen as another one. -/
def mapFault (f : ε → ε') (d : Delivery ε α) : Delivery ε' α :=
  ⟨d.items, d.fault.map f⟩

/-- The delivery that a fault ended before anything came. -/
def failed (f : ε) : Delivery ε α :=
  ⟨[], some f⟩

end Delivery

end Strata

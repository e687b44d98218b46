import DocGrid.Number.Binary64

/-! The line of numbers on which whole numbers, doubles and decimals are compared. -/

namespace DocGrid

/-- A number without a rounding of its own, or one of the two ends of the line. -/
inductive Quantity where
  | lowest
  | exact (q : Rat)
  | highest
  deriving DecidableEq, Repr

namespace Quantity

def le : Quantity → Quantity → Bool
  | lowest, _ => true
  | _, highest => true
  | exact p, exact q => decide (p ≤ q)
  | _, _ => false

def lt (a b : Quantity) : Bool :=
  !b.le a

def order (a b : Quantity) : Ordering :=
  if a = b then .eq else if a.le b then .lt else .gt

def ofInt (n : Int) : Quantity :=
  exact n

def infinite (negative : Bool) : Quantity :=
  if negative then lowest else highest

/-- Where a double stands; nowhere when it is not a number. -/
def ofBinary64 (x : Binary64) : Option Quantity :=
  if x.isNaN then none
  else if x.isInfinite then some (infinite x.negative)
  else some (exact x.toRat)

theorem le_refl (a : Quantity) : a.le a = true := by
  cases a <;> simp [le]

theorem le_total (a b : Quantity) : a.le b = true ∨ b.le a = true := by
  cases a <;> cases b <;> simp [le, Rat.le_total]

theorem le_trans {a b c : Quantity} (h : a.le b = true) (h' : b.le c = true) :
    a.le c = true := by
  cases a <;> cases b <;> cases c <;> simp_all [le]
  exact Rat.le_trans h h'

theorem le_antisymm {a b : Quantity} (h : a.le b = true) (h' : b.le a = true) : a = b := by
  cases a <;> cases b <;> simp_all [le]
  exact Rat.le_antisymm h h'

end Quantity

end DocGrid

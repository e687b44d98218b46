import DocGrid.Number.Decimal

/-! Numbers of all three kinds, compared by what they are worth and not by how they are kept. -/

namespace DocGrid

inductive Number where
  | int (n : Int)
  | float (x : Binary64)
  | decimal (d : Decimal)
  deriving DecidableEq, Repr

namespace Number

/-- Where the number stands; nowhere when it is not a number. -/
def quantity? : Number → Option Quantity
  | int n => some (.ofInt n)
  | float x => Quantity.ofBinary64 x
  | decimal d => d.quantity?

def isDecimal : Number → Bool
  | decimal _ => true
  | _ => false

/-- What is not a number equals nothing, itself included. -/
def same (a b : Number) : Bool :=
  match a.quantity?, b.quantity? with
  | some p, some q => decide (p = q)
  | _, _ => false

def isZero : Number → Bool
  | int n => n == 0
  | float x => x.isZero
  | decimal (.finite _ c _) => c == 0
  | decimal _ => false

def text : Number → String
  | int n => toString n
  | float x => x.text
  | decimal d => d.text

end Number

end DocGrid

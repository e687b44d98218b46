import DocGrid.Failure
import DocGrid.Text.Digit

/-! Pages as windows into a list. -/

namespace DocGrid

/-- A part of a list, of which a limit of zero takes all the rest. -/
structure Window where
  offset : Nat
  limit : Nat
  deriving DecidableEq, Repr

namespace Page

def defaultItems : Int := 10

/-- The whole number that a text starts with, after white space. -/
def leadingInt? (s : String) : Result (Option Int) :=
  let cs := Text.trimStart s.toList
  let (negative, rest) := Reading.splitSign cs
  let digits := rest.takeWhile Text.isDigit
  if digits.isEmpty then .ok none
  else if Reading.maxDigits < digits.length then .error .badValue
  else
    let n := Reading.natOf (digits.map Reading.plainDigit)
    .ok (some (if negative then -(n : Int) else n))

/-- Reads a page number or size: a number without its fraction, or the number that a text starts
with. -/
def int? : Value → Result (Option Int)
  | .null => .ok none
  | .bool _ => .ok none
  | .number (.int n) => .ok (some n)
  | .number (.float x) => .ok (if x.isFinite then some x.truncate else none)
  | .text s => leadingInt? s
  | _ => .error .wrongKind

/-- The window of a page. Pages count from one, and pages before it are the first one. -/
def window (page items : Value) (default : Int) : Result Window := do
  let number ← if page.isNull then pure (some 1) else int? page
  let size ← int? items
  let limit := (size.getD default).toNat
  return ⟨((number.getD 0) - 1).toNat * limit, limit⟩

end Page

end DocGrid

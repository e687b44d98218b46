import DocGrid.Number.Reading

/-! Numbers in the texts of a database, between ASCII white space. -/

namespace DocGrid

structure Numeral where
  negative : Bool
  digits : List Char
  part : List Char
  exponent : Int
  isWhole : Bool

namespace Numeral

def isSpace (c : Char) : Bool :=
  c == ' ' || (decide ('\t' ≤ c) && decide (c ≤ '\r'))

def trim (cs : List Char) : List Char :=
  ((cs.dropWhile isSpace).reverse.dropWhile isSpace).reverse

/-- Digits, a point among them or not, and an exponent. -/
def read? (s : String) : Option Numeral :=
  let (negative, cs) := Reading.splitSign (trim s.toList)
  let digits := cs.takeWhile Reading.isPlain
  let rest := cs.dropWhile Reading.isPlain
  let part := match rest with
    | '.' :: after => after.takeWhile Reading.isPlain
    | _ => []
  let tail := match rest with
    | '.' :: after => after.dropWhile Reading.isPlain
    | _ => rest
  if digits.isEmpty && part.isEmpty then none
  else (Reading.exponent? tail).map fun e => ⟨negative, digits, part, e, rest.isEmpty⟩

def toInt (n : Numeral) : Int :=
  let size : Nat := Reading.natOf n.digits
  if n.negative then -(size : Int) else size

end Numeral

end DocGrid

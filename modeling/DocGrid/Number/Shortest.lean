import DocGrid.Number.Binary64
import DocGrid.Text.Quoted

/-! The text of a double with the fewest digits that still read back as the same double. -/

namespace DocGrid

/-- The number `digits * 10 ^ scale`. -/
structure Scaled where
  digits : Nat
  scale : Int
  deriving DecidableEq, Repr

namespace Scaled

def toBinary64 (negative : Bool) (s : Scaled) : Binary64 :=
  if 0 ≤ s.scale then Binary64.ofRatio negative (s.digits * Nat.pow 10 s.scale.toNat) 1
  else Binary64.ofRatio negative s.digits (Nat.pow 10 (-s.scale).toNat)

def digitCount (n : Nat) : Nat :=
  (Nat.toDigits 10 n).length

/-- Trailing zeros of the digits count towards the scale. -/
def trimZeros : Nat → Scaled → Scaled
  | 0, s => s
  | fuel + 1, s =>
    if s.digits ≠ 0 ∧ s.digits % 10 = 0 then trimZeros fuel ⟨s.digits / 10, s.scale + 1⟩ else s

end Scaled

namespace Binary64

/-- The exponent of the first decimal digit of a finite number that is not zero. -/
def decimalExponent (x : Binary64) : Int :=
  (Scaled.digitCount (x.units * Nat.pow 10 400 / unitsInOne) : Int) - 401

/-- Numerator and denominator of the size of `x` in units of `10 ^ scale`. -/
def overScale (x : Binary64) (scale : Int) : Nat × Nat :=
  if 0 ≤ scale then (x.units, unitsInOne * Nat.pow 10 scale.toNat)
  else (x.units * Nat.pow 10 (-scale).toNat, unitsInOne)

/-- Of the two neighbours of `x` with `count` digits, the nearer one that reads back as `x`. -/
def shortWith? (x : Binary64) (count : Nat) : Option Scaled :=
  let scale := x.decimalExponent + 1 - count
  let size := x.overScale scale
  let n := size.1
  let d := size.2
  let below : Scaled := ⟨n / d, scale⟩
  let above : Scaled := ⟨n / d + 1, scale⟩
  let near := if roundHalfEven n d = n / d then below else above
  let far := if roundHalfEven n d = n / d then above else below
  if near.toBinary64 x.negative = x then some near
  else if far.toBinary64 x.negative = x then some far
  else none

/-- The shortest digits of a finite number that is not zero; seventeen always suffice. -/
def shortest (x : Binary64) : Scaled :=
  let found := (List.range 17).findSome? (fun n => x.shortWith? (n + 1))
  Scaled.trimZeros 20 (found.getD ⟨0, 0⟩)

end Binary64

/-- Numbers from `10 ^ low` up to `10 ^ high` are written without an exponent. -/
structure FloatStyle where
  low : Int
  high : Int
  exponentWidth : Nat

/-- Four zeros after the point and sixteen digits before it are still written out. -/
def FloatStyle.standard : FloatStyle :=
  ⟨-4, 16, 2⟩

namespace FloatStyle

def exponentText (style : FloatStyle) (e : Int) : List Char :=
  'e' :: (if e < 0 then '-' else '+') :: Text.padded style.exponentWidth e.natAbs

/-- Digits with the point after the digit of the exponent zero. -/
def positional (digits : List Char) (e : Int) : List Char :=
  if e < 0 then '0' :: '.' :: List.replicate ((-e).toNat - 1) '0' ++ digits
  else
    let whole := e.toNat + 1
    if digits.length ≤ whole then
      digits ++ List.replicate (whole - digits.length) '0' ++ ['.', '0']
    else digits.take whole ++ '.' :: digits.drop whole

def scientific (style : FloatStyle) (digits : List Char) (e : Int) : List Char :=
  match digits with
  | [] => []
  | [d] => d :: style.exponentText e
  | d :: rest => d :: '.' :: rest ++ style.exponentText e

def size (style : FloatStyle) (x : Binary64) : List Char :=
  if x.isZero then ['0', '.', '0']
  else
    let s := x.shortest
    let digits := Nat.toDigits 10 s.digits
    let e := s.scale + digits.length - 1
    if style.low ≤ e ∧ e < style.high then positional digits e
    else style.scientific digits e

end FloatStyle

def Binary64.text (x : Binary64) : String :=
  if x.isNaN then "nan"
  else if x.isInfinite then if x.negative then "-inf" else "inf"
  else
    let size := FloatStyle.standard.size x
    String.ofList (if x.negative then '-' :: size else size)

end DocGrid

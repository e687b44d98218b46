import DocGrid.Number.Quantity
import DocGrid.Number.Reading

/-! Decimal numbers that keep the number of their digits, with sums rounded to twenty-eight
digits. -/

namespace DocGrid

/-- A finite number `± coefficient * 10 ^ exponent`, an infinity, or no number. One that is
signalling may not be compared or added at all. -/
inductive Decimal where
  | finite (negative : Bool) (coefficient : Nat) (exponent : Int)
  | infinite (negative : Bool)
  | nan (negative : Bool) (signalling : Bool) (payload : Nat)
  deriving DecidableEq, Repr

namespace Decimal

inductive Problem where
  | invalidOperation
  | overflow
  deriving DecidableEq, Repr

def powerOfTen (e : Int) : Rat :=
  if 0 ≤ e then mkRat (Nat.pow 10 e.toNat) 1 else mkRat 1 (Nat.pow 10 (-e).toNat)

def signed (negative : Bool) (n : Nat) : Int :=
  if negative then -(n : Int) else n

def quantity? : Decimal → Option Quantity
  | finite negative c e => some (.exact (((signed negative c : Int) : Rat) * powerOfTen e))
  | infinite negative => some (.infinite negative)
  | nan .. => none

def precision : Nat := 28
def maxExponent : Int := 999999
/-- The exponent of the last digit of the smallest numbers. -/
def minScale : Int := -1000026

def fit (negative : Bool) (c : Nat) (e : Int) : Except Problem Decimal :=
  if c = 0 then .ok (finite negative 0 (min (max e minScale) maxExponent))
  else
    let count : Int := Scaled.digitCount c
    let lowest := max (count + e - precision) minScale
    if maxExponent < count + e - 1 then .error .overflow
    else if e < lowest then
      let r := Binary64.roundHalfEven c (Nat.pow 10 (lowest - e).toNat)
      let r' := if r = Nat.pow 10 precision then r / 10 else r
      let e' := if r = Nat.pow 10 precision then lowest + 1 else lowest
      if maxExponent < (Scaled.digitCount r' : Int) + e' - 1 then .error .overflow
      else .ok (finite negative r' e')
    else .ok (finite negative c e)

def addFinite (n : Bool) (c : Nat) (e : Int) (n' : Bool) (c' : Nat) (e' : Int) :
    Except Problem Decimal :=
  let low := min e e'
  let s := signed n (c * Nat.pow 10 (e - low).toNat) + signed n' (c' * Nat.pow 10 (e' - low).toNat)
  if s = 0 then fit (n && n' && c = 0) 0 low
  else fit (decide (s < 0)) s.natAbs low

def add : Decimal → Decimal → Except Problem Decimal
  | nan _ true _, _ => .error .invalidOperation
  | _, nan _ true _ => .error .invalidOperation
  | nan n _ p, _ => .ok (nan n false p)
  | _, nan n _ p => .ok (nan n false p)
  | infinite n, infinite n' => if n = n' then .ok (infinite n) else .error .invalidOperation
  | infinite n, _ => .ok (infinite n)
  | _, infinite n => .ok (infinite n)
  | finite n c e, finite n' c' e' => addFinite n c e n' c' e'

def ofInt (n : Int) : Decimal :=
  finite (decide (n < 0)) n.natAbs 0

def signText (negative : Bool) : List Char :=
  if negative then ['-'] else []

/-- The digits with the point where the exponent puts it, or after the first digit when that
takes too many zeros. -/
def finiteText (c : Nat) (e : Int) : List Char :=
  let digits := Nat.toDigits 10 c
  let left := e + digits.length
  let place := if e ≤ 0 ∧ -6 < left then left else 1
  let body :=
    if place ≤ 0 then '0' :: '.' :: List.replicate (-place).toNat '0' ++ digits
    else if (digits.length : Int) ≤ place then
      digits ++ List.replicate (place.toNat - digits.length) '0'
    else digits.take place.toNat ++ '.' :: digits.drop place.toNat
  if left = place then body
  else
    let x := left - place
    body ++ 'E' :: (if x < 0 then '-' else '+') :: Nat.toDigits 10 x.natAbs

def text : Decimal → String
  | finite negative c e => String.ofList (signText negative ++ finiteText c e)
  | infinite negative => String.ofList (signText negative ++ "Infinity".toList)
  | nan negative signalling payload =>
    String.ofList (signText negative ++ (if signalling then "sNaN" else "NaN").toList ++
      (if payload = 0 then [] else Nat.toDigits 10 payload))

def nanWord? (word : List Char) : Option (Bool × Nat) :=
  let signalling := word.head? == some 's'
  match if signalling then word.tail else word with
  | 'n' :: 'a' :: 'n' :: digits =>
    if digits.all Reading.isPlain then some (signalling, Reading.natOf digits) else none
  | _ => none

def read? (s : String) : Option Decimal :=
  let (negative, cs) := Reading.splitSign (s.toList.map Reading.plainDigit)
  let word := Text.lower cs
  if word = "inf".toList || word = "infinity".toList then some (infinite negative)
  else
    match nanWord? word with
    | some (signalling, payload) => some (nan negative signalling payload)
    | none =>
      let whole := cs.takeWhile Reading.isPlain
      let rest := cs.dropWhile Reading.isPlain
      let part := match rest with
        | '.' :: after => after.takeWhile Reading.isPlain
        | _ => []
      let tail := match rest with
        | '.' :: after => after.dropWhile Reading.isPlain
        | _ => rest
      if whole.isEmpty && part.isEmpty then none
      else
        (Reading.exponent? tail).map
          (fun e => finite negative (Reading.natOf (whole ++ part)) (e - part.length))

end Decimal

end DocGrid

/-! Double-precision numbers as sign, exponent and fraction. Every finite one is a whole number
of units of `2 ^ -1074`, so that sums and comparisons are exact before they are rounded. -/

namespace DocGrid

structure Binary64 where
  negative : Bool
  exponent : Fin 2048
  /-- Fifty-two bits. -/
  fraction : Fin 0x10000000000000
  deriving DecidableEq, Repr

namespace Binary64

def isFinite (x : Binary64) : Bool :=
  x.exponent.val != 2047

def isNaN (x : Binary64) : Bool :=
  x.exponent.val == 2047 && x.fraction.val != 0

def isInfinite (x : Binary64) : Bool :=
  x.exponent.val == 2047 && x.fraction.val == 0

def zero (negative : Bool) : Binary64 :=
  ⟨negative, 0, 0⟩

def infinity (negative : Bool) : Binary64 :=
  ⟨negative, ⟨2047, by decide⟩, 0⟩

def nan : Binary64 :=
  ⟨false, ⟨2047, by decide⟩, ⟨0x8000000000000, by decide⟩⟩

def unitsInOne : Nat :=
  Nat.pow 2 1074

/-- The size of a finite number in units of `2 ^ -1074`. -/
def units (x : Binary64) : Nat :=
  if x.exponent.val = 0 then x.fraction.val
  else (0x10000000000000 + x.fraction.val) * Nat.pow 2 (x.exponent.val - 1)

def signedUnits (x : Binary64) : Int :=
  if x.negative then -(x.units : Int) else x.units

def isZero (x : Binary64) : Bool :=
  x.exponent.val == 0 && x.fraction.val == 0

def toRat (x : Binary64) : Rat :=
  mkRat x.signedUnits unitsInOne

/-- The nearest whole number to `n / d`, an even one when two are equally near. -/
def roundHalfEven (n d : Nat) : Nat :=
  let q := n / d
  let r := n % d
  if 2 * r < d then q
  else if d < 2 * r then q + 1
  else if q % 2 = 0 then q else q + 1

/-- Reads exponent and fraction off one word; the words from `2047 * 2 ^ 52` on overflow. -/
def ofWord (negative : Bool) (w : Nat) : Binary64 :=
  if h : w / 0x10000000000000 < 2047 then
    ⟨negative, ⟨w / 0x10000000000000, by omega⟩, ⟨w % 0x10000000000000, Nat.mod_lt _ (by decide)⟩⟩
  else infinity negative

/-- The double nearest to `n / d` units. A result of `2 ^ 52` or more significant units is kept
to fifty-three binary digits. -/
def ofUnits (negative : Bool) (n d : Nat) : Binary64 :=
  let shift := Nat.log2 (n / d) - 52
  ofWord negative (shift * 0x10000000000000 + roundHalfEven n (d * Nat.pow 2 shift))

def ofRatio (negative : Bool) (n d : Nat) : Binary64 :=
  ofUnits negative (n * unitsInOne) d

def ofInt (n : Int) : Binary64 :=
  ofRatio (decide (n < 0)) n.natAbs 1

/-- A whole number as a double, unless it is too large. -/
def ofInt? (n : Int) : Option Binary64 :=
  let x := ofInt n
  if x.isInfinite then none else some x

/-- The sum, rounded once. A sum of zeros is negative only when both are. -/
def add (x y : Binary64) : Binary64 :=
  if x.isNaN || y.isNaN then nan
  else if x.isInfinite then
    if y.isInfinite && x.negative != y.negative then nan else x
  else if y.isInfinite then y
  else
    let s := x.signedUnits + y.signedUnits
    if s = 0 then zero (x.negative && y.negative)
    else ofUnits (decide (s < 0)) s.natAbs 1

def negate (x : Binary64) : Binary64 :=
  { x with negative := !x.negative }

/-- The product with a whole number that is not zero, rounded once. -/
def times (x : Binary64) (n : Nat) : Binary64 :=
  if x.isFinite then ofUnits x.negative (x.units * n) 1 else x

def truncate (x : Binary64) : Int :=
  x.signedUnits.tdiv unitsInOne

def isIntegral (x : Binary64) : Bool :=
  x.isFinite && x.units % unitsInOne == 0

/-! No rounding ends in a number that is none. -/

@[simp] theorem isNaN_zero (negative : Bool) : (zero negative).isNaN = false := by
  simp [isNaN, zero]

@[simp] theorem isNaN_infinity (negative : Bool) : (infinity negative).isNaN = false := by
  simp [isNaN, infinity]

@[simp] theorem isNaN_ofWord (negative : Bool) (w : Nat) : (ofWord negative w).isNaN = false := by
  unfold ofWord
  split
  · next h =>
    have hne : w / 0x10000000000000 ≠ 2047 := by omega
    simp [isNaN, hne]
  · exact isNaN_infinity negative

@[simp] theorem isNaN_ofUnits (negative : Bool) (n d : Nat) : (ofUnits negative n d).isNaN = false :=
  isNaN_ofWord _ _

@[simp] theorem isNaN_ofRatio (negative : Bool) (n d : Nat) : (ofRatio negative n d).isNaN = false :=
  isNaN_ofUnits _ _ _

@[simp] theorem isNaN_ofInt (n : Int) : (ofInt n).isNaN = false :=
  isNaN_ofRatio _ _ _

end Binary64

end DocGrid

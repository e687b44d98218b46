import DocGrid.Store.Sql.Numeral

/-! How a database turns texts into doubles, and doubles into texts. It answers for fifteen digits
only, and its versions differ in the last ones, so that what is said of a database is said for any
conversions. Those that are worked out here are the ones of SQLite 3.40, which calculates with
sixty-four binary digits. -/

namespace DocGrid

class Conversions where
  real : Numeral → Binary64
  text : Binary64 → String
  /-- A database has no number that is none. -/
  isNaN_real : ∀ n, (real n).isNaN = false

/-- The number `mantissa * 2 ^ exponent`. -/
structure Extended where
  mantissa : Nat
  exponent : Int

namespace Extended

/-- The number with sixty-four binary digits that is nearest to `n / d * 2 ^ e`. -/
def round (n d : Nat) (e : Int) : Extended :=
  let size : Int := (Nat.log2 n : Int) - Nat.log2 d
  let isBelow := n * Nat.pow 2 (-size).toNat < d * Nat.pow 2 size.toNat
  let shift := if isBelow then size - 64 else size - 63
  ⟨Binary64.roundHalfEven (n * Nat.pow 2 (-shift).toNat) (d * Nat.pow 2 shift.toNat), shift + e⟩

def ofNat (n : Nat) : Extended :=
  round n 1 0

def mul (x y : Extended) : Extended :=
  round (x.mantissa * y.mantissa) 1 (x.exponent + y.exponent)

def div (x y : Extended) : Extended :=
  round x.mantissa y.mantissa (x.exponent - y.exponent)

/-- The product of `r` and the power `x ^ n`, by squaring. -/
def mulPow : Nat → Extended → Extended → Nat → Extended
  | 0, r, _, _ => r
  | fuel + 1, r, x, n =>
    let r := if n % 2 = 1 then r.mul x else r
    if n / 2 = 0 then r else mulPow fuel r (x.mul x) (n / 2)

def powerOfTen (n : Nat) : Extended :=
  mulPow 10 (ofNat 1) (ofNat 10) n

def toBinary64 (negative : Bool) (x : Extended) : Binary64 :=
  .ofRatio negative (x.mantissa * Nat.pow 2 x.exponent.toNat) (Nat.pow 2 (-x.exponent).toNat)

end Extended

namespace Numeral

/-- From here on no further digit is taken in. -/
def maxSignificand : Nat := 0xCCCCCCCCCCCCCCB

/-- Digits taken in, and how many more of them stand before the point. -/
def significand (n : Numeral) : Nat × Int :=
  let take (s : Nat × Int) (c : Char) (after : Bool) : Nat × Int :=
    if s.1 < maxSignificand then
      (s.1 * 10 + (c.toNat - 0x30), if after then s.2 - 1 else s.2)
    else if after then s else (s.1, s.2 + 1)
  n.part.foldl (take · · true) (n.digits.foldl (take · · false) (0, 0))

/-- Brings the exponent nearer to zero as long as the digits stay exact. -/
def lowerExponent : Nat → Nat → Int → Nat × Int
  | 0, s, e => (s, e)
  | fuel + 1, s, e =>
    if 0 < e ∧ s < 0xCCCCCCCCCCCCCCC then lowerExponent fuel (s * 10) (e - 1)
    else if e < 0 ∧ s % 10 = 0 then lowerExponent fuel (s / 10) (e + 1)
    else (s, e)

def tenTo308 : Binary64 :=
  .ofRatio false (Nat.pow 10 308) 1

/-- The double of `s * 10 ^ e`. Powers of ten that are no doubles are taken in two steps. -/
def scaled (negative : Bool) (s : Nat) (e : Int) : Binary64 :=
  let size := e.natAbs
  if e = 0 then .ofRatio negative s 1
  else if size < 308 then
    let scale := Extended.powerOfTen size
    let x := Extended.ofNat s
    (if e < 0 then x.div scale else x.mul scale).toBinary64 negative
  else if size < 342 then
    let scale := Extended.powerOfTen (size - 308)
    let x := Extended.ofNat s
    if e < 0 then .ofRatio negative ((x.div scale).toBinary64 negative).units tenTo308.units
    else
      .ofUnits negative (((x.mul scale).toBinary64 negative).units * tenTo308.units)
        Binary64.unitsInOne
  else if e < 0 then .zero negative
  else .infinity negative

/-- Exponents of more than five digits are cut. -/
def cutExponent (e : Int) : Int :=
  if e.natAbs < 100000 then e else if e < 0 then -10000 else 10000

/-- At most eighteen zeros go between the digits and the exponent. -/
def toReal (n : Numeral) : Binary64 :=
  let (s, left) := n.significand
  let (s, e) := lowerExponent 20 s (cutExponent n.exponent + left)
  if s = 0 then .zero n.negative else scaled n.negative s e

theorem isNaN_toReal (n : Numeral) : n.toReal.isNaN = false := by
  have hscaled (negative : Bool) (s : Nat) (e : Int) : (scaled negative s e).isNaN = false := by
    unfold scaled
    dsimp only
    split
    · simp
    · split
      · simp [Extended.toBinary64]
      · split
        · split <;> simp
        · split <;> simp
  unfold toReal
  dsimp only
  split
  · rfl
  · exact hscaled _ _ _

end Numeral

namespace Binary64

/-- Fifteen digits of a number that is not zero, halves rounded up, and the exponent of the
first one. -/
def fifteenDigits (x : Binary64) : List Char × Int :=
  let scale := x.decimalExponent - 14
  let (n, d) := x.overScale scale
  let rounded := (2 * n + d) / (2 * d)
  let digits := Nat.toDigits 10 rounded
  let kept := (digits.reverse.dropWhile (· == '0')).reverse
  (kept, scale + digits.length - 1)

def sizeText (x : Binary64) : List Char :=
  if x.isInfinite then "Inf".toList
  else if x.isZero then "0.0".toList
  else
    let (digits, e) := fifteenDigits x
    if -4 ≤ e ∧ e < 15 then FloatStyle.positional digits e
    else
      let rest := if digits.tail.isEmpty then ['0'] else digits.tail
      digits.take 1 ++ '.' :: rest ++ FloatStyle.standard.exponentText e

def realText (x : Binary64) : String :=
  String.ofList (if x.negative && !x.isZero then '-' :: sizeText x else sizeText x)

end Binary64

instance : Conversions := ⟨Numeral.toReal, Binary64.realText, Numeral.isNaN_toReal⟩

end DocGrid

import DocGrid.Number.Shortest
import DocGrid.Text.Blank
import DocGrid.Text.Case
import DocGrid.Text.Digit

/-! Numbers written in a text: digits of any script, single low lines between digits, and
white space around the number. -/

namespace DocGrid.Reading

/-- White space that may stand around a number. The four separators that precede the space
character may not. -/
def isMargin (c : Char) : Bool :=
  Text.isBlank c && !(decide (0x1C ≤ c.toNat) && decide (c.toNat ≤ 0x1F))

def trimMargin (cs : List Char) : List Char :=
  ((cs.dropWhile isMargin).reverse.dropWhile isMargin).reverse

/-- Digits of any script as the usual ones. -/
def plainDigit (c : Char) : Char :=
  match Text.digitValue? c with
  | some d => Char.ofNat (0x30 + d)
  | none => c

def isPlain (c : Char) : Bool :=
  decide ('0' ≤ c) && decide (c ≤ '9')

/-- Removes low lines between digits; any other low line spoils the text. -/
def joinDigits? : Option Char → List Char → Option (List Char)
  | _, [] => some []
  | before, '_' :: c :: rest =>
    if before.any isPlain && isPlain c then (joinDigits? (some c) rest).map (c :: ·) else none
  | _, c :: rest => if c = '_' then none else (joinDigits? (some c) rest).map (c :: ·)

def natOf (cs : List Char) : Nat :=
  cs.foldl (fun n c => n * 10 + (c.toNat - 0x30)) 0

def splitSign : List Char → Bool × List Char
  | '-' :: rest => (true, rest)
  | '+' :: rest => (false, rest)
  | cs => (false, cs)

/-- The largest number of digits a whole number may have. -/
def maxDigits : Nat := 4300

def int? (s : String) : Option Int := do
  let cs ← joinDigits? none ((trimMargin s.toList).map plainDigit)
  let (negative, digits) := splitSign cs
  if digits.isEmpty || !digits.all isPlain || maxDigits < digits.length then none
  else
    let n := natOf digits
    some (if negative then -(n : Int) else n)

/-- The double nearest to `digits * 10 ^ scale`. Far outside the range of doubles the power of
ten is not worked out. -/
def nearest (negative : Bool) (digits : Nat) (scale : Int) : Binary64 :=
  let size := (Scaled.digitCount digits : Int) + scale
  if digits = 0 ∨ size < -400 then Binary64.zero negative
  else if 400 < size then Binary64.infinity negative
  else Scaled.toBinary64 negative ⟨digits, scale⟩

/-- The signed exponent after the letter e. -/
def exponent? : List Char → Option Int
  | [] => some 0
  | e :: rest =>
    let (negative, digits) := splitSign rest
    if (e = 'e' || e = 'E') && !digits.isEmpty && digits.all isPlain then
      some (if negative then -(natOf digits : Int) else natOf digits)
    else none

/-- A number without sign: digits, a point among them or not, and an exponent. -/
def size? (negative : Bool) (cs : List Char) : Option Binary64 :=
  let word := Text.lower cs
  if word = ['i', 'n', 'f'] || word = ['i', 'n', 'f', 'i', 'n', 'i', 't', 'y'] then
    some (Binary64.infinity negative)
  else if word = ['n', 'a', 'n'] then some Binary64.nan
  else
    let whole := cs.takeWhile isPlain
    let rest := cs.dropWhile isPlain
    let part := match rest with
      | '.' :: after => after.takeWhile isPlain
      | _ => []
    let tail := match rest with
      | '.' :: after => after.dropWhile isPlain
      | _ => rest
    if whole.isEmpty && part.isEmpty then none
    else
      (exponent? tail).map (fun e => nearest negative (natOf (whole ++ part)) (e - part.length))

def float? (s : String) : Option Binary64 := do
  let cs ← joinDigits? none ((trimMargin s.toList).map plainDigit)
  let (negative, rest) := splitSign cs
  size? negative rest

end DocGrid.Reading

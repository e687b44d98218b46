import DocGrid.Number.Number
import DocGrid.Value.Basic

/-! Loose readings of values as typed data: whole numbers from texts and whole doubles, truth
values from words, but texts only from texts. -/

namespace DocGrid.Loose

def text? : Value → Option String
  | .text s => some s
  | _ => none

/-- Drops zeros in front, with single low lines between them, but not a last one that stands
alone or before a point. -/
def dropZeros : Char → List Char → Option (List Char)
  | before, [] => some [before]
  | before, c :: rest =>
    if c = '0' ∨ c = '_' then dropZeros c rest
    else if c = '.' then some (before :: c :: rest)
    else if Reading.isPlain c then some (c :: rest)
    else none

def wholeStart? : List Char → Option (List Char)
  | [] => none
  | c :: rest =>
    if c = '0' then dropZeros c rest
    else if Reading.isPlain c || c = '-' then some (c :: rest)
    else none

/-- Drops a point followed by nothing but zeros. -/
def dropFraction (cs : List Char) : List Char :=
  match cs.dropWhile (· ≠ '.') with
  | _ :: zeros => if zeros.all (· = '0') then cs.takeWhile (· ≠ '.') else cs
  | [] => cs

def intText? (s : String) : Option Int := do
  let cs := Reading.trimMargin s.toList
  let cs := match cs with
    | '+' :: '-' :: _ => []
    | '+' :: rest => rest
    | cs => cs
  let cs ← wholeStart? cs
  let (negative, digits) := match dropFraction cs with
    | '-' :: rest => (true, rest)
    | cs => (false, cs)
  let digits ← Reading.joinDigits? none digits
  if digits.isEmpty || !digits.all Reading.isPlain || Reading.maxDigits < s.length then none
  else
    let n := Reading.natOf digits
    some (if negative then -(n : Int) else n)

/-- A whole double, unless it is too large for sixty-three bits. -/
def intFloat? (x : Binary64) : Option Int :=
  if x.isIntegral && decide (x.truncate.natAbs < 0x8000000000000000) then some x.truncate else none

def intDecimal? (d : Decimal) : Option Int :=
  match d.quantity? with
  | some (.exact q) => if q.den = 1 then some q.num else none
  | _ => none

def int? : Value → Option Int
  | .bool b => some (if b then 1 else 0)
  | .number (.int n) => some n
  | .number (.float x) => intFloat? x
  | .number (.decimal d) => intDecimal? d
  | .text s => intText? s
  | _ => none

/-- The double nearest to a decimal number. -/
def nearest (d : Decimal) : Binary64 :=
  match d with
  | .finite negative c e => Reading.nearest negative c e
  | .infinite negative => .infinity negative
  | .nan .. => .nan

/-- Digits, a point and an exponent, with low lines only where there is no white space. -/
def floatText? (s : String) : Option Binary64 :=
  let read (cs : List Char) : Option Binary64 :=
    let (negative, rest) := Reading.splitSign cs
    Reading.size? negative rest
  match read (Reading.trimMargin s.toList) with
  | some x => some x
  | none => (Reading.joinDigits? none s.toList).bind read

def float? : Value → Option Binary64
  | .bool b => some (Binary64.ofInt (if b then 1 else 0))
  | .number (.int n) => Binary64.ofInt? n
  | .number (.float x) => some x
  | .number (.decimal d) => some (nearest d)
  | .text s => floatText? s
  | _ => none

def yesWords : List String := ["1", "on", "t", "true", "y", "yes"]

def noWords : List String := ["0", "off", "f", "false", "n", "no"]

def asciiLower (s : String) : String :=
  String.ofList (s.toList.map Char.toLower)

def bool? : Value → Option Bool
  | .bool b => some b
  | .number n =>
    if n.same (.int 0) then some false else if n.same (.int 1) then some true else none
  | .text s =>
    if yesWords.contains (asciiLower s) then some true
    else if noWords.contains (asciiLower s) then some false
    else none
  | _ => none

def mapping? : Value → Option Document
  | .mapping entries => some entries
  | _ => none

def allOf {α : Type} (read : Value → Option α) : List Value → Option (List α)
  | [] => some []
  | v :: rest => do
    let a ← read v
    return a :: (← allOf read rest)

def list? {α : Type} (read : Value → Option α) : Value → Option (List α)
  | .list items => allOf read items
  | _ => none

def nullable {α : Type} (read : Value → Option α) : Value → Option (Option α)
  | .null => some none
  | v => (read v).map some

end DocGrid.Loose

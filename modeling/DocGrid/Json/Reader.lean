import DocGrid.Failure
import DocGrid.Text.Hex

/-! Values from JSON texts. Three words for numbers beyond all bounds are read as well. -/

namespace DocGrid.Json

def isSpace (c : Char) : Bool :=
  c == ' ' || c == '\t' || c == '\n' || c == '\r'

def skip (cs : List Char) : List Char :=
  cs.dropWhile isSpace

def unescape? : Char → Option Nat
  | '"' => some 0x22
  | '\\' => some 0x5C
  | '/' => some 0x2F
  | 'b' => some 0x8
  | 'f' => some 0xC
  | 'n' => some 0xA
  | 'r' => some 0xD
  | 't' => some 0x9
  | _ => none

/-- The code units up to the closing quotation mark, and what follows the mark. -/
def units? : List Char → Option (List Nat × List Char)
  | [] => none
  | '"' :: rest => some ([], rest)
  | '\\' :: 'u' :: a :: b :: c :: d :: rest => do
    let unit ← Text.hexValue? [a, b, c, d]
    let (more, rest) ← units? rest
    return (unit :: more, rest)
  | '\\' :: e :: rest => do
    let unit ← unescape? e
    let (more, rest) ← units? rest
    return (unit :: more, rest)
  | c :: rest =>
    if c < ' ' ∨ c = '\\' then none
    else (units? rest).map fun (more, rest) => (c.toNat :: more, rest)

/-- A surrogate without its partner is replaced. -/
def charOf (n : Nat) : Char :=
  if 0xD800 ≤ n ∧ n < 0xE000 then '\ufffd' else Char.ofNat n

/-- Characters from code units, of which two surrogates make one. -/
def ofUnits : List Nat → List Char
  | [] => []
  | [n] => [charOf n]
  | n :: m :: rest =>
    if 0xD800 ≤ n ∧ n < 0xDC00 ∧ 0xDC00 ≤ m ∧ m < 0xE000 then
      Char.ofNat (0x10000 + (n - 0xD800) * 0x400 + (m - 0xDC00)) :: ofUnits rest
    else charOf n :: ofUnits (m :: rest)

def text (cs : List Char) : Result (String × List Char) :=
  match units? cs with
  | some (us, rest) => .ok (String.ofList (ofUnits us), rest)
  | none => .error .notJson

/-- A point and the digits after it, if there are any. -/
def fraction (cs : List Char) : List Char × List Char :=
  match cs with
  | '.' :: rest =>
    let digits := rest.takeWhile Reading.isPlain
    if digits.isEmpty then ([], cs) else ('.' :: digits, rest.dropWhile Reading.isPlain)
  | _ => ([], cs)

/-- The letter e, a sign or none, and digits, if there are any. -/
def exponent (cs : List Char) : List Char × List Char :=
  match cs with
  | e :: rest =>
    let (sign, rest) := match rest with
      | '-' :: rest => (['-'], rest)
      | '+' :: rest => (['+'], rest)
      | _ => ([], rest)
    let digits := rest.takeWhile Reading.isPlain
    if (e = 'e' ∨ e = 'E') ∧ !digits.isEmpty then
      (e :: sign ++ digits, rest.dropWhile Reading.isPlain)
    else ([], cs)
  | [] => ([], cs)

/-- The digits of a whole number: a zero, or digits of which the first one is none. -/
def whole? (cs : List Char) : Option (List Char × List Char) :=
  match cs with
  | '0' :: rest => some (['0'], rest)
  | _ =>
    let digits := cs.takeWhile Reading.isPlain
    if digits.isEmpty then none else some (digits, cs.dropWhile Reading.isPlain)

def number (negative : Bool) (cs : List Char) : Result (Value × List Char) :=
  match whole? cs with
  | none => .error .notJson
  | some (digits, rest) =>
    let (part, rest) := fraction rest
    let (power, rest) := exponent rest
    if part.isEmpty && power.isEmpty then
      if Reading.maxDigits < digits.length then .error .badValue
      else
        let n := Reading.natOf digits
        .ok (.int (if negative then -(n : Int) else n), rest)
    else
      match Reading.size? negative (digits ++ part ++ power) with
      | some x => .ok (.float x, rest)
      | none => .error .notJson

def words : List (List Char × Value) :=
  [("null".toList, .null), ("true".toList, .bool true), ("false".toList, .bool false),
    ("NaN".toList, .float .nan), ("Infinity".toList, .float (.infinity false)),
    ("-Infinity".toList, .float (.infinity true))]

def atom (cs : List Char) : Result (Value × List Char) :=
  match words.findSome? (fun w => (Text.dropLead? w.1 cs).map fun rest => (w.2, rest)) with
  | some found => .ok found
  | none =>
    match cs with
    | '-' :: rest => number true rest
    | _ => number false cs

mutual

def value : Nat → List Char → Result (Value × List Char)
  | 0, _ => .error .notJson
  | fuel + 1, cs =>
    match cs with
    | '"' :: rest => do
      let (s, rest) ← text rest
      return (.text s, rest)
    | '[' :: rest =>
      match skip rest with
      | ']' :: rest => .ok (.list [], rest)
      | rest => do
        let (items, rest) ← items fuel rest
        return (.list items, rest)
    | '\x7b' :: rest =>
      match skip rest with
      | '\x7d' :: rest => .ok (.mapping [], rest)
      | rest => do
        let (entries, rest) ← entries fuel rest
        return (.mapping (Document.ofPairs entries), rest)
    | _ => atom cs

def items : Nat → List Char → Result (List Value × List Char)
  | 0, _ => .error .notJson
  | fuel + 1, cs => do
    let (v, rest) ← value fuel cs
    match skip rest with
    | ',' :: rest =>
      let (vs, rest) ← items fuel (skip rest)
      return (v :: vs, rest)
    | ']' :: rest => return ([v], rest)
    | _ => throw .notJson

def entries : Nat → List Char → Result (List (String × Value) × List Char)
  | 0, _ => .error .notJson
  | fuel + 1, cs =>
    match cs with
    | '"' :: rest => do
      let (key, rest) ← text rest
      match skip rest with
      | ':' :: rest =>
        let (v, rest) ← value fuel (skip rest)
        match skip rest with
        | ',' :: rest =>
          let (es, rest) ← entries fuel (skip rest)
          return ((key, v) :: es, rest)
        | '\x7d' :: rest => return ([(key, v)], rest)
        | _ => throw .notJson
      | _ => throw .notJson
    | _ => .error .notJson

end

/-- Reads a text that holds one value. Of two entries with one key the last one counts. -/
def read (cs : List Char) : Result Value := do
  let (v, rest) ← value (2 * cs.length + 2) (skip cs)
  if (skip rest).isEmpty then return v else throw .notJson

end DocGrid.Json

import DocGrid.Failure

/-! The kinds of YAML nodes, and the kinds that plain scalars have by their look. -/

namespace DocGrid.Yaml

inductive Tag where
  | null
  | bool
  | int
  | float
  | binary
  | timestamp
  | str
  | seq
  | map
  | set
  | omap
  | pairs
  | merge
  | value
  /-- A kind that nothing is known of. -/
  | foreign
  deriving DecidableEq, Repr

namespace Tag

def standardLead : String := "tag:yaml.org,2002:"

def names : List (String × Tag) :=
  [("null", null), ("bool", bool), ("int", int), ("float", float), ("binary", binary),
    ("timestamp", timestamp), ("str", str), ("seq", seq), ("map", map), ("set", set),
    ("omap", omap), ("pairs", pairs), ("merge", merge), ("value", value)]

def ofText (s : String) : Tag :=
  match names.find? fun e => standardLead ++ e.1 == s with
  | some e => e.2
  | none => foreign

end Tag

/-! The look of plain scalars -/

namespace Plain

def isDigitOrLow (c : Char) : Bool :=
  Reading.isPlain c || c == '_'

def dropSign : List Char → List Char
  | '+' :: rest => rest
  | '-' :: rest => rest
  | cs => cs

def boolWords : List (String × Bool) :=
  [("yes", true), ("Yes", true), ("YES", true), ("no", false), ("No", false), ("NO", false),
    ("true", true), ("True", true), ("TRUE", true), ("false", false), ("False", false),
    ("FALSE", false), ("on", true), ("On", true), ("ON", true), ("off", false), ("Off", false),
    ("OFF", false)]

def nullWords : List String :=
  ["", "~", "null", "Null", "NULL"]

/-- One or more numbers below sixty, each after a colon, and what follows them. -/
def sixties? : List Char → Option (List Char)
  | ':' :: a :: b :: rest =>
    if Reading.isPlain a && Reading.isPlain b && a ≤ '5' then
      if rest.head? == some ':' then sixties? rest else some rest
    else if Reading.isPlain a then
      if b == ':' then sixties? (b :: rest) else some (b :: rest)
    else none
  | [':', a] => if Reading.isPlain a then some [] else none
  | _ => none

/-- A number from one to nine and further digits, and what follows them. -/
def afterDigits? (start : Char) : List Char → Option (List Char)
  | c :: rest => if start ≤ c ∧ c ≤ '9' then some (rest.dropWhile isDigitOrLow) else none
  | [] => none

def allOf (cs : List Char) (kind : Char → Bool) : Bool :=
  !cs.isEmpty && cs.all kind

def isInt (cs : List Char) : Bool :=
  match dropSign cs with
  | ['0'] => true
  | '0' :: 'b' :: ds => allOf ds fun c => c == '0' || c == '1' || c == '_'
  | '0' :: 'x' :: ds => allOf ds fun c => (Text.hexDigit? c).isSome || c == '_'
  | '0' :: ds => allOf ds fun c => ('0' ≤ c && c ≤ '7') || c == '_'
  | cs =>
    match afterDigits? '1' cs with
    | some [] => true
    | some rest => sixties? rest == some []
    | none => false

/-- Nothing, or the letter e with a signed exponent. -/
def isExponent : List Char → Bool
  | [] => true
  | e :: sign :: ds =>
    (e == 'e' || e == 'E') && (sign == '+' || sign == '-') && allOf ds Reading.isPlain
  | _ => false

def isFloat (cs : List Char) : Bool :=
  let size := dropSign cs
  [".inf", ".Inf", ".INF"].contains (String.ofList size) ||
    [".nan", ".NaN", ".NAN"].contains (String.ofList cs) ||
    match afterDigits? '0' size with
    | some ('.' :: rest) => isExponent (rest.dropWhile isDigitOrLow)
    | some rest =>
      match sixties? rest with
      | some ('.' :: part) => part.all isDigitOrLow
      | _ => false
    | none =>
      match cs with
      | '.' :: d :: rest => Reading.isPlain d && isExponent (rest.dropWhile isDigitOrLow)
      | _ => false

end Plain

/-- A point in time as it is written, with one or two digits for most of its parts. -/
structure Timestamp where
  date : List Nat
  clock : Option (Nat × Nat × Nat)
  fraction : List Char
  /-- Microseconds ahead of universal time. -/
  offset : Option Int
  /-- Whether month and day have two digits. -/
  isPadded : Bool

namespace Timestamp

/-- One digit or two, and what follows them. -/
def short? : List Char → Option (List Char × List Char)
  | a :: b :: rest =>
    if !Reading.isPlain a then none
    else if Reading.isPlain b then some ([a, b], rest)
    else some ([a], b :: rest)
  | [a] => if Reading.isPlain a then some ([a], []) else none
  | [] => none

def sign? (c : Char) (cs : List Char) : Option (List Char) :=
  match cs with
  | d :: rest => if d = c then some rest else none
  | [] => none

/-- Exactly `n` digits, and what follows them. -/
def digits? (n : Nat) (cs : List Char) : Option (List Char × List Char) :=
  let ds := cs.take n
  if ds.length = n ∧ ds.all Reading.isPlain then some (ds, cs.drop n) else none

def isBlank (c : Char) : Bool :=
  c == ' ' || c == '\t'

def minutes? (cs : List Char) : Option Nat :=
  match cs with
  | [] => some 0
  | _ => do
    let (m, rest) ← digits? 2 (← sign? ':' cs)
    if rest.isEmpty then some (Reading.natOf m) else none

/-- Nothing, or a letter for universal time, or hours and minutes ahead of it or behind. -/
def zone? (cs : List Char) : Option (Option Int) :=
  match cs with
  | [] => some none
  | _ =>
    match cs.dropWhile isBlank with
    | ['Z'] => some (some 0)
    | sign :: rest =>
      if sign = '+' ∨ sign = '-' then do
        let (h, rest) ← short? rest
        let m ← minutes? rest
        let n : Int := ((Reading.natOf h * 60 + m) * 60000000 : Nat)
        return some (if sign = '-' then -n else n)
      else none
    | [] => none

def afterDate? (cs : List Char) : Option (List Char) :=
  match cs with
  | c :: rest =>
    if c = 'T' ∨ c = 't' then some rest
    else if isBlank c then some (rest.dropWhile isBlank)
    else none
  | [] => none

def read? (cs : List Char) : Option Timestamp := do
  let (y, rest) ← digits? 4 cs
  let (m, rest) ← short? (← sign? '-' rest)
  let (d, rest) ← short? (← sign? '-' rest)
  let date := [Reading.natOf y, Reading.natOf m, Reading.natOf d]
  let isPadded := m.length = 2 && d.length = 2
  if rest.isEmpty then return ⟨date, none, [], none, isPadded⟩
  let (h, rest) ← short? (← afterDate? rest)
  let (min, rest) ← digits? 2 (← sign? ':' rest)
  let (s, rest) ← digits? 2 (← sign? ':' rest)
  let (fraction, rest) := match rest with
    | '.' :: rest => (rest.takeWhile Reading.isPlain, rest.dropWhile Reading.isPlain)
    | _ => ([], rest)
  let clock := (Reading.natOf h, Reading.natOf min, Reading.natOf s)
  return ⟨date, some clock, fraction, ← zone? rest, isPadded⟩

/-- The first six digits of a fraction as microseconds. -/
def microsecond (t : Timestamp) : Nat :=
  let ds := t.fraction.take 6
  Reading.natOf (ds ++ List.replicate (6 - ds.length) '0')

/-- The day or point in time, if the calendar and the clock have it. -/
def value? (t : Timestamp) : Option Value :=
  match t.date with
  | [y, m, d] =>
    let date : CalendarDate := ⟨y, m, d⟩
    if !date.isValid then none
    else
      match t.clock with
      | none => some (.date date)
      | some (h, min, s) =>
        if h < 24 ∧ min < 60 ∧ s < 60 ∧ (t.offset.getD 0).natAbs < 86400000000 then
          some (.datetime ⟨date, h, min, s, t.microsecond, t.offset⟩)
        else none
  | _ => none

end Timestamp

def Tag.ofPlain (cs : List Char) : Tag :=
  let s := String.ofList cs
  if Plain.boolWords.any (·.1 == s) then bool
  else if Plain.isFloat cs then float
  else if Plain.isInt cs then int
  else if s = "<<" then merge
  else if Plain.nullWords.contains s then null
  else if (Timestamp.read? cs).any (fun t => t.clock.isSome || t.isPadded) then timestamp
  else if s = "=" then value
  else if ["!", "&", "*"].contains s then foreign
  else str

end DocGrid.Yaml

import DocGrid.Time.Calendar

/-! Points in time, with or without an offset from universal time. Only points of the same kind
can be ordered, and points of different kinds are never equal. -/

namespace DocGrid

structure DateTime where
  date : CalendarDate
  hour : Nat
  minute : Nat
  second : Nat
  microsecond : Nat
  /-- Microseconds ahead of universal time, when the offset is known. -/
  offset : Option Int
  deriving DecidableEq, Repr

namespace DateTime

def isAware (t : DateTime) : Bool :=
  t.offset.isSome

/-- Microseconds since the start of the year one, in universal time where the offset is known. -/
def instant (t : DateTime) : Int :=
  let seconds := t.date.ordinal * 86400 + t.hour * 3600 + t.minute * 60 + t.second
  (seconds * 1000000 + t.microsecond : Nat) - t.offset.getD 0

/-- The order of two points of the same kind. -/
def compare? (a b : DateTime) : Option Ordering :=
  if a.isAware = b.isAware then some (compare a.instant b.instant) else none

def same (a b : DateTime) : Bool :=
  a.isAware == b.isAware && a.instant == b.instant

def offsetText (offset : Int) : List Char :=
  let n := offset.natAbs
  let seconds := n / 1000000
  let micro := n % 1000000
  (if offset < 0 then '-' else '+') :: Text.padded 2 (seconds / 3600) ++
    ':' :: Text.padded 2 (seconds / 60 % 60) ++
    (if seconds % 60 = 0 ∧ micro = 0 then [] else ':' :: Text.padded 2 (seconds % 60)) ++
    (if micro = 0 then [] else '.' :: Text.padded 6 micro)

def clockText (t : DateTime) : List Char :=
  Text.padded 2 t.hour ++ ':' :: Text.padded 2 t.minute ++ ':' :: Text.padded 2 t.second

/-- The ISO text with the given character between day and time. -/
def textWith (separator : Char) (t : DateTime) : String :=
  String.ofList (t.date.textChars ++ separator :: t.clockText ++
    (if t.microsecond = 0 then [] else '.' :: Text.padded 6 t.microsecond) ++
    match t.offset with
    | none => []
    | some offset => offsetText offset)

def text (t : DateTime) : String :=
  t.textWith 'T'

end DateTime

end DocGrid

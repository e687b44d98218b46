import DocGrid.Time.DateTime

/-! Reading ISO texts of points in time: with or without separators, with weeks, fractions of a
second and offsets. Any one character may stand between day and time. -/

namespace DocGrid.Iso

def digit? (c : Char) : Option Nat :=
  if '0' ≤ c ∧ c ≤ '9' then some (c.toNat - 0x30) else none

def isDigit (c : Char) : Bool :=
  (digit? c).isSome

/-- Reads a number of exactly `count` digits. -/
def number? : Nat → Nat → List Char → Option (Nat × List Char)
  | 0, n, cs => some (n, cs)
  | _ + 1, _, [] => none
  | count + 1, n, c :: rest => (digit? c).bind (fun d => number? count (n * 10 + d) rest)

/-- How many characters of the text belong to the day. -/
def dateLength? (cs : List Char) : Option Nat :=
  if cs.length = 7 then some 7
  else if cs[4]? = some '-' then
    if cs[5]? = some 'W' then
      if cs[8]? = some '-' then
        if cs.length = 9 then none
        else if cs[10]?.any isDigit then some 8 else some 10
      else some 8
    else some 10
  else if cs[4]? = some 'W' then
    let stop := 7 + ((cs.drop 7).takeWhile isDigit).length
    if stop < 9 then some stop else if stop % 2 = 0 then some 7 else some 8
  else some 8

/-- Skips the hyphen that a text with hyphens has here. -/
def skipHyphen? (hyphens : Bool) : List Char → Option (List Char)
  | cs =>
    if !hyphens then some cs
    else match cs with
      | '-' :: rest => some rest
      | _ => none

def weekDate? (year : Nat) (hyphens : Bool) (cs : List Char) : Option CalendarDate := do
  let (week, cs) ← number? 2 0 cs
  if cs.isEmpty then CalendarDate.ofWeek? year week 1
  else
    let cs ← skipHyphen? hyphens cs
    let (day, _) ← number? 1 0 cs
    CalendarDate.ofWeek? year week day

def monthDate? (year : Nat) (hyphens : Bool) (cs : List Char) : Option CalendarDate := do
  let (month, cs) ← number? 2 0 cs
  let cs ← skipHyphen? hyphens cs
  let (day, cs) ← number? 2 0 cs
  let date : CalendarDate := ⟨year, month, day⟩
  if cs.isEmpty && date.isValid then some date else none

def date? (cs : List Char) : Option CalendarDate := do
  let (year, cs) ← number? 4 0 cs
  let hyphens := cs.head? == some '-'
  match if hyphens then cs.tail else cs with
  | 'W' :: cs => weekDate? year hyphens cs
  | cs => monthDate? year hyphens cs

/-- Hours, minutes, seconds and microseconds as written. -/
structure Clock where
  hour : Nat
  minute : Nat
  second : Nat
  microsecond : Nat

namespace Clock

def isValid (t : Clock) : Bool :=
  decide (t.hour < 24) && decide (t.minute < 60) && decide (t.second < 60)

def seconds (t : Clock) : Nat :=
  t.hour * 3600 + t.minute * 60 + t.second

def set (t : Clock) (place n : Nat) : Clock :=
  match place with
  | 0 => { t with hour := n }
  | 1 => { t with minute := n }
  | _ => { t with second := n }

end Clock

/-- Whether something is left where the text should end. A null character counts as an end. -/
def isLeftOver (stop : Char) (cs : List Char) : Bool :=
  (cs.head?.getD stop).toNat != 0

/-- Up to six digits of a fraction of a second; digits after these are passed over. -/
def fraction? (stop : Char) (clock : Clock) (cs : List Char) : Option (Clock × Bool) := do
  let count := min cs.length 6
  let (n, rest) ← number? count 0 cs
  let clock := { clock with microsecond := n * Nat.pow 10 (6 - count) }
  some (clock, isLeftOver stop (rest.dropWhile isDigit))

/-- Reads the places from `place` on. `colons` says whether the hour was followed by a colon, and
`stop` is the character after the text. The answer tells if something is left over. -/
def places? (stop : Char) : Nat → Nat → Bool → Clock → List Char → Option (Clock × Bool)
  | 0, _, _, clock, cs => fraction? stop clock cs
  | more + 1, place, colons, clock, cs => do
    let (n, cs) ← number? 2 0 cs
    let clock := clock.set place n
    match cs with
    | [] => some (clock, isLeftOver stop [])
    | [c] => some (clock, isLeftOver stop [c])
    | c :: rest =>
      let colons := if place = 0 then c == ':' else colons
      if colons && c == ':' then places? stop more (place + 1) colons clock rest
      else if c == '.' || c == ',' then fraction? stop clock rest
      else if colons then none
      else places? stop more (place + 1) colons clock (c :: rest)

def clock? (stop : Char) (cs : List Char) : Option (Clock × Bool) :=
  places? stop 3 0 true ⟨0, 0, 0, 0⟩ cs

def terminator : Char := Char.ofNat 0

def isZoneMark (c : Char) : Bool :=
  c == '+' || c == '-' || c == 'Z'

/-- The offset in microseconds after its sign. It is less than a day, and a fraction counts only
beside whole seconds. -/
def offset? (negative : Bool) (cs : List Char) : Option Int := do
  let (t, left) ← clock? terminator cs
  if left then none
  else if t.seconds = 0 then some 0
  else
    let n := t.seconds * 1000000 + t.microsecond
    if n < 86400 * 1000000 then some (if negative then -(n : Int) else n) else none

/-- The time of day and the offset, if there is one. -/
def time? (cs : List Char) : Option (Clock × Option Int) := do
  let plain := cs.takeWhile (fun c => !isZoneMark c)
  match cs.dropWhile (fun c => !isZoneMark c) with
  | [] =>
    let (t, left) ← clock? terminator plain
    if left then none else some (t, none)
  | mark :: rest =>
    let (t, _) ← clock? mark plain
    if mark == 'Z' then if isLeftOver terminator rest then none else some (t, some 0)
    else (offset? (mark == '-') rest).map (fun offset => (t, some offset))

def dateTime? (s : String) : Option DateTime := do
  let cs := s.toList
  if cs.length < 7 then none
  else
    let length ← dateLength? cs
    let date ← date? (cs.take length)
    match cs.drop length with
    | [] => some ⟨date, 0, 0, 0, 0, none⟩
    | _ :: rest =>
      let (t, offset) ← time? rest
      if t.isValid then some ⟨date, t.hour, t.minute, t.second, t.microsecond, offset⟩ else none

/-- Reads a day written with hyphens. -/
def plainDate? (s : String) : Option CalendarDate :=
  let cs := s.toList
  if cs.length = 10 then date? cs else none

end DocGrid.Iso

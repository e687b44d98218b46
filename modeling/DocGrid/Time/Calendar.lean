import DocGrid.Text.Quoted

/-! Days of the Gregorian calendar, counted from the first day of the year one. -/

namespace DocGrid

structure CalendarDate where
  year : Nat
  month : Nat
  day : Nat
  deriving DecidableEq, Repr

namespace CalendarDate

def isLeap (year : Nat) : Bool :=
  year % 4 == 0 && (year % 100 != 0 || year % 400 == 0)

def daysInMonth (year month : Nat) : Nat :=
  match month with
  | 2 => if isLeap year then 29 else 28
  | 4 | 6 | 9 | 11 => 30
  | _ => 31

/-- Years run from 1 to 9999. -/
def isValid (d : CalendarDate) : Bool :=
  decide (1 ≤ d.year) && decide (d.year ≤ 9999) && decide (1 ≤ d.month) && decide (d.month ≤ 12)
    && decide (1 ≤ d.day) && decide (d.day ≤ daysInMonth d.year d.month)

def daysBeforeYear (year : Nat) : Nat :=
  let y := year - 1
  y * 365 + y / 4 - y / 100 + y / 400

def daysBeforeMonth (year : Nat) : Nat → Nat
  | 0 => 0
  | 1 => 0
  | m + 1 => daysBeforeMonth year m + daysInMonth year m

/-- The number of the day, one for the first of January of the year one. -/
def ordinal (d : CalendarDate) : Nat :=
  daysBeforeYear d.year + daysBeforeMonth d.year d.month + d.day

def monthOf (year : Nat) : Nat → Nat → Nat → CalendarDate
  | 0, month, day => ⟨year, month, day⟩
  | fuel + 1, month, day =>
    if day ≤ daysInMonth year month then ⟨year, month, day⟩
    else monthOf year fuel (month + 1) (day - daysInMonth year month)

/-- The year of a day, counted up from a guess that may be a little too early. -/
def yearFrom : Nat → Nat → Nat → Nat
  | 0, year, _ => year
  | fuel + 1, year, n =>
    if daysBeforeYear (year + 1) < n then yearFrom fuel (year + 1) n else year

/-- The day with this number. -/
def ofOrdinal (n : Nat) : CalendarDate :=
  let guess := (n - 1) / 366 + 1
  let year := yearFrom 30 guess n
  monthOf year 11 1 (n - daysBeforeYear year)

/-- The day of an ISO week: weeks start on Monday, and the first one holds the fourth of
January. -/
def ofWeek? (year week day : Nat) : Option CalendarDate :=
  let first := daysBeforeYear year + 1
  let weekday := first % 7
  let long := weekday = 4 || (weekday = 3 && isLeap year)
  if year < 1 || 9999 < year || week < 1 || 53 < week || (week = 53 && !long) || day < 1 || 7 < day
  then none
  else
    let monday : Int :=
      (daysBeforeYear year : Int) + 4 - (((daysBeforeYear year + 3) % 7 : Nat) : Int)
    let n := monday + 7 * (week - 1 : Nat) + (day - 1 : Nat)
    if n < 1 then none
    else
      let d := ofOrdinal n.toNat
      if d.isValid then some d else none

def textChars (d : CalendarDate) : List Char :=
  Text.padded 4 d.year ++ '-' :: Text.padded 2 d.month ++ '-' :: Text.padded 2 d.day

def text (d : CalendarDate) : String :=
  String.ofList d.textChars

end CalendarDate

end DocGrid

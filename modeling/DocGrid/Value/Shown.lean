import DocGrid.Text.Split
import DocGrid.Value.Basic

/-! Values as messages show them. -/

namespace DocGrid

/-- The spellings that messages use for values which are not written with their digits or in
quotes. -/
structure Wording where
  null : String
  yes : String
  no : String
  decimal : String
  date : String
  datetime : String
  utc : String
  zone : String
  span : String

def Wording.message : Wording where
  null := "None"
  yes := "True"
  no := "False"
  decimal := "Decimal"
  date := "datetime.date"
  datetime := "datetime.datetime"
  utc := "datetime.timezone.utc"
  zone := "datetime.timezone"
  span := "datetime.timedelta"

def commaList (items : List String) : String :=
  Text.joinText ", " items

namespace DateTime

/-- A span of time in days, seconds and microseconds, of which only the days may be negative. -/
def spanText (w : Wording) (micro : Int) : String :=
  let days := micro / 86400000000
  let rest := micro % 86400000000
  let parts := [("days", days), ("seconds", rest / 1000000), ("microseconds", rest % 1000000)]
  let named := parts.filterMap fun (name, n) => if n = 0 then none else some s!"{name}={n}"
  w.span ++ "(" ++ (if named.isEmpty then "0" else commaList named) ++ ")"

def zoneText (w : Wording) (offset : Int) : String :=
  if offset = 0 then w.utc else w.zone ++ "(" ++ spanText w offset ++ ")"

/-- Seconds and microseconds are left out when they are zero. -/
def shown (w : Wording) (t : DateTime) : String :=
  let micro := if t.microsecond = 0 then [] else [t.microsecond]
  let second := if t.microsecond = 0 ∧ t.second = 0 then [] else [t.second]
  let parts := ([t.date.year, t.date.month, t.date.day, t.hour, t.minute] ++ second ++ micro).map
    toString
  let zone := match t.offset with
    | none => []
    | some offset => ["tzinfo=" ++ zoneText w offset]
  w.datetime ++ "(" ++ commaList (parts ++ zone) ++ ")"

end DateTime

def CalendarDate.shown (w : Wording) (d : CalendarDate) : String :=
  w.date ++ "(" ++ commaList [toString d.year, toString d.month, toString d.day] ++ ")"

def Number.shown (w : Wording) : Number → String
  | .decimal d => w.decimal ++ "(" ++ Text.quoted d.text ++ ")"
  | n => n.text

namespace Value

mutual

def shownWith (w : Wording) : Value → String
  | null => w.null
  | bool b => if b then w.yes else w.no
  | number n => n.shown w
  | text s => Text.quoted s
  | date d => d.shown w
  | datetime t => t.shown w
  | list items => "[" ++ commaList (shownItems w items) ++ "]"
  | mapping entries => "\x7b" ++ commaList (shownEntries w entries) ++ "\x7d"

def shownItems (w : Wording) : List Value → List String
  | [] => []
  | v :: rest => shownWith w v :: shownItems w rest

def shownEntries (w : Wording) : List (String × Value) → List String
  | [] => []
  | (k, v) :: rest => (Text.quoted k ++ ": " ++ shownWith w v) :: shownEntries w rest

end

def shown (v : Value) : String :=
  v.shownWith .message

/-- The value as a text of its own: a text is itself, without quotes. -/
def display : Value → String
  | text s => s
  | number n => n.text
  | date d => d.text
  | datetime t => t.textWith ' '
  | v => v.shown

end Value

end DocGrid

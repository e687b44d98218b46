import DocGrid.Json.Printer
import DocGrid.Json.Reader
import DocGrid.Store.Sql.Cell
import DocGrid.Store.Table

/-! How columns put values into cells and read them back. -/

namespace DocGrid

namespace DateTime

/-- The text of a point in time in a database: always with microseconds, never with an offset. -/
def storedText (t : DateTime) : String :=
  String.ofList (t.date.textChars ++ ' ' :: t.clockText ++ '.' :: Text.padded 6 t.microsecond)

end DateTime

namespace ColumnType

def affinity : ColumnType → Affinity
  | int => .integer
  | float => .real
  | text => .text
  | plain => .text
  | bool => .numeric
  | datetime => .numeric
  | jsonList => .numeric
  | jsonMapping => .numeric

/-- A double from whatever has a number in it. -/
def toFloat : Value → Result Value
  | .null => .ok .null
  | .text s => (Reading.float? s).elim (.error .storeConversion) (.ok ∘ .float)
  | .number (.decimal (.nan _ true _)) => .error .storeConversion
  | v => (Loose.float? v).elim (.error .storeConversion) (.ok ∘ .float)

/-- A truth value, or a number that is zero or one. -/
def toBool : Value → Result Value
  | .null => .ok .null
  | v =>
    match v.number? with
    | some n =>
      if n.same (.int 0) then .ok (.int 0)
      else if n.same (.int 1) then .ok (.int 1)
      else .error .storeConversion
    | none => .error .storeConversion

def toTimeText : Value → Result Value
  | .null => .ok .null
  | .datetime t => .ok (.text t.storedText)
  | .date d => .ok (.text (DateTime.storedText ⟨d, 0, 0, 0, 0, none⟩))
  | _ => .error .storeConversion

def toJson (v : Value) : Result Value :=
  match Json.print false v with
  | .ok cs => .ok (.text (String.ofList cs))
  | .error _ => .error .storeConversion

/-- Turns a value into the form in which the column hands it to the database. -/
def convert : ColumnType → Value → Result Value
  | int, v => .ok v
  | text, v => .ok v
  | plain, v => .ok v
  | float, v => toFloat v
  | bool, v => toBool v
  | datetime, v => toTimeText v
  | jsonList, v => toJson v
  | jsonMapping, v => toJson v

def plainValue : Cell → Value
  | .null => .null
  | .int n => .int n
  | .real x => .float x
  | .text s => .text s

def load : ColumnType → Cell → Result Value
  | bool, .int n => .ok (.bool (n != 0))
  | datetime, .text s => (Iso.dateTime? s).elim (.error .badValue) (.ok ∘ .datetime)
  | jsonList, .text s => Json.read s.toList
  | jsonMapping, .text s => Json.read s.toList
  | _, c => .ok (plainValue c)

end ColumnType

end DocGrid

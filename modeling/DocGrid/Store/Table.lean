import DocGrid.Intake.Check
import DocGrid.Time.Iso

/-! The tables that documents are kept in. -/

namespace DocGrid

inductive ColumnType where
  | int
  | float
  | bool
  | text
  | datetime
  /-- Lists, kept as JSON. -/
  | jsonList
  /-- Mappings, kept as JSON. -/
  | jsonMapping
  /-- Texts whose type says nothing about them. -/
  | plain
  deriving DecidableEq, Repr

structure Column where
  name : String
  type : ColumnType
  isKey : Bool
  nullable : Bool
  /-- What a document has in this field when it does not say. -/
  default : Option Value

structure Table where
  name : String
  /-- The name that messages use. -/
  title : String
  columns : List Column

namespace Table

def people : Table :=
  ⟨"people", "Person",
    [⟨"id", .int, true, false, none⟩,
      ⟨"name", .text, false, false, some (.text "")⟩,
      ⟨"status", .text, false, false, some (.text "")⟩,
      ⟨"age", .int, false, false, some (.int 0)⟩,
      ⟨"tags", .jsonList, false, true, some (.list [])⟩,
      ⟨"address", .jsonMapping, false, true, some (.mapping [])⟩]⟩

def items : Table :=
  ⟨"items", "Item",
    [⟨"id", .int, true, true, some .null⟩,
      ⟨"name", .text, false, false, none⟩,
      ⟨"age", .int, false, false, none⟩,
      ⟨"score", .float, false, false, none⟩,
      ⟨"active", .bool, false, false, none⟩,
      ⟨"role", .text, false, true, some .null⟩]⟩

def pairs : Table :=
  ⟨"pairs", "Pair",
    [⟨"a", .int, true, false, none⟩,
      ⟨"b", .text, true, false, none⟩,
      ⟨"n", .int, false, false, some (.int 0)⟩]⟩

def events : Table :=
  ⟨"events", "Event",
    [⟨"id", .int, true, false, none⟩,
      ⟨"title", .text, false, true, some .null⟩,
      ⟨"at", .datetime, false, true, some .null⟩,
      ⟨"score", .float, false, true, some .null⟩,
      ⟨"raw", .plain, false, true, some .null⟩]⟩

def all : List Table :=
  [people, items, pairs, events]

def ofName? (name : String) : Option Table :=
  all.find? (fun t => t.name == name)

def keyColumns (t : Table) : List Column :=
  t.columns.filter (·.isKey)

def keyNames (t : Table) : List String :=
  t.keyColumns.map (·.name)

def column? (t : Table) (name : String) : Option Column :=
  t.columns.find? (fun c => c.name == name)

/-- The fields that a document gives. -/
def given (t : Table) (doc : Document) : Document :=
  t.columns.filterMap fun c => (doc.get? c.name).map fun v => (c.name, v)

/-- The fields that a document leaves to their defaults. -/
def defaults (t : Table) (doc : Document) : Document :=
  t.columns.filterMap fun c =>
    if doc.has c.name then none else c.default.map fun v => (c.name, v)

/-- The row of a document: what it gives, then the defaults. Values are taken as they are. -/
def row (t : Table) (doc : Document) : Document :=
  t.given doc ++ t.defaults doc

/-- A row with all fields, null where it has none. -/
def shownRow (t : Table) (row : Document) : Document :=
  t.columns.map fun c => (c.name, (row.get? c.name).getD .null)

def keyOf (t : Table) (row : Document) : List Value :=
  t.keyNames.map fun name => (row.get? name).getD .null

def keyDocument (t : Table) (row : Document) : Document :=
  t.keyNames.map fun name => (name, (row.get? name).getD .null)

end Table

namespace ColumnType

/-- A point in time from a text or a day. -/
def datetime? : Value → Option Value
  | .datetime t => some (.datetime t)
  | .date d => some (.datetime ⟨d, 0, 0, 0, 0, none⟩)
  | .text s => (Iso.dateTime? s).map .datetime
  | _ => none

/-- Reads a value as one of the column. -/
def read? : ColumnType → Value → Option Value
  | int, v => (Loose.int? v).map .int
  | float, v => (Loose.float? v).map .float
  | bool, v => (Loose.bool? v).map .bool
  | text, v => (Loose.text? v).map .text
  | datetime, v => datetime? v
  | jsonList, v => (Loose.list? some v).map .list
  | jsonMapping, v => (Loose.mapping? v).map .mapping
  | plain, v => (Loose.text? v).map .text

end ColumnType

namespace Column

/-- JSON columns have no null of their own among the values that are read. -/
def admitsNull (c : Column) : Bool :=
  c.nullable && c.type != .jsonList && c.type != .jsonMapping

def read? (c : Column) (v : Value) : Option Value :=
  if v.isNull && c.admitsNull then some .null else c.type.read? v

def check (c : Column) (doc : Document) : Check (String × Value) :=
  (match c.default with
   | some v => Check.optional doc c.name v c.read?
   | none => Check.required doc c.name c.read?).map fun v => (c.name, v)

end Column

namespace Table

def checkColumns (doc : Document) : List Column → Check Document
  | [] => .ok []
  | c :: rest => List.cons <$> c.check doc <*> checkColumns doc rest

/-- Reads a document of the table, with values of the right kinds in all fields. -/
def ofValue (t : Table) (v : Value) : Result Document := do
  (checkColumns (← v.fields) t.columns).result

end Table

end DocGrid

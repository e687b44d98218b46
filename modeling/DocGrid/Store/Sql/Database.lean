import DocGrid.Order.SortSpec
import DocGrid.Pipeline.Run
import DocGrid.Store.Access
import DocGrid.Store.Sql.Translate

/-! A store that keeps its tables in a SQL database. Rows come in the order of their numbers unless
they are sorted. -/

namespace DocGrid

structure SqlStore where
  tables : List (String × List SqlRow)

variable [Conversions]

namespace SqlStore

def empty : SqlStore := ⟨[]⟩

def rowsIn? (name : String) : List (String × List SqlRow) → Option (List SqlRow)
  | [] => none
  | (n, rows) :: rest => if n = name then some rows else rowsIn? name rest

def rows (s : SqlStore) (t : Table) : Result (List SqlRow) :=
  (rowsIn? t.name s.tables).elim (.error .storeOperation) .ok

def putRows (name : String) (rows : List SqlRow) :
    List (String × List SqlRow) → List (String × List SqlRow)
  | [] => [(name, rows)]
  | (n, old) :: rest => if n = name then (n, rows) :: rest else (n, old) :: putRows name rows rest

def withRows (s : SqlStore) (t : Table) (rows : List SqlRow) : SqlStore :=
  ⟨putRows t.name rows s.tables⟩

def setup (s : SqlStore) (t : Table) : SqlStore :=
  if (rowsIn? t.name s.tables).isSome then s else s.withRows t []

/-! Inserting -/

/-- The key column that counts the rows: a whole number that is the only key. -/
def numbering? (t : Table) : Option Column :=
  match t.keyColumns with
  | [c] => if c.type = .int then some c else none
  | _ => none

/-- The value that a row has for a column. A missing one is the default, but JSON has a null of
its own. -/
def columnValue (row : Document) (c : Column) : Value :=
  let v := (row.get? c.name).getD .null
  if v.isNull && c.type != .jsonList && c.type != .jsonMapping then c.default.getD .null else v

def converted (t : Table) (row : Document) : Result (List (Column × Value)) :=
  t.columns.mapM fun c => do return (c, ← c.type.convert (columnValue row c))

def bound (values : List (Column × Value)) : Result (List (Column × Cell)) :=
  values.mapM fun (c, v) => do return (c, Cell.stored c.type.affinity (← Cell.ofValue v))

def nextId (rows : List SqlRow) : Int :=
  match rows.getLast? with
  | some r => r.rowId + 1
  | none => 1

/-- The number of a new row, and its cells with the number among them. -/
def numbered (t : Table) (rows : List SqlRow) (cells : List (String × Cell)) : Result SqlRow :=
  match numbering? t with
  | none => .ok ⟨nextId rows, cells⟩
  | some c =>
    match SqlRow.cellIn c.name cells with
    | .null =>
      let n := nextId rows
      .ok ⟨n, cells.map fun e => if e.1 = c.name then (e.1, .int n) else e⟩
    | .int n => .ok ⟨n, cells⟩
    | _ => .error .integrity

def sameKey (t : Table) (a b : SqlRow) : Bool :=
  t.keyNames.all fun name => (a.cell name).compare? (b.cell name) == some .eq

def lacksValue (r : SqlRow) (c : Column) : Bool :=
  !c.nullable && r.cell c.name == .null

/-- Puts a row where its number belongs. -/
def place (row : SqlRow) : List SqlRow → List SqlRow
  | [] => [row]
  | r :: rest => if row.rowId < r.rowId then row :: r :: rest else r :: place row rest

/-- A row that may be added to others. -/
def newRow (t : Table) (rows : List SqlRow) (values : List (Column × Value)) : Result SqlRow := do
  let cells ← bound values
  let row ← numbered t rows (cells.map fun e => (e.1.name, e.2))
  if t.columns.any (lacksValue row) || rows.any (sameKey t row) then throw .integrity
  return row

/-- Adds rows one after the other, up to the first one that is refused. -/
def addAll (t : Table) : List SqlRow → List (List (Column × Value)) →
    Result (List SqlRow × List SqlRow)
  | rows, [] => .ok (rows, [])
  | rows, values :: rest => do
    let row ← newRow t rows values
    let (rows, added) ← addAll t (place row rows) rest
    return (rows, row :: added)

def loadRow (t : Table) (row : SqlRow) : Result Document :=
  t.columns.mapM fun c => do return (c.name, ← c.type.load (row.cell c.name))

/-- Adds all documents or none of them, and answers with the rows as they are kept. -/
def insertAll (s : SqlStore) (t : Table) (docs : List Document) :
    Result (SqlStore × List Document) := do
  if docs.isEmpty then return (s, [])
  let values ← docs.mapM (converted t)
  let (rows, added) ← addAll t (← s.rows t) values
  return (s.withRows t rows, ← added.mapM (loadRow t))

/-! Reading -/

def conditionOf (t : Table) : Option Filter → Result Condition
  | none => .ok (.constant true)
  | some f => Condition.ofFilter t f

def orderOf (t : Table) (orderBy : List String) : Result (List (Column × Direction)) :=
  orderBy.mapM fun entry =>
    let (name, direction) := SortSpec.readEntry entry
    match t.column? name with
    | some c => .ok (c, direction)
    | none => .error (.unknownOrder name t.title)

def before : List (Column × Direction) → SqlRow → SqlRow → Bool
  | [], _, _ => true
  | (c, direction) :: rest, a, b =>
    let x := a.cell c.name
    let y := b.cell c.name
    if x.le y && y.le x then before rest a b
    else match direction with
      | .ascending => x.le y
      | .descending => y.le x

def sortRows (order : List (Column × Direction)) (rows : List SqlRow) : List SqlRow :=
  rows.mergeSort (before order)

/-- The index of a key of several columns is followed when the order begins as the index does. -/
def scan (t : Table) (order : List (Column × Direction)) (rows : List SqlRow) : List SqlRow :=
  match t.keyColumns, order with
  | first :: second :: more, (c, direction) :: _ =>
    if c.name = first.name then
      sortRows ((first :: second :: more).map fun key => (key, direction)) rows
    else rows
  | _, _ => rows

/-- A negative offset is none, and a negative limit is none. -/
def window (sel : Selection) (rows : List SqlRow) : List SqlRow :=
  let rows := rows.drop sel.offset.toNat
  if 0 < sel.limit then rows.take sel.limit.toNat else rows

/-- The rows of which a condition is true, once all of its arguments have been handed over. -/
def selected (s : SqlStore) (t : Table) (c : Condition) (numbers : List Int) :
    Result (List SqlRow) := do
  let _ ← c.arguments.mapM fun a => a.type.convert a.value
  let rows ← s.rows t
  let _ ← c.arguments.mapM Argument.cell?
  if numbers.all Cell.fitsWord then rows.filterM c.selects else throw .tooLarge

def findRows (s : SqlStore) (t : Table) (sel : Selection) : Result (List SqlRow) := do
  let c ← conditionOf t sel.filter
  let order ← orderOf t sel.orderBy
  let rows ← s.selected t c [sel.limit, sel.offset]
  return window sel (sortRows order (scan t order rows))

def find (s : SqlStore) (t : Table) (sel : Selection) : Result (List Document) := do
  (← s.findRows t sel).mapM (loadRow t)

def count (s : SqlStore) (t : Table) (filter : Option Filter) : Result Int := do
  return (← s.selected t (← conditionOf t filter) []).length

/-- Pipelines run over the documents of all rows. -/
def aggregate (s : SqlStore) (t : Table) (pipeline : Value) : Result (List Value) := do
  let docs ← s.find t .everything
  return (← Pipeline.runStages (← pipeline.iterate) docs).map .mapping

def access : DocumentStore (StateM SqlStore) where
  find t sel := return (← get).find t sel
  count t filter := return (← get).count t filter
  aggregate t pipeline := return (← get).aggregate t pipeline
  setup ts := fun s => (.ok (), ts.foldl setup s)
  insert t row := fun s =>
    match s.insertAll t [row] with
    | .ok (s', rows) => (.ok (rows.headD []), s')
    | .error f => (.error f, s)
  insertAll t rows := fun s =>
    match s.insertAll t rows with
    | .ok (s', rows) => (.ok rows, s')
    | .error f => (.error f, s)

end SqlStore

end DocGrid

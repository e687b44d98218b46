import DocGrid.Filter.Evaluate
import DocGrid.Order.Sorting
import DocGrid.Order.SortSpec
import DocGrid.Pipeline.Run
import DocGrid.Store.Access

/-! A store that keeps the rows of its tables in the order in which they were accepted. -/

namespace DocGrid

structure MemoryStore where
  tables : List (String × List Document)

namespace MemoryStore

def empty : MemoryStore := ⟨[]⟩

def rowsIn (name : String) : List (String × List Document) → List Document
  | [] => []
  | (n, rows) :: rest => if n = name then rows else rowsIn name rest

def rows (s : MemoryStore) (t : Table) : List Document :=
  rowsIn t.name s.tables

def appendIn (name : String) (row : Document) :
    List (String × List Document) → List (String × List Document)
  | [] => [(name, [row])]
  | (n, rows) :: rest =>
    if n = name then (n, rows ++ [row]) :: rest else (n, rows) :: appendIn name row rest

def append (s : MemoryStore) (t : Table) (row : Document) : MemoryStore :=
  ⟨appendIn t.name row s.tables⟩

/-- Lists and mappings are no keys. -/
def isKeyValue : Value → Bool
  | .list _ => false
  | .mapping _ => false
  | _ => true

/-- Adds a row unless its key is taken. -/
def insert (s : MemoryStore) (t : Table) (row : Document) : Result MemoryStore :=
  let key := t.keyOf row
  if !key.all isKeyValue then .error .wrongKind
  else if (s.rows t).any (fun r => Value.sameItems (t.keyOf r) key) then
    .error (.duplicateKey (t.keyDocument row))
  else .ok (s.append t row)

/-- Adds rows up to the first one that is refused. -/
def insertAll (s : MemoryStore) (t : Table) : List Document → MemoryStore × Result Unit
  | [] => (s, .ok ())
  | row :: rest =>
    match s.insert t row with
    | .ok s' => s'.insertAll t rest
    | .error f => (s, .error f)

def matching (s : MemoryStore) (t : Table) : Option Filter → Result (List Document)
  | none => .ok (s.rows t)
  | some f => (s.rows t).filterM fun row => f.evaluate (.mapping row)

/-- Sorts by the last entry first, so that the first entry decides before the others. -/
def ordered (rows : List Document) : List String → Result (List Document)
  | [] => .ok rows
  | entry :: rest => do
    let rows ← ordered rows rest
    let (path, direction) := SortSpec.readEntry entry
    let key (row : Document) : SortKey := ((Document.resolve row path).getD .null).sortKey
    match sortByKey? key (direction == .descending) rows with
    | some sorted => return sorted
    | none => throw .wrongKind

def find (s : MemoryStore) (t : Table) (sel : Selection) : Result (List Document) := do
  let rows ← ordered (← s.matching t sel.filter) sel.orderBy
  let rows := if sel.offset = 0 then rows else dropCount sel.offset rows
  return if sel.limit = 0 then rows else takeCount sel.limit rows

def count (s : MemoryStore) (t : Table) (filter : Option Filter) : Result Int := do
  return (← s.matching t filter).length

def aggregate (s : MemoryStore) (t : Table) (pipeline : Value) : Result (List Value) := do
  let docs ← Pipeline.runStages (← pipeline.iterate) (s.rows t)
  return docs.map .mapping

/-- Rows are kept as they are given, and tables need no preparation. -/
def access : DocumentStore (StateM MemoryStore) where
  find t sel := return (← get).find t sel
  count t filter := return (← get).count t filter
  aggregate t pipeline := return (← get).aggregate t pipeline
  setup _ := return .ok ()
  insert t row := fun s =>
    match s.insert t row with
    | .ok s' => (.ok row, s')
    | .error f => (.error f, s)
  insertAll t rows := fun s =>
    let (s', answer) := s.insertAll t rows
    (answer.map fun _ => rows, s')

end MemoryStore

end DocGrid

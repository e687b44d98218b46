import DocGrid.Filter.Cast
import DocGrid.Filter.Terms
import DocGrid.Store.Sql.Condition

/-! Filters as conditions on the columns of a table. A field that is no column is missing from
every row. -/

namespace DocGrid

namespace ColumnType

/-- What texts are read as that are compared with the column. -/
def target : ColumnType → Target
  | int => .int
  | float => .float
  | bool => .bool
  | text => .text
  | datetime => .datetime
  | plain => .none
  | jsonList => .other
  | jsonMapping => .other

/-- The type by which a value is handed over that is compared with the column. -/
def argumentType (c : ColumnType) (v : Value) : ColumnType :=
  match c with
  | plain => c
  | jsonList => c
  | jsonMapping => c
  | _ =>
    match v with
    | .text _ => text
    | .bool _ => bool
    | .number (.int _) => int
    | .number (.float _) => float
    | .datetime _ => datetime
    | _ => c

end ColumnType

namespace Condition

def isConstant (b : Bool) : Condition → Bool
  | constant b' => b == b'
  | _ => false

/-- All of the conditions. A false constant takes the place of the whole, and true ones are left
out. -/
def conjunction (cs : List Condition) : Condition :=
  if cs.any (isConstant false) then constant false
  else
    match cs.filter (fun c => !isConstant true c) with
    | [] => constant true
    | [c] => c
    | cs => all cs

/-- Any of the conditions. A true constant takes the place of the whole, and false ones are left
out. -/
def disjunction (cs : List Condition) : Condition :=
  if cs.any (isConstant true) then constant true
  else
    match cs.filter (fun c => !isConstant false c) with
    | [] => constant false
    | [c] => c
    | cs => any cs

def bit (b : Bool) : Argument :=
  ⟨.int (if b then 1 else 0), .int⟩

/-- Equality with nothing and with truth values has forms of its own, and there is no order
between them. -/
def comparing (column : Column) (op : SqlOperator) (v : Value) : Result Condition :=
  match v with
  | .null =>
    match op with
    | .equal => .ok (isNull column false)
    | .notEqual => .ok (isNull column true)
    | _ => .error .storeArgument
  | .bool b =>
    match op with
    | .equal => .ok (compares column op (bit b))
    | .notEqual => .ok (compares column op (bit b))
    | _ => .error .storeArgument
  | v => .ok (compares column op ⟨v, column.type.argumentType v⟩)

/-- The type of the first value goes for all of them. -/
def amongValues (column : Column) (negated : Bool) (vs : List Value) : Condition :=
  let type := column.type.argumentType (vs.head?.getD .null)
  among column negated (vs.map fun v => ⟨v, type⟩)

def ofComparison (column : Column) (op : Operator) (operand : Operand) : Result Condition :=
  let castTo := cast column.type.target
  match op with
  | .present => .ok (isNull column (asksYes operand.value))
  | .among => .ok (amongValues column false (operand.members.map fun m => castTo m.value))
  | .notAmong => .ok (amongValues column true (operand.members.map fun m => castTo m.value))
  | .equal => comparing column .equal (castTo operand.value)
  | .notEqual => comparing column .notEqual (castTo operand.value)
  | .less => comparing column .less (castTo operand.value)
  | .lessEqual => comparing column .lessEqual (castTo operand.value)
  | .greater => comparing column .greater (castTo operand.value)
  | .greaterEqual => comparing column .greaterEqual (castTo operand.value)
  | .hasType => .error (.unsupportedOperator op.name)

/-- The condition on a field that is missing from every row. -/
def ofMissing (op : Operator) (operand : Operand) : Result Condition :=
  match op with
  | .present => .ok (constant (!asksYes operand.value))
  | .notEqual => .ok (constant true)
  | .notAmong => .ok (constant true)
  | .hasType => .error (.unsupportedOperator op.name)
  | _ => .ok (constant false)

def ofPattern (column : Column) (pattern : String) : Condition :=
  if column.type = .text then matching column pattern else constant false

/-- Some text column contains the term. -/
def contains (t : Table) (term : List Char) : Condition :=
  disjunction ((t.columns.filter fun c => c.type == .text).map fun c => like c term)

def ofSearch (t : Table) (terms : List SearchTerm) : Condition :=
  let wanted := SearchTerm.wanted terms
  let unwanted := SearchTerm.unwanted terms
  if !t.columns.any (fun c => c.type == .text) || wanted.isEmpty then literal false
  else
    let found := disjunction (wanted.map (contains t))
    if unwanted.isEmpty then found
    else conjunction (found :: unwanted.map fun term => not (contains t term))

mutual

/-- The condition of a filter on the rows of a table. -/
def ofFilter (t : Table) : Filter → Result Condition
  | .equals field operand =>
    match t.column? field with
    | some column => comparing column .equal (cast column.type.target operand.value)
    | none => .ok (constant false)
  | .pattern field pattern _ =>
    match t.column? field with
    | some column => .ok (ofPattern column pattern)
    | none => .ok (constant false)
  | .comparison field op operand =>
    match t.column? field with
    | some column => ofComparison column op operand
    | none => ofMissing op operand
  | .search terms _ => .ok (ofSearch t (SearchTerm.ofText terms))
  | .all [] => .ok (literal true)
  | .all filters => do return conjunction (← ofFilters t filters)
  | .any [] => .ok (literal false)
  | .any filters => do return disjunction (← ofFilters t filters)

def ofFilters (t : Table) : List Filter → Result (List Condition)
  | [] => .ok []
  | f :: rest => do return (← ofFilter t f) :: (← ofFilters t rest)

end

end Condition

end DocGrid

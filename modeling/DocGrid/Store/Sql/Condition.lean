import DocGrid.Filter.Basic
import DocGrid.Pattern.Search
import DocGrid.Store.Sql.Column

/-! Conditions on the rows of a SQL table. A condition on a null cell is neither true nor false. -/

namespace DocGrid

structure SqlRow where
  /-- The number by which the database counts the row. -/
  rowId : Int
  cells : List (String × Cell)
  deriving DecidableEq, Repr

namespace SqlRow

def cellIn (column : String) : List (String × Cell) → Cell
  | [] => .null
  | (name, c) :: rest => if name = column then c else cellIn column rest

def cell (r : SqlRow) (column : String) : Cell :=
  cellIn column r.cells

end SqlRow

/-- A value that a condition compares with, and the type by which it is handed over. -/
structure Argument where
  value : Value
  type : ColumnType

namespace Argument

def cell? (a : Argument) : Result Cell := do
  Cell.ofValue (← a.type.convert a.value)

/-- The cell of an argument that can be handed over. -/
def cell (a : Argument) : Cell :=
  match a.cell? with
  | .ok c => c
  | .error _ => .null

end Argument

inductive SqlOperator where
  | less
  | lessEqual
  | greater
  | greaterEqual
  | equal
  | notEqual
  deriving DecidableEq, Repr

def SqlOperator.accepts (op : SqlOperator) (o : Ordering) : Bool :=
  match op with
  | less => o.isLT
  | lessEqual => o.isLE
  | greater => o.isGT
  | greaterEqual => o.isGE
  | equal => o.isEq
  | notEqual => o.isNe

inductive Condition where
  /-- Known when the condition is put together. -/
  | constant (b : Bool)
  /-- Handed over like an argument. -/
  | literal (b : Bool)
  | isNull (column : Column) (negated : Bool)
  | compares (column : Column) (op : SqlOperator) (argument : Argument)
  | among (column : Column) (negated : Bool) (arguments : List Argument)
  | matching (column : Column) (pattern : String)
  | like (column : Column) (term : List Char)
  | not (c : Condition)
  | all (cs : List Condition)
  | any (cs : List Condition)

namespace Condition

variable [Conversions]

mutual

/-- The arguments in the order in which they are handed over. -/
def arguments : Condition → List Argument
  | compares _ _ a => [a]
  | among _ _ as => as
  | not c => arguments c
  | all cs => argumentsOf cs
  | any cs => argumentsOf cs
  | _ => []

def argumentsOf : List Condition → List Argument
  | [] => []
  | c :: rest => arguments c ++ argumentsOf rest

end

/-- The longest pattern, in octets, that texts are compared with. -/
def maxPattern : Nat := 50000

/-- A character as it is compared: ASCII letters without regard to case, and the two code points
that are no characters as the replacement character. -/
def foldedChar (c : Char) : Char :=
  if c = '\ufffe' ∨ c = '\uffff' then '\ufffd' else c.toLower

/-- A text as it is compared, up to the character zero. -/
def folded (cs : List Char) : List Char :=
  (cs.takeWhile (· ≠ '\x00')).map foldedChar

def ends : List Char → List (List Char)
  | [] => [[]]
  | c :: rest => (c :: rest) :: ends rest

/-- Matches a whole text, where a percent sign stands for any characters and a low line for
one. -/
def matchesLike : List Char → List Char → Bool
  | [], cs => cs.isEmpty
  | p :: ps, cs =>
    if p = '%' then (ends cs).any (matchesLike ps)
    else
      match cs with
      | [] => false
      | c :: rest => (p = '_' || p = c) && matchesLike ps rest

def likeHolds (term : List Char) (c : Cell) : Result (Option Bool) :=
  let pattern := '%' :: term ++ ['%']
  if maxPattern < (String.ofList pattern).utf8ByteSize then .error .storeOperation
  else
    match c with
    | .text s => .ok (some (matchesLike (folded pattern) (folded s.toList)))
    | _ => .ok none

/-- Whether a pattern is found in a text, without regard to whether case is to be ignored. -/
def patternHolds (pattern : String) (c : Cell) : Result (Option Bool) :=
  match c with
  | .text s =>
    match Pattern.ofText? pattern with
    | .ok p => .ok (some (p.root.search false s.toList))
    | .error _ => .error .storeOperation
  | _ => .ok none

/-- Whether a cell is one of others. Among none of them is nothing, not even null. -/
def amongCells (c : Cell) (others : List Cell) : Option Bool :=
  if others.isEmpty then some false
  else if others.any (fun o => c.compare? o == some .eq) then some true
  else if c == .null || others.contains .null then none
  else some false

def comparesCell (c : Cell) (op : SqlOperator) (affinity : Affinity) (a : Argument) : Option Bool :=
  (c.compare? (a.cell.under affinity)).map op.accepts

/-- Either of two conditions, one of which may be unknown. -/
def either (a b : Option Bool) : Option Bool :=
  match a, b with
  | some true, _ => some true
  | _, some true => some true
  | some false, some false => some false
  | _, _ => none

mutual

def holds (r : SqlRow) : Condition → Result (Option Bool)
  | constant b => .ok (some b)
  | literal b => .ok (some b)
  | isNull column negated => .ok (some ((r.cell column.name == .null) != negated))
  | compares column op a => .ok (comparesCell (r.cell column.name) op column.type.affinity a)
  | among column negated as =>
    let others := as.map fun a => a.cell.under column.type.affinity
    .ok ((amongCells (r.cell column.name) others).map (· != negated))
  | matching column pattern => patternHolds pattern (r.cell column.name)
  | like column term => likeHolds term (r.cell column.name)
  | not c => do return (← holds r c).map (!·)
  | all cs => holdsAll r cs
  | any cs => holdsAny r cs

/-- The first condition that is not true decides. -/
def holdsAll (r : SqlRow) : List Condition → Result (Option Bool)
  | [] => .ok (some true)
  | c :: rest => do
    let known ← holds r c
    if known = some true then holdsAll r rest else return known

def holdsAny (r : SqlRow) : List Condition → Result (Option Bool)
  | [] => .ok (some false)
  | c :: rest => do
    let known ← holds r c
    if known = some true then return known else return either known (← holdsAny r rest)

end

/-- Whether a row is selected: only a condition that is true selects it. -/
def selects (c : Condition) (r : SqlRow) : Result Bool := do
  return (← holds r c) == some true

end Condition

end DocGrid

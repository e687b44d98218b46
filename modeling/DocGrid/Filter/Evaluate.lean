import DocGrid.Failure
import DocGrid.Filter.Basic
import DocGrid.Filter.Cast
import DocGrid.Filter.TextSearch
import DocGrid.Pattern.Search
import DocGrid.Value.Path
import DocGrid.Value.Standing

/-! Whether a document satisfies a filter. A list in a field stands for each of its items, and the
negated operators ask that no item matches. -/

namespace DocGrid

/-- Whether an operand, read as what it is compared with, equals the value. -/
def equalsScalar (v : Value) (operand : Operand) : Bool :=
  v.same (cast (.ofValue v) operand.value)

def equalsOperand (v : Value) (operand : Operand) : Bool :=
  match v with
  | .list items => v.same operand.value || items.any (equalsScalar · operand)
  | _ => equalsScalar v operand

namespace Operator

def accepts (op : Operator) : Standing → Result Bool
  | .ordered o =>
    match op with
    | less => .ok o.isLT
    | lessEqual => .ok o.isLE
    | greater => .ok o.isGT
    | greaterEqual => .ok o.isGE
    | _ => .ok false
  | .unordered => .ok false
  | .unrelated => .ok false
  | .undefined => .error .notANumber

end Operator

/-- Whether some item satisfies a test; the first one that does, or fails, decides. -/
def anyOf {α : Type} (test : α → Result Bool) : List α → Result Bool
  | [] => .ok false
  | x :: xs => do if ← test x then return true else anyOf test xs

/-- The items of a list, and anything else as its only item. -/
def Value.candidates : Value → List Value
  | .list items => items
  | v => [v]

def ordersBefore (op : Operator) (operand : Operand) (v : Value) : Result Bool :=
  if v.isNull then .ok false
  else op.accepts (v.standing (cast (.ofValue v) operand.value))

inductive TypeName where
  | double
  | string
  | object
  | array
  | bool
  | date
  | null
  | int
  | decimal
  | number
  deriving DecidableEq, Repr

namespace TypeName

/-- Types go by name or by number. -/
def ofText? : String → Option TypeName
  | "double" | "1" => some double
  | "string" | "2" => some string
  | "object" | "3" => some object
  | "array" | "4" => some array
  | "bool" | "8" => some bool
  | "date" | "9" => some date
  | "null" | "10" => some null
  | "int" | "16" => some int
  | "long" | "18" => some int
  | "decimal" | "19" => some decimal
  | "number" => some number
  | _ => none

def holds : TypeName → Value → Bool
  | double, .number (.float _) => true
  | string, .text _ => true
  | object, .mapping _ => true
  | array, .list _ => true
  | bool, .bool _ => true
  | date, .datetime _ => true
  | null, .null => true
  | int, .number (.int _) => true
  | decimal, .number (.decimal _) => true
  | number, .number _ => true
  | _, _ => false

end TypeName

def matchesType (v : Value) (name : String) : Bool :=
  match TypeName.ofText? name with
  | none => false
  | some t =>
    t.holds v ||
      match v with
      | .list items => t != .array && items.any t.holds
      | _ => false

/-- The condition on what a path leads to; `none` when it leads nowhere. -/
def comparisonHolds (found : Option Value) (op : Operator) (operand : Operand) : Result Bool :=
  let v := found.getD .null
  match op with
  | .present => .ok (found.isSome == asksYes operand.value)
  | .hasType =>
    .ok (found.isSome && operand.members.any (fun m => matchesType v m.value.display))
  | .equal => .ok (equalsOperand v operand)
  | .notEqual => .ok (!equalsOperand v operand)
  | .among => .ok (operand.members.any (equalsOperand v))
  | .notAmong => .ok (!operand.members.any (equalsOperand v))
  | _ =>
    if v.isNull || operand == .null then .ok false
    else anyOf (ordersBefore op operand) v.candidates

def patternHolds (found : Option Value) (pattern : String) (ignoreCase : Bool) : Result Bool :=
  match found with
  | none => .ok false
  | some v =>
    match Pattern.ofText? pattern with
    | .error problem => .error (.ofPattern problem)
    | .ok p =>
      .ok (v.candidates.any fun c => c.text?.any fun s => p.root.search ignoreCase s.toList)

namespace Filter

mutual

def evaluate (doc : Value) : Filter → Result Bool
  | equals field operand => .ok (equalsOperand ((doc.resolve field).getD .null) operand)
  | pattern field text ignoreCase => patternHolds (doc.resolve field) text ignoreCase
  | comparison field op operand => comparisonHolds (doc.resolve field) op operand
  | search terms options => .ok (TextSearch.holds terms options doc)
  | all filters => evaluateAll doc filters
  | any filters => evaluateAny doc filters

/-- The first filter that is not satisfied, or fails, decides. -/
def evaluateAll (doc : Value) : List Filter → Result Bool
  | [] => .ok true
  | f :: rest => do if ← evaluate doc f then evaluateAll doc rest else return false

/-- The first filter that is satisfied, or fails, decides. -/
def evaluateAny (doc : Value) : List Filter → Result Bool
  | [] => .ok false
  | f :: rest => do if ← evaluate doc f then return true else evaluateAny doc rest

end

end Filter

end DocGrid

import DocGrid.Filter.Basic
import DocGrid.Text.Blank
import DocGrid.Text.Split
import DocGrid.Terms.Token

/-! Clauses: one operation on one field. A clause token holds one clause for each argument. -/

namespace DocGrid

inductive Operation where
  | «match»
  | contains
  | compare (op : Operator)
  deriving DecidableEq, Repr

namespace Operation

def ofName? (s : String) : Option Operation :=
  if s = "match" then some .match
  else if s = "contains" then some contains
  else (Operator.ofName? s).map compare

def name : Operation → String
  | .match => "match"
  | contains => "contains"
  | compare op => op.name

def isComparison : Operation → Bool
  | compare _ => true
  | _ => false

end Operation

structure Clause where
  field : String
  operation : Operation
  args : List String
  flags : Option String
  deriving DecidableEq, Repr

namespace Clause

/-- The flag for a pattern that ignores case. -/
def ignoreCaseFlag : String := "i"

/-- The field and the argument list of a clause token. -/
def shape? (token : List Char) : Option (List Char × List Char) :=
  let cs := Text.trim token
  let name := cs.takeWhile (fun c => !Token.isParenthesis c)
  match cs.dropWhile (fun c => !Token.isParenthesis c) with
  | '(' :: rest =>
    if rest.getLast? = some ')' then
      let field := Text.trim name
      if field.isEmpty then none else some (field, rest.dropLast)
    else none
  | _ => none

/-- Whether a flag may be added to this clause by an argument of its own. -/
def takesFlag (c : Clause) : Bool :=
  !c.operation.isComparison && c.flags.isNone

/-- The clause of an argument with an operation. -/
def ofPieces? (field name : String) (params : List String) : Option Clause :=
  match Operation.ofName? name with
  | none => none
  | some (.compare op) => some ⟨field, .compare op, params, none⟩
  | some operation =>
    match params with
    | [] => none
    | param :: more => some ⟨field, operation, [param], more.head?⟩

/-- The clause of one argument. A single piece is a match. -/
def ofArgument? (field : String) : List String → Option Clause
  | [] => none
  | [piece] => ofPieces? field Operation.match.name [piece]
  | name :: params => ofPieces? field name params

/-- The clause with its flag, if the argument is a flag for it. -/
def flagged? (previous : Option Clause) (pieces : List String) : Option Clause :=
  match previous, pieces with
  | some c, [piece] =>
    if c.takesFlag && piece == ignoreCaseFlag then some { c with flags := some piece } else none
  | _, _ => none

/-- Reads arguments from the left. `previous` is the clause of the argument before, if it has one,
which waits for a flag of its own. -/
def ofArguments (field : String) : Option Clause → List (List String) → List Clause
  | previous, [] => previous.toList
  | previous, pieces :: rest =>
    match flagged? previous pieces with
    | some c => c :: ofArguments field none rest
    | none => previous.toList ++ ofArguments field (ofArgument? field pieces) rest

def pieces (argument : List Char) : List String :=
  (Text.split ':' argument).map (fun piece => String.ofList (Text.trim piece))

/-- The clauses of a clause token; none when it has no field or is malformed. -/
def ofToken (token : List Char) : List Clause :=
  match shape? token with
  | none => []
  | some (field, arguments) =>
    ofArguments (String.ofList field) none ((Text.split ',' arguments).map pieces)

end Clause

end DocGrid

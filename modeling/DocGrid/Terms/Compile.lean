import DocGrid.Failure
import DocGrid.Filter.Basic
import DocGrid.Terms.Clause

/-! The filter of a filter text: some group holds with all its clauses. Malformed clauses, unknown
operations and invalid patterns are left out, and a text of which nothing is left gives no
filter. -/

namespace DocGrid

namespace Clause

/-- A pattern filter, unless the text is no pattern. -/
def patternFilter? (field pattern : String) (ignoreCase : Bool) : Result (Option Filter) :=
  match Pattern.ofText? pattern with
  | .ok _ => .ok (some (.pattern field pattern ignoreCase))
  | .error .malformed => .ok none
  | .error problem => .error (.ofPattern problem)

def firstArg (c : Clause) : Result String :=
  match c.args with
  | [] => .error .missingArgument
  | a :: _ => .ok a

def operand (c : Clause) : Result Operand :=
  match c.args with
  | [] => .error .missingArgument
  | [a] => .ok (.text a)
  | args => .ok (.list (args.map .text))

/-- A match that ignores case is a pattern for the whole text. -/
def compile (c : Clause) : Result (Option Filter) := do
  let ignoreCase := c.flags == some ignoreCaseFlag
  match c.operation with
  | .match =>
    let value ← c.firstArg
    if ignoreCase then patternFilter? c.field ("^" ++ value ++ "$") true
    else return some (.equals c.field (.text value))
  | .contains => patternFilter? c.field (← c.firstArg) ignoreCase
  | .compare op => return some (.comparison c.field op (← c.operand))

end Clause

namespace Filter

def ofClauses : List Clause → Result (List Filter)
  | [] => .ok []
  | c :: rest => do
    let first ← c.compile
    return first.toList ++ (← ofClauses rest)

/-- One filter for each group of which something is left. -/
def ofGroups : List (List Token) → Result (List Filter)
  | [] => .ok []
  | group :: rest => do
    let filters ← ofClauses (group.flatMap (fun t => Clause.ofToken t.text))
    let others ← ofGroups rest
    return if filters.isEmpty then others else .all filters :: others

/-- The filter for groups of clause tokens. -/
def assemble (groups : List (List Token)) : Result (Option Filter) := do
  let filters ← ofGroups groups
  return if filters.isEmpty then none else some (.any filters)

/-- The filter of a filter text, if anything is left of it. -/
def ofTerms (terms : String) : Result (Option Filter) :=
  assemble (Token.groups (Token.ofText terms))

end Filter

end DocGrid

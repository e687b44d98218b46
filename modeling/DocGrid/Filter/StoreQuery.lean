import DocGrid.Filter.Basic

/-! Filters as the query documents of a document store. -/

namespace DocGrid.Filter

def patternQuery (pattern : String) (ignoreCase : Bool) : Value :=
  .mapping (("$regex", .text pattern) :: if ignoreCase then [("$options", .text "i")] else [])

mutual

def toQuery : Filter → Document
  | equals field operand => [(field, operand.value)]
  | pattern field text ignoreCase => [(field, patternQuery text ignoreCase)]
  | comparison field op operand => [(field, .mapping [("$" ++ op.name, operand.value)])]
  | search terms options =>
    [("$text", .mapping (Document.putAll [("$search", .text terms)] options))]
  | all filters => [("$and", .list (toQueries filters))]
  | any filters => [("$or", .list (toQueries filters))]

def toQueries : List Filter → List Value
  | [] => []
  | f :: rest => .mapping (toQuery f) :: toQueries rest

end

end DocGrid.Filter

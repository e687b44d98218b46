import DocGrid.Filter.Basic
import DocGrid.Intake.Check

/-! Filters from loosely typed fields, filters read from mappings whose kind is guessed, and the
mappings that filters are written as. -/

namespace DocGrid

/-- A member of a list, where truth values count as whole numbers. -/
def Item.ofValue? : Value → Option Item
  | .text s => some (.text s)
  | .bool b => some (.int (if b then 1 else 0))
  | .number (.int n) => some (.int n)
  | .number (.float x) => some (.float x)
  | .number (.decimal d) => some (.float (Loose.nearest d))
  | _ => none

def Operand.ofValue? : Value → Option Operand
  | .null => some .null
  | .bool b => some (.bool b)
  | .list items => (Loose.allOf Item.ofValue? items).map .list
  | v => (Item.ofValue? v).map .item

namespace Filter

/-- The word that tells filters of one kind from others. -/
def kindName : Filter → String
  | equals .. => "equals"
  | pattern .. => "pattern"
  | comparison .. => "comparison"
  | search .. => "text"
  | all _ => "and"
  | any _ => "or"

def operator? (v : Value) : Option Operator :=
  v.text?.bind Operator.ofName?

def checkEquals (doc : Document) : Check Filter :=
  equals <$> Check.required doc "field" Loose.text? <*> Check.required doc "value" Operand.ofValue?

def checkPattern (doc : Document) : Check Filter :=
  pattern <$> Check.required doc "field" Loose.text? <*> Check.required doc "pattern" Loose.text?
    <*> Check.optional doc "case_insensitive" false Loose.bool?

def checkComparison (doc : Document) : Check Filter :=
  comparison <$> Check.required doc "field" Loose.text? <*> Check.required doc "op" operator?
    <*> Check.required doc "value" Operand.ofValue?

def checkSearch (doc : Document) : Check Filter :=
  search <$> Check.required doc "search" Loose.text?
    <*> Check.optional doc "options" [] Loose.mapping?

/-- A filter with the number of fields it took from its input, those of its parts included. -/
structure Candidate where
  filter : Filter
  taken : Nat

/-- The better of two candidates; the first one when both took as much. -/
def better (a b : Option Candidate) : Option Candidate :=
  match a, b with
  | some x, some y => if x.taken < y.taken then some y else some x
  | some x, none => some x
  | none, y => y

def countOf (doc : Document) (names : List String) : Nat :=
  (names.filter doc.has).length

/-- A candidate without parts. Its kind need not be named, but then it must be right. -/
def leaf? (doc : Document) (kind : String) (names : List String) (check : Check Filter) :
    Option Candidate :=
  if (doc.get? "type").all (fun v => v.text? == some kind) then
    match check with
    | .ok f => some ⟨f, countOf doc ("type" :: names)⟩
    | .faulty _ => none
  else none

def leafOf (doc : Document) : Option Candidate :=
  better (leaf? doc "equals" ["field", "value"] (checkEquals doc))
    (better (leaf? doc "pattern" ["field", "pattern", "case_insensitive"] (checkPattern doc))
      (better (leaf? doc "comparison" ["field", "op", "value"] (checkComparison doc))
        (leaf? doc "text" ["search", "options"] (checkSearch doc))))

/-- The candidates with the given parts: all of them, or any of them. -/
def branchOf (doc : Document) (parts : List Candidate) : Option Candidate :=
  let filters := parts.map (·.filter)
  let inner := (parts.map (·.taken)).foldl (· + ·) 0
  let branch (kind : String) (f : Filter) : Option Candidate :=
    (leaf? doc kind ["filters"] (.ok f)).map fun c => ⟨c.filter, c.taken + inner⟩
  better (branch "and" (.all filters)) (branch "or" (.any filters))

mutual

/-- The filter that takes most fields from a mapping, the first kind when several do. -/
def candidate? : Value → Option Candidate
  | .mapping entries => better (leafOf entries) ((partsIn? entries).bind (branchOf entries))
  | _ => none

def partsIn? : List (String × Value) → Option (List Candidate)
  | [] => none
  | (k, v) :: rest => if k = "filters" then parts? v else partsIn? rest

def parts? : Value → Option (List Candidate)
  | .list items => candidates? items
  | _ => none

def candidates? : List Value → Option (List Candidate)
  | [] => some []
  | v :: rest =>
    match candidate? v, candidates? rest with
    | some c, some cs => some (c :: cs)
    | _, _ => none

end

def ofValue? (v : Value) : Option Filter :=
  (candidate? v).map (·.filter)

mutual

def fields : Filter → Document
  | equals field operand => [("field", .text field), ("value", operand.value)]
  | pattern field text ignoreCase =>
    [("field", .text field), ("pattern", .text text), ("case_insensitive", .bool ignoreCase)]
  | comparison field op operand =>
    [("field", .text field), ("op", .text op.name), ("value", operand.value)]
  | search terms options => [("search", .text terms), ("options", .mapping options)]
  | all filters => [("filters", .list (toValues filters))]
  | any filters => [("filters", .list (toValues filters))]

def toValues : List Filter → List Value
  | [] => []
  | f :: rest => .mapping (("type", .text f.kindName) :: f.fields) :: toValues rest

end

/-- A filter as a mapping: its kind, then its fields. -/
def toValue (f : Filter) : Value :=
  .mapping (("type", .text f.kindName) :: f.fields)

end Filter

end DocGrid

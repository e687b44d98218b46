import DocGrid.Intake.Items
import DocGrid.Text.Case

/-! Sort orders: fields with directions. A field that is named twice keeps its first place and takes
its last direction. -/

namespace DocGrid

inductive Direction where
  | ascending
  | descending
  deriving DecidableEq, Repr

abbrev SortSpec := List (String × Direction)

namespace SortSpec

def put (field : String) (direction : Direction) : SortSpec → SortSpec
  | [] => [(field, direction)]
  | (f, d) :: rest =>
    if f = field then (f, direction) :: rest else (f, d) :: put field direction rest

/-- Pairs the fields with flags from left to right. Blank fields are left out together with their
flags, and a field without a flag is ascending. -/
def pair : SortSpec → List String → List Bool → SortSpec
  | spec, [], _ => spec
  | spec, field :: fields, flags =>
    let direction := if flags.head? = some true then Direction.descending else .ascending
    pair (if field = "" then spec else spec.put field direction) fields flags.tail

def isFlag (s : String) : Bool :=
  Text.lowered (Text.stripped s) == "true"

def ofTexts (fields flags : List String) : SortSpec :=
  pair [] (fields.map Text.stripped) (flags.map isFlag)

/-- An entry of an order: the field, after a hyphen when it is descending. -/
def entryText : String × Direction → String
  | (field, .ascending) => field
  | (field, .descending) => "-" ++ field

def orderBy (spec : SortSpec) : List String :=
  spec.map entryText

/-- Reads an entry of an order. Only the first hyphen is a mark. -/
def readEntry (entry : String) : String × Direction :=
  match entry.toList with
  | '-' :: rest => (String.ofList rest, .descending)
  | _ => (entry, .ascending)

/-- The order in the form of a store: each field once. -/
def ofOrderBy (orderBy : List String) : SortSpec :=
  orderBy.foldl (fun spec entry => put (readEntry entry).1 (readEntry entry).2 spec) []

end SortSpec

def Direction.sign : Direction → Int
  | .ascending => 1
  | .descending => -1

namespace Value

/-- The pieces of a list that may be written as one text with commas. -/
def pieces (v : Value) : Result (List String) :=
  match v with
  | null => .ok []
  | text s => .ok (Text.splitText ',' s)
  | _ => v.iterate.map (fun items => items.map display)

end Value

def SortSpec.ofValues (fields flags : Value) : Result SortSpec := do
  let fields ← fields.pieces
  let flags ← flags.pieces
  return ofTexts fields flags

end DocGrid

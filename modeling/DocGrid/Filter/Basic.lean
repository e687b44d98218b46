import DocGrid.Value.Basic

/-! Filters: trees of conditions on the fields of a document. -/

namespace DocGrid

inductive Operator where
  | lessEqual
  | less
  | greater
  | greaterEqual
  | among
  | notAmong
  | equal
  | notEqual
  | present
  | hasType
  deriving DecidableEq, Repr

namespace Operator

def all : List Operator :=
  [lessEqual, less, greater, greaterEqual, among, notAmong, equal, notEqual, present, hasType]

def name : Operator → String
  | lessEqual => "lte"
  | less => "lt"
  | greater => "gt"
  | greaterEqual => "gte"
  | among => "in"
  | notAmong => "nin"
  | equal => "eq"
  | notEqual => "ne"
  | present => "exists"
  | hasType => "type"

def ofName? (s : String) : Option Operator :=
  all.find? (fun op => op.name == s)

end Operator

/-- A member of a list that a condition compares with. -/
inductive Item where
  | text (s : String)
  | int (n : Int)
  | float (x : Binary64)
  deriving DecidableEq, Repr

inductive Operand where
  | null
  | bool (b : Bool)
  | item (i : Item)
  | list (items : List Item)
  deriving DecidableEq, Repr

def Item.value : Item → Value
  | text s => .text s
  | int n => .int n
  | float x => .float x

namespace Operand

def text (s : String) : Operand := .item (.text s)

def value : Operand → Value
  | null => .null
  | bool b => .bool b
  | item i => i.value
  | list items => .list (items.map Item.value)

/-- The members of a list, and anything else as its only member. -/
def members : Operand → List Operand
  | list items => items.map .item
  | v => [v]

end Operand

inductive Filter where
  | equals (field : String) (value : Operand)
  | pattern (field pattern : String) (ignoreCase : Bool)
  | comparison (field : String) (op : Operator) (value : Operand)
  | search (terms : String) (options : Document)
  | all (filters : List Filter)
  | any (filters : List Filter)
  deriving Repr, Inhabited

end DocGrid

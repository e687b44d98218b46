import DocGrid.Value.Basic
import DocGrid.Text.Split

/-! Reading and writing inside documents along paths whose segments are separated by points. -/

namespace DocGrid

def pathSegments (path : String) : List String :=
  Text.splitText '.' path

namespace Value

/-- The value at the end of a path, if every segment is there. -/
def follow : List String → Value → Option Value
  | [], v => some v
  | k :: rest, mapping entries => (Document.get? k entries).bind (follow rest)
  | _ :: _, _ => none

def resolve (v : Value) (path : String) : Option Value :=
  v.follow (pathSegments path)

end Value

namespace Document

def resolve (doc : Document) (path : String) : Option Value :=
  (Value.mapping doc).resolve path

/-- The mapping under a key, or an empty one. -/
def child (doc : Document) (key : String) : Document :=
  match doc.get? key with
  | some (.mapping entries) => entries
  | _ => []

/-- Sets the value at the end of a path, with mappings on the way made where they are missing.
An empty last segment is dropped. -/
def writeAt : List String → Value → Document → Document
  | [], _, doc => doc
  | [key], value, doc => doc.put key value
  | key :: next :: rest, value, doc =>
    if next = "" ∧ rest = [] then doc.put key value
    else doc.put key (.mapping (writeAt (next :: rest) value (doc.child key)))

def withPath (doc : Document) (path : String) (value : Value) : Document :=
  doc.writeAt (pathSegments path) value

end Document

end DocGrid

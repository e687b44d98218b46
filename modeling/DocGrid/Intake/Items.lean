import DocGrid.Failure

/-! Values taken apart into items, and documents put together from pairs. -/

namespace DocGrid.Value

/-- What a value goes through item by item: the items of a list, the keys of a mapping and the
characters of a text. -/
def iterate : Value → Result (List Value)
  | list items => .ok items
  | mapping entries => .ok (entries.map (fun e => text e.1))
  | text s => .ok (s.toList.map (fun c => text (String.singleton c)))
  | _ => .error .wrongKind

/-- The key and value that two items make. -/
def entryOf : List Value → Result (String × Value)
  | [.text k, v] => .ok (k, v)
  | [_, _] => .error .wrongKind
  | _ => .error .badValue

/-- A mapping, or what a list of pairs makes of itself. -/
def toDocument (v : Value) : Result Document :=
  match v with
  | mapping entries => .ok entries
  | _ => do
    let items ← v.iterate
    let pairs ← items.mapM fun item => do entryOf (← item.iterate)
    return Document.ofPairs pairs

end DocGrid.Value

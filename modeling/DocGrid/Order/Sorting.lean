import DocGrid.Value.SortKey

/-! Stable sorting by keys of values. Equal items stay in order in both directions. -/

namespace DocGrid

namespace SortKey

def le (a b : SortKey) : Bool :=
  (compare? a b).all Ordering.isLE

def areComparable : List SortKey → Bool
  | [] => true
  | k :: rest => rest.all (fun l => (compare? k l).isSome) && areComparable rest

end SortKey

/-- Sorts by a key, unless two keys have no order between them. -/
def sortByKey? {α : Type} (key : α → SortKey) (descending : Bool) (xs : List α) :
    Option (List α) :=
  let keyed := xs.map (fun x => (key x, x))
  if SortKey.areComparable (keyed.map (·.1)) then
    let before (a b : SortKey × α) : Bool := if descending then b.1.le a.1 else a.1.le b.1
    some ((keyed.mergeSort before).map (·.2))
  else none

end DocGrid

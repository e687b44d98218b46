import DocGrid.Value.Basic

/-! Equality of values: numbers by their worth, with truth values among them, and mappings
without regard to the order of their entries. -/

namespace DocGrid.Value

mutual

def same : Value → Value → Bool
  | null, null => true
  | bool a, bool b => a == b
  | bool a, number n => (Number.int (if a then 1 else 0)).same n
  | number n, bool b => n.same (.int (if b then 1 else 0))
  | number n, number m => n.same m
  | text s, text t => s == t
  | date d, date e => d == e
  | datetime t, datetime u => t.same u
  | list xs, list ys => sameItems xs ys
  | mapping xs, mapping ys => xs.length == ys.length && sameEntries xs ys
  | _, _ => false

def sameItems : List Value → List Value → Bool
  | [], [] => true
  | x :: xs, y :: ys => same x y && sameItems xs ys
  | _, _ => false

/-- Whether each entry has an equal one in the other mapping. -/
def sameEntries : List (String × Value) → Document → Bool
  | [], _ => true
  | (k, x) :: rest, ys =>
    (match ys.get? k with
     | some y => same x y
     | none => false) && sameEntries rest ys

end

end DocGrid.Value

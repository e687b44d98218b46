import DocGrid.Value.Standing

/-! The order of values of all kinds: null, numbers, texts, mappings, lists, truth values, points
in time, then the rest by their text. -/

namespace DocGrid

inductive SortKey where
  | null
  | number (n : Number)
  | text (s : String)
  | mapping (entries : List (String × SortKey))
  | list (items : List SortKey)
  | bool (b : Bool)
  | datetime (t : DateTime)
  | other (s : String)
  deriving Repr, Inhabited

namespace SortKey

def rank : SortKey → Nat
  | null => 0
  | number _ => 1
  | text _ => 2
  | mapping _ => 3
  | list _ => 4
  | bool _ => 5
  | datetime _ => 6
  | other _ => 7

mutual

/-- The order of two keys, unless it comes down to points in time of different kinds. Numbers are
taken to be numbers. -/
def compare? : SortKey → SortKey → Option Ordering
  | null, null => some .eq
  | number n, number m =>
    match Standing.ofNumbers n m with
    | .ordered o => some o
    | _ => some .eq
  | text s, text t => some (compare s t)
  | mapping xs, mapping ys => compareEntries? xs ys
  | list xs, list ys => compareItems? xs ys
  | bool a, bool b => some (compare a b)
  | datetime t, datetime u => t.compare? u
  | other s, other t => some (compare s t)
  | a, b => some (compare a.rank b.rank)

def compareItems? : List SortKey → List SortKey → Option Ordering
  | [], [] => some .eq
  | [], _ :: _ => some .lt
  | _ :: _, [] => some .gt
  | x :: xs, y :: ys => do
    match ← compare? x y with
    | .eq => compareItems? xs ys
    | o => some o

/-- Entries are compared by key first. -/
def compareEntries? : List (String × SortKey) → List (String × SortKey) → Option Ordering
  | [], [] => some .eq
  | [], _ :: _ => some .lt
  | _ :: _, [] => some .gt
  | (k, x) :: xs, (l, y) :: ys =>
    match compare k l with
    | .eq => do
      match ← compare? x y with
      | .eq => compareEntries? xs ys
      | o => some o
    | o => some o

end

end SortKey

namespace Value

mutual

def sortKey : Value → SortKey
  | null => .null
  | bool b => .bool b
  | number n => .number n
  | text s => .text s
  | date d => .other d.text
  | datetime t => .datetime t
  | list items => .list (sortKeys items)
  | mapping entries => .mapping (entrySortKeys entries)

def sortKeys : List Value → List SortKey
  | [] => []
  | v :: rest => sortKey v :: sortKeys rest

def entrySortKeys : List (String × Value) → List (String × SortKey)
  | [] => []
  | (k, v) :: rest => (k, sortKey v) :: entrySortKeys rest

end

mutual

/-- Whether two values are one value when grouping: numbers by their worth, truth values apart
from numbers, and mappings with their entries in order. -/
def sameGroup : Value → Value → Bool
  | null, null => true
  | bool a, bool b => a == b
  | number n, number m => n.same m
  | text s, text t => s == t
  | date d, date e => d == e
  | datetime t, datetime u => t.same u
  | list xs, list ys => sameGroupItems xs ys
  | mapping xs, mapping ys => sameGroupEntries xs ys
  | _, _ => false

def sameGroupItems : List Value → List Value → Bool
  | [], [] => true
  | x :: xs, y :: ys => sameGroup x y && sameGroupItems xs ys
  | _, _ => false

def sameGroupEntries : List (String × Value) → List (String × Value) → Bool
  | [], [] => true
  | (k, x) :: xs, (l, y) :: ys => k == l && sameGroup x y && sameGroupEntries xs ys
  | _, _ => false

end

end Value

end DocGrid

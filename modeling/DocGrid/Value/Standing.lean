import DocGrid.Value.Same

/-! How two values stand to each other when one is asked to be less than the other. -/

namespace DocGrid

inductive Standing where
  | ordered (o : Ordering)
  /-- One of the doubles is not a number, so that neither is less. -/
  | unordered
  /-- There is no order between values of these kinds. -/
  | unrelated
  /-- A decimal number is compared with what is not a number. -/
  | undefined
  deriving DecidableEq, Repr

namespace Standing

def ofNumbers (a b : Number) : Standing :=
  match a.quantity?, b.quantity? with
  | some p, some q => .ordered (p.order q)
  | _, _ => if a.isDecimal || b.isDecimal then .undefined else .unordered

end Standing

namespace Value

mutual

def standing : Value → Value → Standing
  | list xs, list ys => standingItems xs ys
  | text s, text t => .ordered (compare s t)
  | date d, date e => .ordered (compare d.ordinal e.ordinal)
  | datetime t, datetime u =>
    match t.compare? u with
    | some o => .ordered o
    | none => .unrelated
  | a, b =>
    match a.number?, b.number? with
    | some n, some m => .ofNumbers n m
    | _, _ => .unrelated

/-- The first items that differ decide, then the lengths. -/
def standingItems : List Value → List Value → Standing
  | [], [] => .ordered .eq
  | [], _ :: _ => .ordered .lt
  | _ :: _, [] => .ordered .gt
  | x :: xs, y :: ys => if same x y then standingItems xs ys else standing x y

end

end Value

end DocGrid

import DocGrid.Filter.Basic

/-! Which documents of a table are read, and in which order. -/

namespace DocGrid

structure Selection where
  filter : Option Filter
  orderBy : List String
  offset : Int
  /-- Zero for no limit. -/
  limit : Int

namespace Selection

def everything : Selection :=
  ⟨none, [], 0, 0⟩

end Selection

/-- Drops items at the front. A negative number says how many items are left. -/
def dropCount {α : Type} (n : Int) (xs : List α) : List α :=
  if n < 0 then xs.drop ((xs.length : Int) + n).toNat else xs.drop n.toNat

/-- Takes items from the front. A negative number says how many items are left out at the end. -/
def takeCount {α : Type} (n : Int) (xs : List α) : List α :=
  if n < 0 then xs.take ((xs.length : Int) + n).toNat else xs.take n.toNat

end DocGrid

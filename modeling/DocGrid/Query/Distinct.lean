import DocGrid.Intake.Check
import DocGrid.Pipeline.Run

/-! The distinct values of a field with their numbers of occurrences. -/

namespace DocGrid

structure ValueCount where
  value : Value
  count : Int

namespace ValueCount

/-- A value that does not occur is not counted. -/
def positive? (v : Value) : Option Int :=
  match Loose.int? v with
  | some n => if 1 ≤ n then some n else none
  | none => none

def ofValue (v : Value) : Result ValueCount := do
  let doc ← v.fields
  (ValueCount.mk <$> Check.required doc "value" some
    <*> Check.required doc "count" positive?).result

def document (c : ValueCount) : Document :=
  [("value", c.value), ("count", .int c.count)]

end ValueCount

namespace Distinct

/-- Lists inside of lists are taken apart up to this depth. -/
def depth : Nat := 6

def stage (name : String) (spec : Value) : Value :=
  .mapping [(name, spec)]

/-- Takes the lists in a field apart and counts the values that remain. -/
def pipeline (field : String) : List Value :=
  stage "$project" (.mapping [("field", .text ("$" ++ field))]) ::
    List.replicate depth (stage "$unwind" (.text "$field")) ++
    [stage "$group"
        (.mapping [("_id", .text "$field"), ("count", .mapping [("$sum", .int 1)])]),
      stage "$project"
        (.mapping [("_id", .bool false), ("count", .text "$count"), ("value", .text "$_id")]),
      stage "$sort" (.mapping [("value", .int 1)])]

end Distinct

end DocGrid

import DocGrid.Failure
import DocGrid.Order.Sorting
import DocGrid.Order.SortSpec
import DocGrid.Value.Path

/-! The stages of a pipeline over documents. -/

namespace DocGrid

/-- The path after a dollar sign. -/
def fieldPath? (v : Value) : Option String :=
  match v with
  | .text s =>
    match s.toList with
    | '$' :: rest => some (String.ofList rest)
    | _ => none
  | _ => none

namespace Document

/-- The value of an expression: what a path leads to, or the expression itself. -/
def expression (doc : Document) (e : Value) : Option Value :=
  match fieldPath? e with
  | some path => doc.resolve path
  | none => some e

end Document

namespace Stage

/-- The entries of a specification; nothing but a mapping has them. -/
def entries : Value → Result Document
  | .mapping es => .ok es
  | _ => .error .missingMember

/-- Whether a specification has a key: as a key, an item, or a part of a text. -/
def hasKey (spec : Value) (key : String) : Result Bool :=
  match spec with
  | .mapping es => .ok (Document.has es key)
  | .list items => .ok (items.any (fun v => v.same (.text key)))
  | .text s => .ok (Text.occursIn key.toList s.toList)
  | _ => .error .wrongKind

/-- What one entry of a projection takes over from a document. -/
def projected (doc : Document) (key : String) (e : Value) : Result (Option Value) :=
  match e with
  | .bool b => .ok (if b then doc.resolve key else none)
  | .number (.int n) => .ok (if n = 0 then none else doc.resolve key)
  | _ =>
    match fieldPath? e with
    | some path => .ok (doc.resolve path)
    | none => .error (.unsupportedProjection key e)

def projectEntries (doc : Document) : Document → Document → Result Document
  | [], done => .ok done
  | (key, e) :: rest, done => do
    match ← projected doc key e with
    | some v => projectEntries doc rest (done.put key v)
    | none => projectEntries doc rest done

/-- The key of a document is kept unless the projection speaks of it. -/
def projectOne (spec : Value) (doc : Document) : Result Document := do
  let kept ← match doc.get? "_id" with
    | some v => do if ← hasKey spec "_id" then pure [] else pure [("_id", v)]
    | none => pure []
  projectEntries doc (← entries spec) kept

def project (spec : Value) (docs : List Document) : Result (List Document) :=
  docs.mapM (projectOne spec)

/-- The path to unwind, and whether documents without items are kept. -/
def unwindPath (spec : Value) : Result (String × Bool) := do
  let (v, preserve) ← match spec with
    | .mapping es =>
      match Document.get? "path" es with
      | some v =>
        pure (v, ((Document.get? "preserveNullAndEmptyArrays" es).map Value.isTruthy).getD false)
      | none => throw .missingKey
    | v => pure (v, false)
  match fieldPath? (.text v.display) with
  | some path => return (path, preserve)
  | none => throw (.unwindPath v.display)

def unwindOne (path : String) (preserve : Bool) (doc : Document) : List Document :=
  match doc.resolve path with
  | none | some .null | some (.list []) => if preserve then [doc] else []
  | some (.list items) => items.map (doc.withPath path)
  | some _ => [doc]

/-- One document for each item of the list at a path. -/
def unwind (spec : Value) (docs : List Document) : Result (List Document) := do
  let (path, preserve) ← unwindPath spec
  return docs.flatMap (unwindOne path preserve)

end Stage

namespace Number

def addDecimals (d e : Decimal) : Result Number :=
  match d.add e with
  | .ok s => .ok (decimal s)
  | .error .invalidOperation => .error .notANumber
  | .error .overflow => .error .decimalTooLarge

/-- The sum of two numbers. Doubles and decimals do not add up. -/
def add : Number → Number → Result Number
  | int n, int m => .ok (int (n + m))
  | float x, float y => .ok (float (x.add y))
  | int n, float y =>
    match Binary64.ofInt? n with
    | some x => .ok (float (x.add y))
    | none => .error .tooLarge
  | float x, int m =>
    match Binary64.ofInt? m with
    | some y => .ok (float (x.add y))
    | none => .error .tooLarge
  | decimal d, decimal e => addDecimals d e
  | int n, decimal e => addDecimals (.ofInt n) e
  | decimal d, int m => addDecimals d (.ofInt m)
  | float _, decimal _ => .error .wrongKind
  | decimal _, float _ => .error .wrongKind

end Number

namespace Stage

/-- The documents with one value of the grouping expression, as sums. -/
structure Group where
  id : Value
  sums : List (String × Number)

/-- The names of the sums with the expressions that are summed. -/
def accumulators : Document → Result (List (String × Value))
  | [] => .ok []
  | (name, e) :: rest =>
    if name = "_id" then accumulators rest
    else
      match e with
      | .mapping [("$sum", summand)] => do return (name, summand) :: (← accumulators rest)
      | _ => .error (.unsupportedAccumulator name e)

/-- Adds the numbers of a document to the sums; what is no number counts nothing. -/
def addTo (doc : Document) : List (String × Value) → List (String × Number) →
    Result (List (String × Number))
  | (_, summand) :: rest, (name, total) :: sums => do
    let total ← match doc.expression summand with
      | some (.number n) => total.add n
      | _ => pure total
    return (name, total) :: (← addTo doc rest sums)
  | _, sums => .ok sums

/-- Adds a document to its group, or to a new one at the end. -/
def place (sums : List (String × Value)) (id : Value) (doc : Document) :
    List Group → Result (List Group)
  | [] => do return [⟨id, ← addTo doc sums (sums.map fun s => (s.1, .int 0))⟩]
  | g :: rest =>
    if g.id.sameGroup id then do return ⟨g.id, ← addTo doc sums g.sums⟩ :: rest
    else do return g :: (← place sums id doc rest)

def Group.document (g : Group) : Document :=
  ("_id", g.id) :: g.sums.map (fun s => (s.1, .number s.2))

/-- One document for each value of the expression, in the order in which they first occur. -/
def group (spec : Value) (docs : List Document) : Result (List Document) := do
  if !(← hasKey spec "_id") then throw .groupWithoutId
  let es ← entries spec
  let sums ← accumulators es
  let id := (Document.get? "_id" es).getD .null
  let groups ← docs.foldlM
    (fun groups doc => place sums ((doc.expression id).getD .null) doc groups) []
  return groups.map Group.document

/-- Whether a direction is descending, which every negative number is. -/
def isDescending : Value → Result Bool
  | .bool _ => .ok false
  | .number (.int n) => .ok (decide (n < 0))
  | .number (.float x) =>
    if x.isNaN then .error .badValue
    else if x.isInfinite then .error .tooLarge
    else .ok (decide (x.truncate < 0))
  | .number (.decimal d) =>
    match d.quantity? with
    | some (.exact q) => .ok (decide (q ≤ -1))
    | some _ => .error .tooLarge
    | none => .error .badValue
  | .text s =>
    match Reading.int? s with
    | some n => .ok (decide (n < 0))
    | none => .error .badValue
  | _ => .error .wrongKind

def sortOne (path : String) (descending : Bool) (docs : List Document) :
    Result (List Document) :=
  match sortByKey? (fun d => ((Document.resolve d path).getD .null).sortKey) descending docs with
  | some sorted => .ok sorted
  | none => .error .wrongKind

/-- Sorts by the last entry first, so that the first entry decides before the others. -/
def sortEntries (docs : List Document) : Document → Result (List Document)
  | [] => .ok docs
  | (path, direction) :: rest => do
    let docs ← sortEntries docs rest
    sortOne path (← isDescending direction) docs

def sort (spec : Value) (docs : List Document) : Result (List Document) := do
  sortEntries docs (← entries spec)

def run (name : String) (spec : Value) (docs : List Document) : Result (List Document) :=
  match name with
  | "$project" => project spec docs
  | "$unwind" => unwind spec docs
  | "$group" => group spec docs
  | "$sort" => sort spec docs
  | _ => .error (.unsupportedStage name)

end Stage

end DocGrid

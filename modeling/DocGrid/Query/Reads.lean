import DocGrid.Query.Chain
import DocGrid.Query.Distinct
import DocGrid.Store.Access

/-! Reading pages and distinct values from a store. -/

namespace DocGrid

namespace Reader

variable {m : Type → Type} [Monad m]

def rows (r : Reader m) (t : Table) (q : Query) : m (Result (List Document)) :=
  r.find t q.selection

def countOf (r : Reader m) (t : Table) (q : Query) : m (Result Int) :=
  r.count t q.conditions

/-- The distinct values of a field in all documents of a table. -/
def valueCounts (r : Reader m) (t : Table) (field : String) :
    m (Result (List ValueCount)) := do
  let records ← r.aggregate t (.list (Distinct.pipeline field))
  return records.bind (fun vs => vs.mapM ValueCount.ofValue)

def joined (data : Result (List Document)) (count total : Result Int) : Result PageResult := do
  return ⟨(← data).map fun row => .mapping row, ← count, ← total⟩

/-- One page of the query, with the number of its documents and of all documents. All three are
read, and the first of them that fails is the failure of the whole. -/
def page (r : Reader m) (config : TableConfig) (t : Table) (q : Query) (page items : Value) :
    m (Result PageResult) := do
  match q.apply config (.paginate page items) with
  | .error f => return .error f
  | .ok paged =>
    let data ← r.rows t paged
    let count ← r.countOf t q
    let total ← r.count t none
    return joined data count total

def countsPage (counts : List ValueCount) : PageResult :=
  ⟨counts.map fun c => .mapping c.document, counts.length, counts.length⟩

def steps (o : QueryOptions) : List Query.Step :=
  [.filter o.filter, .search o.search o.searchOptions] ++
    if o.sortBy.isNull then [] else [.sort o.sortBy o.sortDesc]

def requestedPage (r : Reader m) (config : TableConfig) (t : Table) (q : Query)
    (o : QueryOptions) : m (Result PageResult) := do
  match q.applyAll config (steps o) with
  | .error f => return .error f
  | .ok query => r.page config t query o.page o.itemsPerPage

/-- The page that a request asks for, or the distinct values of the field that it names. -/
def dataTable (r : Reader m) (config : TableConfig) (t : Table) (q : Query)
    (o : QueryOptions) : m (Result PageResult) := do
  match o.getFilterList with
  | some field =>
    if field = "" then r.requestedPage config t q o
    else return (← r.valueCounts t field).map countsPage
  | none => r.requestedPage config t q o

end Reader

end DocGrid

import DocGrid.Filter.StoreQuery
import DocGrid.Intake.Items
import DocGrid.Order.SortSpec
import DocGrid.Store.Access
import DocGrid.Store.Remote.Exchange

/-! A store behind a document service. Every operation is one request; only the preparation of
tables takes one for each of them. -/

namespace DocGrid

structure RemoteStore where
  baseUrl : String
  apiKey : Option String

inductive RemoteAction where
  | find
  | count
  | aggregate
  | insertOne
  | insertMany
  | ensure
  deriving DecidableEq, Repr

def RemoteAction.name : RemoteAction → String
  | find => "find"
  | count => "count"
  | aggregate => "aggregate"
  | insertOne => "insert_one"
  | insertMany => "insert_many"
  | ensure => "ensure"

namespace RemoteStore

def root (s : RemoteStore) : String :=
  String.ofList ((s.baseUrl.toList.reverse.dropWhile (· == '/')).reverse)

def authorization (s : RemoteStore) : Option String :=
  match s.apiKey with
  | some key => if key = "" then none else some ("Bearer " ++ key)
  | none => none

def request (s : RemoteStore) (t : Table) (action : RemoteAction) (body : Document) : Request :=
  ⟨s.root ++ "/" ++ t.name ++ "/" ++ action.name, body, s.authorization⟩

def filterBody (filter : Option Filter) : Value :=
  .mapping (filter.elim [] Filter.toQuery)

def sortBody (orderBy : List String) : Value :=
  let spec := SortSpec.ofOrderBy orderBy
  if spec.isEmpty then .null else .mapping (spec.map fun (field, d) => (field, .int d.sign))

def findBody (sel : Selection) : Document :=
  [("filter", filterBody sel.filter), ("sort", sortBody sel.orderBy), ("skip", .int sel.offset),
    ("limit", .int sel.limit)]

def countBody (filter : Option Filter) : Document :=
  [("filter", filterBody filter)]

/-- The stages of a pipeline, each of which has to be a mapping. -/
def pipelineBody (pipeline : Value) : Result Document := do
  let stages ← (← pipeline.iterate).mapM Value.toDocument
  return [("pipeline", .list (stages.map .mapping))]

def ensureBody (t : Table) : Document :=
  [("table", .text t.name), ("primary_key", .list (t.keyNames.map .text))]

/-- A member of a reply; only mappings have members. -/
def member (key : String) (v : Value) : Result (Option Value) :=
  match v with
  | .mapping entries => .ok (Document.get? key entries)
  | _ => .error .missingMember

/-- The items that a reply lists, none when it lists nothing. -/
def listed (reply : Value) : Result (List Value) := do
  match ← member "documents" reply with
  | some v => v.iterate
  | none => return []

/-- A number of documents from a number or the text of one. -/
def countValue : Value → Result Int
  | .bool b => .ok (if b then 1 else 0)
  | .number (.int n) => .ok n
  | .number (.float x) =>
    if x.isNaN then .error .badValue
    else if x.isInfinite then .error .tooLarge
    else .ok x.truncate
  | .text s => (Reading.int? s).elim (.error .badValue) .ok
  | _ => .error .wrongKind

def counted (reply : Value) : Result Int := do
  countValue ((← member "count" reply).getD (.int 0))

def documents (t : Table) (reply : Value) : Result (List Document) := do
  (← listed reply).mapM t.ofValue

def inserted (t : Table) (reply : Value) : Result Document := do
  t.ofValue ((← member "document" reply).getD .null)

def rowForm (row : Document) : Value :=
  (Value.mapping row).requestForm

section Sending

variable {m : Type → Type} [Monad m] (send : Request → m Reply) (s : RemoteStore)

/-- Sends a request, unless its body is no JSON. -/
def post (t : Table) (action : RemoteAction) (body : Document) : m (Result Value) := do
  match Json.print true (.mapping body) with
  | .error f => return .error f
  | .ok _ => return (← send (s.request t action body)).value

def find (t : Table) (sel : Selection) : m (Result (List Document)) := do
  return (← post send s t .find (findBody sel)).bind (documents t)

def count (t : Table) (filter : Option Filter) : m (Result Int) := do
  return (← post send s t .count (countBody filter)).bind counted

def aggregate (t : Table) (pipeline : Value) : m (Result (List Value)) := do
  match pipelineBody pipeline with
  | .error f => return .error f
  | .ok body => return (← post send s t .aggregate body).bind listed

def insert (t : Table) (row : Document) : m (Result Document) := do
  return (← post send s t .insertOne [("document", rowForm row)]).bind (inserted t)

def insertAll (t : Table) (rows : List Document) : m (Result (List Document)) := do
  if rows.isEmpty then return .ok []
  return (← post send s t .insertMany [("documents", .list (rows.map rowForm))]).bind (documents t)

/-- Asks for all tables, and fails as the first request that fails. -/
def setup (ts : List Table) : m (Result Unit) := do
  let replies ← ts.mapM fun t => post send s t .ensure (ensureBody t)
  return do
    let _ ← replies.mapM id
    return ()

def access : DocumentStore m where
  find := find send s
  count := count send s
  aggregate := aggregate send s
  setup := setup send s
  insert := insert send s
  insertAll := insertAll send s

end Sending

def shown (s : RemoteStore) : String :=
  "RemoteDatabaseEngine(base_url=" ++ Text.quoted s.root ++ ")"

def shownQuery (s : RemoteStore) (t : Table) : String :=
  "DataTableQuery(model=" ++ t.title ++ ", engine=" ++ s.shown ++ ")"

end RemoteStore

end DocGrid

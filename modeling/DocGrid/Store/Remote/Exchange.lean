import DocGrid.Json.Printer
import DocGrid.Json.Reader

/-! Requests to a document service and its replies. All requests are posts with a JSON body. -/

namespace DocGrid

/-- The text of a point in time in a request, where universal time has a letter of its own. -/
def DateTime.requestText (t : DateTime) : String :=
  if t.offset = some 0 then DateTime.text { t with offset := none } ++ "Z"
  else t.text

namespace Value

mutual

/-- The form of a stored value in a request: texts stand for decimal numbers, days and points in
time. -/
def requestForm : Value → Value
  | number (.decimal d) => text d.text
  | date d => text d.text
  | datetime t => text t.requestText
  | list items => list (requestItems items)
  | mapping entries => mapping (requestEntries entries)
  | v => v

def requestItems : List Value → List Value
  | [] => []
  | v :: rest => requestForm v :: requestItems rest

def requestEntries : List (String × Value) → List (String × Value)
  | [] => []
  | (k, v) :: rest => (k, requestForm v) :: requestEntries rest

end

mutual

/-- The value with the entries of all mappings in the order of their keys. -/
def keySorted : Value → Value
  | list items => list (keySortedItems items)
  | mapping entries =>
    mapping ((keySortedEntries entries).mergeSort fun a b => decide (a.1 ≤ b.1))
  | v => v

def keySortedItems : List Value → List Value
  | [] => []
  | v :: rest => keySorted v :: keySortedItems rest

def keySortedEntries : List (String × Value) → List (String × Value)
  | [] => []
  | (k, v) :: rest => (k, keySorted v) :: keySortedEntries rest

end

end Value

structure Request where
  url : String
  body : Document
  authorization : Option String

namespace Request

def document (r : Request) : Document :=
  [("method", .text "POST"), ("url", .text r.url), ("body", .mapping r.body),
    ("authorization", (r.authorization.map Value.text).getD .null)]

/-- The text by which requests to one address are put in order. -/
def text (r : Request) : List Char :=
  (Json.print false (Value.mapping r.document).keySorted).toOption.getD []

def le (a b : Request) : Bool :=
  if a.url = b.url then decide (String.ofList a.text ≤ String.ofList b.text)
  else decide (a.url ≤ b.url)

/-- Requests that were sent together have no order of their own; they are listed by address and
text. -/
def sorted (rs : List Request) : List Request :=
  rs.mergeSort le

end Request

structure Reply where
  status : Nat
  body : List Char

namespace Reply

def isSuccess (r : Reply) : Bool :=
  decide (200 ≤ r.status) && decide (r.status < 300)

/-- The value in a reply, which may start with a byte order mark. -/
def value (r : Reply) : Result Value :=
  if r.isSuccess then
    Json.read (match r.body with
      | '\ufeff' :: rest => rest
      | cs => cs)
  else .error .httpStatus

end Reply

end DocGrid

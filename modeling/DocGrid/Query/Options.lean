import DocGrid.Intake.Check

/-! What a table widget asks for, and the settings it is answered by. -/

namespace DocGrid

/-- A request for one page of a table, or for the distinct values of a field. Page, page size and
order are kept as they are given. -/
structure QueryOptions where
  page : Value
  itemsPerPage : Value
  search : Option String
  searchOptions : Document
  filter : Option String
  sortBy : Value
  sortDesc : Value
  getFilterList : Option String

namespace QueryOptions

/-- A number or a text, where truth values count as numbers. -/
def pageValue? : Value → Option Value
  | .null => some .null
  | .bool b => some (.int (if b then 1 else 0))
  | .number (.decimal d) => some (.float (Loose.nearest d))
  | .number n => some (.number n)
  | .text s => some (.text s)
  | _ => none

def sortBy? : Value → Option Value
  | .null => some .null
  | .text s => some (.text s)
  | v => (Loose.list? Loose.text? v).map (fun names => .list (names.map .text))

def isBool : Value → Bool
  | .bool _ => true
  | _ => false

/-- A list of truth values as it is, then a list of texts, then what can be read as truth
values. -/
def sortDesc? : Value → Option Value
  | .text s => some (.text s)
  | .list items =>
    if items.all isBool then some (.list items)
    else
      match Loose.allOf Loose.text? items with
      | some texts => some (.list (texts.map .text))
      | none => (Loose.allOf Loose.bool? items).map (fun flags => .list (flags.map .bool))
  | _ => none

def check (doc : Document) : Check QueryOptions :=
  QueryOptions.mk <$> Check.optional doc "page" .null pageValue?
    <*> Check.aliased doc "itemsPerPage" "items_per_page" .null pageValue?
    <*> Check.optional doc "search" none (Loose.nullable Loose.text?)
    <*> Check.aliased doc "searchOptions" "search_options" [] Loose.mapping?
    <*> Check.optional doc "filter" none (Loose.nullable Loose.text?)
    <*> Check.aliased doc "sortBy" "sort_by" .null sortBy?
    <*> Check.aliased doc "sortDesc" "sort_desc" (.text "") sortDesc?
    <*> Check.aliased doc "getFilterList" "get_filter_list" none (Loose.nullable Loose.text?)

def ofValue (v : Value) : Result QueryOptions := do
  (check (← v.fields)).result

def textOrNull : Option String → Value
  | some s => .text s
  | none => .null

def document (o : QueryOptions) : Document :=
  [("page", o.page), ("items_per_page", o.itemsPerPage), ("search", textOrNull o.search),
    ("search_options", .mapping o.searchOptions), ("filter", textOrNull o.filter),
    ("sort_by", o.sortBy), ("sort_desc", o.sortDesc),
    ("get_filter_list", textOrNull o.getFilterList)]

end QueryOptions

/-- The state of a table widget. -/
structure WidgetOptions where
  page : Int
  itemsPerPage : Option Int
  sortBy : List String
  sortDesc : List Bool
  searchOptions : Document

namespace WidgetOptions

def check (doc : Document) : Check WidgetOptions :=
  WidgetOptions.mk <$> Check.optional doc "page" 1 Loose.int?
    <*> Check.aliased doc "itemsPerPage" "items_per_page" none (Loose.nullable Loose.int?)
    <*> Check.aliased doc "sortBy" "sort_by" [] (Loose.list? Loose.text?)
    <*> Check.aliased doc "sortDesc" "sort_desc" [] (Loose.list? Loose.bool?)
    <*> Check.aliased doc "searchOptions" "search_options" [] Loose.mapping?

def ofValue (v : Value) : Result WidgetOptions := do
  (check (← v.fields)).result

def intOrNull : Option Int → Value
  | some n => .int n
  | none => .null

def document (o : WidgetOptions) : Document :=
  [("page", .int o.page), ("items_per_page", intOrNull o.itemsPerPage),
    ("sort_by", .list (o.sortBy.map .text)), ("sort_desc", .list (o.sortDesc.map .bool)),
    ("search_options", .mapping o.searchOptions)]

def flagText (descending : Bool) : String :=
  if descending then "true" else "false"

def sortByText (o : WidgetOptions) : Value :=
  if o.sortBy.isEmpty then .null else .text (Text.joinText "," o.sortBy)

def sortDescText (o : WidgetOptions) : Value :=
  .text (Text.joinText "," (o.sortDesc.map flagText))

/-- The request for the widget's page with further inputs, of which each may be left out. -/
def toQueryOptions (o : WidgetOptions) (search filter getFilterList : Value) :
    Result QueryOptions :=
  (QueryOptions.check
    [("page", .int o.page), ("items_per_page", intOrNull o.itemsPerPage), ("search", search),
      ("search_options", .mapping o.searchOptions), ("filter", filter),
      ("sort_by", o.sortByText), ("sort_desc", o.sortDescText),
      ("get_filter_list", getFilterList)]).result

end WidgetOptions

/-- One page of a table, with the numbers of documents that were selected and that there are. -/
structure PageResult where
  data : List Value
  resultCount : Int
  totalCount : Int

namespace PageResult

def ofValue (v : Value) : Result PageResult := do
  let doc ← v.fields
  (PageResult.mk <$> Check.optional doc "data" [] (Loose.list? some)
    <*> Check.aliased doc "resultCount" "result_count" 0 Loose.int?
    <*> Check.aliased doc "totalCount" "total_count" 0 Loose.int?).result

def document (r : PageResult) : Document :=
  [("data", .list r.data), ("resultCount", .int r.resultCount),
    ("totalCount", .int r.totalCount)]

end PageResult

/-- Settings that all queries share: the page size when a request gives none. -/
structure TableConfig where
  defaultItems : Nat
  deriving DecidableEq, Repr

namespace TableConfig

def default : TableConfig := ⟨10⟩

def itemsField : String := "default_items_per_page"

def natural? (v : Value) : Option Nat :=
  match Loose.int? v with
  | some n => if 0 ≤ n then some n.toNat else none
  | none => none

/-- Fields that are not settings are refused. -/
def unknown (doc : Document) : Check Unit :=
  let names := (Document.keys doc).filter (· ≠ itemsField)
  if names.isEmpty then .ok () else .faulty names

def ofDocument (doc : Document) : Result TableConfig :=
  ((fun n _ => TableConfig.mk n) <$> Check.optional doc itemsField default.defaultItems natural?
    <*> unknown doc).result

def ofValue (v : Value) : Result TableConfig := do
  ofDocument (← v.fields)

def document (c : TableConfig) : Document :=
  [(itemsField, .int c.defaultItems)]

end TableConfig

end DocGrid

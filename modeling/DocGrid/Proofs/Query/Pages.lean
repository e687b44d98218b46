import DocGrid.Proofs.Results
import DocGrid.Proofs.Store.Connectives
import DocGrid.Proofs.Store.RowOrder
import DocGrid.Query.Reads

/-! Pages of a table in memory. A page is a window into the list of the rows that satisfy all
filters, in order, and the pages of one size make up this list. -/

namespace DocGrid

namespace Window

def of {α : Type} (w : Window) (xs : List α) : List α :=
  if w.limit = 0 then xs.drop w.offset else (xs.drop w.offset).take w.limit

theorem length_of_le {α : Type} (w : Window) (xs : List α) : (w.of xs).length ≤ xs.length := by
  unfold of
  split
  · rw [List.length_drop]
    omega
  · rw [List.length_take, List.length_drop]
    omega

/-- The window of one of the pages of a size, counted from zero. -/
def nth (size k : Nat) : Window :=
  ⟨k * size, size⟩

section Pages

variable {α : Type} {size : Nat} (hsize : 1 ≤ size) (xs : List α)

include hsize

@[simp] theorem nth_of (k : Nat) : (nth size k).of xs = (xs.drop (k * size)).take size := by
  have hne : size ≠ 0 := by omega
  exact if_neg hne

theorem take_eq_flatMap_nth (n : Nat) :
    (List.range n).flatMap (fun k => (nth size k).of xs) = xs.take (n * size) := by
  induction n with
  | zero => simp
  | succ n ih =>
    rw [List.range_succ, List.flatMap_append, ih, Nat.succ_mul, List.take_add]
    simp [hsize]

theorem length_le_mul : xs.length ≤ (xs.length + size - 1) / size * size := by
  have h := Nat.div_add_mod (xs.length + size - 1) size
  have hlt := Nat.mod_lt (xs.length + size - 1) hsize
  rw [Nat.mul_comm]
  omega

theorem flatMap_nth : (List.range ((xs.length + size - 1) / size)).flatMap
    (fun k => (nth size k).of xs) = xs := by
  rw [take_eq_flatMap_nth hsize, List.take_of_length_le (length_le_mul hsize xs)]

theorem nth_of_eq_nil {k : Nat} (hk : (xs.length + size - 1) / size ≤ k) :
    (nth size k).of xs = [] := by
  have hle : xs.length ≤ k * size :=
    Nat.le_trans (length_le_mul hsize xs) (Nat.mul_le_mul_right size hk)
  rw [nth_of hsize, List.drop_of_length_le hle, List.take_nil]

end Pages

end Window

namespace Filter

theorem evaluateAll_eq_true {doc : Value} {filters : List Filter} :
    evaluateAll doc filters = .ok true ↔ ∀ f ∈ filters, f.evaluate doc = .ok true := by
  induction filters with
  | nil => simp [evaluateAll]
  | cons f rest ih =>
    rw [evaluateAll, List.forall_mem_cons, ← ih]
    rcases f.evaluate doc with e | _ | _ <;> simp

end Filter

namespace Query

/-- The filters that a request asks for, next to the conditions of the query. -/
def wanted (q : Query) (compiled : Option Filter) (o : QueryOptions) : List Filter :=
  q.conditions.toList ++ compiled.toList ++
    (o.search.filter (· ≠ "")).toList.map fun terms => .search terms o.searchOptions

/-- The order that a request asks for, or else the one of the query. -/
def effectiveOrder (q : Query) (o : QueryOptions) : Result (List String) :=
  if o.sortBy.isNull then .ok q.orderBy
  else do
    let spec ← SortSpec.ofValues o.sortBy o.sortDesc
    return if spec.isEmpty then q.orderBy else spec.orderBy

def Selects (q : Query) (row : Document) : Prop :=
  ∀ f ∈ q.conditions, f.evaluate (.mapping row) = .ok true

@[simp] theorem selects_require {q : Query} {f : Filter} {row : Document} :
    (q.require f).Selects row ↔ q.Selects row ∧ f.evaluate (.mapping row) = .ok true := by
  unfold require Selects
  cases h : q.conditions with
  | none => simp
  | some g => simp [Filter.evaluate, Filter.evaluateAll_eq_true]

theorem selects_requireSome {q : Query} {f : Option Filter} {row : Document} :
    ((f.map q.require).getD q).Selects row ↔
      q.Selects row ∧ ∀ g ∈ f, g.evaluate (.mapping row) = .ok true := by
  cases f with
  | none => simp
  | some g => simp

theorem orderBy_requireSome {q : Query} {f : Option Filter} :
    ((f.map q.require).getD q).orderBy = q.orderBy := by
  cases f with
  | none => rfl
  | some g =>
    simp only [Option.map_some, Option.getD_some, require]
    split <;> rfl

variable {config : TableConfig} {q query : Query} {o : QueryOptions}

theorem apply_filter {terms : Option String} (h : q.apply config (.filter terms) = .ok query) :
    ∃ compiled, termsFilter terms = .ok compiled ∧ query = (compiled.map q.require).getD q := by
  obtain ⟨changed, hchanged, hquery⟩ := Result.ok_of_bind h
  obtain ⟨compiled, hcompiled, hmap⟩ := Result.ok_of_bind hchanged
  obtain rfl := Except.ok.inj hmap
  exact ⟨compiled, hcompiled, (Except.ok.inj hquery).symm⟩

theorem apply_search (terms : Option String) (options : Document) :
    q.apply config (.search terms options) =
      .ok ((((terms.filter (· ≠ "")).map fun terms => Filter.search terms options).map
        q.require).getD q) := by
  cases terms with
  | none => rfl
  | some terms =>
    rw [apply, change?]
    by_cases h : terms = "" <;> simp [h, Option.filter]

theorem apply_sort {fields flags : Value}
    (h : q.apply config (.sort fields flags) = .ok query) :
    ∃ spec, SortSpec.ofValues fields flags = .ok spec ∧
      query = { q with orderBy := if spec.isEmpty then q.orderBy else spec.orderBy } := by
  obtain ⟨changed, hchanged, hquery⟩ := Result.ok_of_bind h
  obtain ⟨spec, hspec, hchanged⟩ := Result.ok_of_bind hchanged
  refine ⟨spec, hspec, ?_⟩
  obtain rfl := Except.ok.inj hquery
  obtain rfl := Except.ok.inj hchanged
  cases spec.isEmpty <;> rfl

theorem applyAll_cons {step : Step} {rest : List Step}
    (h : q.applyAll config (step :: rest) = .ok query) :
    ∃ next, q.apply config step = .ok next ∧ next.applyAll config rest = .ok query :=
  Result.ok_of_bind h

/-- The steps of a request require what is wanted, and set the order. -/
theorem applyAll_steps (h : q.applyAll config (Reader.steps o) = .ok query) :
    ∃ compiled, termsFilter o.filter = .ok compiled ∧
      effectiveOrder q o = .ok query.orderBy ∧
      ∀ row, query.Selects row ↔
        ∀ f ∈ wanted q compiled o, f.evaluate (.mapping row) = .ok true := by
  obtain ⟨first, hfilter, h⟩ := applyAll_cons h
  obtain ⟨compiled, hcompiled, rfl⟩ := apply_filter hfilter
  obtain ⟨second, hsearch, h⟩ := applyAll_cons h
  have hsecond : second.orderBy = q.orderBy ∧ ∀ row, second.Selects row ↔
      ∀ f ∈ wanted q compiled o, f.evaluate (.mapping row) = .ok true := by
    rw [apply_search] at hsearch
    obtain rfl := Except.ok.inj hsearch
    refine ⟨by rw [orderBy_requireSome, orderBy_requireSome], fun row => ?_⟩
    rw [selects_requireSome, selects_requireSome]
    simp only [wanted, List.forall_mem_append, Option.mem_toList, Selects, ← Option.toList_map,
      Option.mem_def]
  refine ⟨compiled, hcompiled, ?_⟩
  change second.applyAll config (if o.sortBy.isNull then [] else [.sort o.sortBy o.sortDesc]) =
    .ok query at h
  -- There is no step for the order when no fields are given.
  cases hsort : o.sortBy.isNull with
  | true =>
    rw [hsort] at h
    obtain rfl := Except.ok.inj h
    rw [effectiveOrder, hsort, hsecond.1]
    exact ⟨rfl, hsecond.2⟩
  | false =>
    rw [hsort] at h
    obtain ⟨third, hthird, hlast⟩ := applyAll_cons h
    obtain rfl := Except.ok.inj hlast
    obtain ⟨spec, hspec, rfl⟩ := apply_sort hthird
    rw [effectiveOrder, hsort, hspec, hsecond.1]
    exact ⟨rfl, hsecond.2⟩

end Query

namespace MemoryStore

/-- The rows that satisfy all filters, as they were accepted. -/
def selected (s : MemoryStore) (t : Table) (filters : List Filter) : List Document :=
  (s.rows t).filter fun row => filters.all fun f => f.evaluate (.mapping row) matches .ok true

theorem matching_eq {s : MemoryStore} {t : Table} {q : Query} {rows : List Document}
    (h : s.matching t q.conditions = .ok rows) {filters : List Filter}
    (hq : ∀ row, q.Selects row ↔ ∀ f ∈ filters, f.evaluate (.mapping row) = .ok true) :
    rows = s.selected t filters := by
  have hok (answer : Result Bool) : (answer matches .ok true) = true ↔ answer = .ok true := by
    rcases answer with _ | _ | _ <;> simp
  have hselects (row : Document) : (filters.all fun f => f.evaluate (.mapping row) matches .ok true)
      = true ↔ q.Selects row := by
    rw [hq row, List.all_eq_true]
    exact forall₂_congr fun f _ => hok _
  unfold matching at h
  unfold selected
  cases hconditions : q.conditions with
  | none =>
    rw [hconditions] at h
    obtain rfl := Except.ok.inj h
    refine (List.filter_eq_self.mpr fun row _ => (hselects row).mpr ?_).symm
    simp [Query.Selects, hconditions]
  | some f =>
    rw [hconditions] at h
    rw [Result.filterM_eq h]
    refine List.filter_congr fun row _ => Bool.eq_iff_iff.mpr ((hok _).trans ?_)
    rw [hselects row]
    simp [Query.Selects, hconditions]

theorem find_window (s : MemoryStore) (t : Table) (filter : Option Filter)
    (order : List String) (w : Window) :
    s.find t ⟨filter, order, w.offset, w.limit⟩ = (do
      let sorted ← ordered (← s.matching t filter) order
      return w.of sorted) := by
  have hwindow (rows : List Document) :
      (if (w.limit : Int) = 0 then if (w.offset : Int) = 0 then rows else dropCount w.offset rows
        else takeCount w.limit (if (w.offset : Int) = 0 then rows else dropCount w.offset rows)) =
      w.of rows := by
    have hdrop : (if (w.offset : Int) = 0 then rows else dropCount w.offset rows) =
        rows.drop w.offset := by
      have hpos : ¬(w.offset : Int) < 0 := by omega
      by_cases h : w.offset = 0 <;> simp only [h, hpos, dropCount] <;> simp [h]
    rw [hdrop, Window.of]
    have hpos : ¬(w.limit : Int) < 0 := by omega
    by_cases h : w.limit = 0 <;> simp only [h, hpos, takeCount] <;> simp [h]
  simp only [find, hwindow]

/-- The list that a query shows pages of. -/
def listOf (s : MemoryStore) (t : Table) (q : Query) : Result (List Document) := do
  ordered (← s.matching t q.conditions) q.orderBy

def pageOf (s : MemoryStore) (t : Table) (w : Window) (xs : List Document) : PageResult :=
  ⟨(w.of xs).map .mapping, xs.length, (s.rows t).length⟩

/-- The three reads see one list. -/
theorem run_page (s : MemoryStore) (config : TableConfig) (t : Table) (q : Query)
    (page items : Value) : (access.toReader.page config t q page items).run s =
      ((do
        let w ← Page.window page items config.defaultItems
        return s.pageOf t w (← s.listOf t q)), s) := by
  have hreads (w : Window) : Reader.joined (s.find t ⟨q.conditions, q.orderBy, w.offset, w.limit⟩)
      (s.count t q.conditions) (s.count t none) = (do return s.pageOf t w (← s.listOf t q)) := by
    rw [find_window, count, listOf]
    cases s.matching t q.conditions with
    | error e => rfl
    | ok rows =>
      cases hsorted : ordered rows q.orderBy with
      | error e => simp only [hsorted, Result.ok_bind]; rfl
      | ok sorted =>
        have hlength := (ordered_perm hsorted).length_eq
        simp only [hsorted, Reader.joined, pageOf, hlength, Result.ok_bind, Result.pure_eq_ok]
        rfl
  unfold Reader.page
  rw [Query.apply, Query.change?]
  cases hw : Page.window page items config.defaultItems with
  | error e => rfl
  | ok w => exact congrArg (·, s) (hreads w)

/-- The rows that satisfy all filters, sorted by an order. Rows can be told apart in their order
where it meets no NaN. -/
structure Lists (s : MemoryStore) (t : Table) (filters : List Filter) (order : List String)
    (xs : List Document) : Prop where
  sorted : ordered (s.selected t filters) order = .ok xs
  perm : xs.Perm (s.selected t filters)
  stable : (∀ entry ∈ order, ∀ row ∈ s.selected t filters,
      SortKey.Proper (keyAt entry row).numbers) →
    IsStableSort (orderVerdict order) (s.selected t filters) xs

/-- A page shows a window into a list, with the lengths of the list and of the table. -/
structure Shows (s : MemoryStore) (t : Table) (w : Window) (xs : List Document)
    (page : PageResult) : Prop where
  data : page.data = (w.of xs).map .mapping
  resultCount : page.resultCount = xs.length
  totalCount : page.totalCount = (s.rows t).length
  data_le : page.data.length ≤ page.resultCount
  result_le : page.resultCount ≤ page.totalCount

theorem lists_of_listOf {s : MemoryStore} {t : Table} {q : Query} {filters : List Filter}
    {xs : List Document} (h : s.listOf t q = .ok xs)
    (hq : ∀ row, q.Selects row ↔ ∀ f ∈ filters, f.evaluate (.mapping row) = .ok true) :
    s.Lists t filters q.orderBy xs := by
  obtain ⟨rows, hrows, hsorted⟩ := Result.ok_of_bind h
  obtain rfl := matching_eq hrows hq
  exact ⟨hsorted, ordered_perm hsorted, isStableSort_ordered hsorted⟩

theorem Lists.shows {s : MemoryStore} {t : Table} {filters : List Filter} {order : List String}
    {xs : List Document} (h : s.Lists t filters order xs) (w : Window) :
    s.Shows t w xs (s.pageOf t w xs) := by
  refine ⟨rfl, rfl, rfl, ?_, ?_⟩
  · have hle := w.length_of_le xs
    simp only [pageOf, List.length_map]
    omega
  · have hle : (s.selected t filters).length ≤ (s.rows t).length := List.length_filter_le _ _
    have hlength := h.perm.length_eq
    simp only [pageOf]
    omega

theorem run_dataTable (s : MemoryStore) (config : TableConfig) (t : Table) (q : Query)
    {o : QueryOptions} (hlist : o.getFilterList.getD "" = "") :
    (access.toReader.dataTable config t q o).run s =
      ((do
        let query ← q.applyAll config (Reader.steps o)
        let w ← Page.window o.page o.itemsPerPage config.defaultItems
        return s.pageOf t w (← s.listOf t query)), s) := by
  have hrequested : access.toReader.dataTable config t q o =
      access.toReader.requestedPage config t q o := by
    unfold Reader.dataTable
    cases hfield : o.getFilterList with
    | none => rfl
    | some field =>
      rw [hfield] at hlist
      exact if_pos hlist
  rw [hrequested, Reader.requestedPage]
  cases q.applyAll config (Reader.steps o) with
  | error e => rfl
  | ok query => exact run_page s config t query o.page o.itemsPerPage

theorem window_eq_nth {number items : Value} {size k : Nat} (default : Int)
    (hnumber : Page.int? number = .ok (some (k + 1 : Nat)))
    (hitems : Page.int? items = .ok (some (size : Nat))) :
    Page.window number items default = .ok (Window.nth size k) := by
  have hnull : number.isNull = false := by
    cases number <;> simp [Page.int?, Value.isNull] at hnumber ⊢
  simp only [Page.window, hnull, hnumber, hitems, Result.ok_bind, Result.pure_eq_ok]
  simp [Window.nth]

theorem dataTable_pages {s s' : MemoryStore} {config : TableConfig} {t : Table} {q : Query}
    {o : QueryOptions} {page : PageResult} (hlist : o.getFilterList.getD "" = "")
    (h : (access.toReader.dataTable config t q o).run s = (.ok page, s')) :
    ∃ compiled order w xs, Query.termsFilter o.filter = .ok compiled ∧
      q.effectiveOrder o = .ok order ∧
      Page.window o.page o.itemsPerPage config.defaultItems = .ok w ∧
      s.Lists t (q.wanted compiled o) order xs ∧ s.Shows t w xs page ∧ s' = s ∧
      ∀ size, 1 ≤ size → ∃ pages : Nat → PageResult,
        (∀ k number items, Page.int? number = .ok (some (k + 1 : Nat)) →
          Page.int? items = .ok (some (size : Nat)) →
          (access.toReader.dataTable config t q
            { o with page := number, itemsPerPage := items }).run s = (.ok (pages k), s)) ∧
        (List.range ((xs.length + size - 1) / size)).flatMap (fun k => (pages k).data) =
          xs.map .mapping ∧
        ∀ k, (xs.length + size - 1) / size ≤ k → (pages k).data = [] := by
  rw [run_dataTable s config t q hlist, Prod.mk.injEq] at h
  obtain ⟨h, hs⟩ := h
  obtain ⟨query, hquery, h⟩ := Result.ok_of_bind h
  obtain ⟨w, hw, h⟩ := Result.ok_of_bind h
  obtain ⟨xs, hxs, h⟩ := Result.ok_of_bind h
  obtain rfl := Except.ok.inj h
  obtain ⟨compiled, hcompiled, horder, hq⟩ := Query.applyAll_steps hquery
  have hlists := lists_of_listOf hxs hq
  refine ⟨compiled, query.orderBy, w, xs, hcompiled, horder, hw, hlists, hlists.shows w,
    hs.symm, fun size hsize => ⟨fun k => s.pageOf t (Window.nth size k) xs, ?_, ?_, ?_⟩⟩
  · intro k number items hnumber hitems
    -- Page and size do not enter the list.
    have hsame : q.applyAll config
        (Reader.steps { o with page := number, itemsPerPage := items }) = .ok query := hquery
    rw [run_dataTable s config t q (by exact hlist), hsame, window_eq_nth _ hnumber hitems]
    simp [hxs]
  · simp only [pageOf]
    rw [← List.map_flatMap, Window.flatMap_nth hsize]
  · intro k hk
    simp only [pageOf]
    rw [Window.nth_of_eq_nil hsize xs hk, List.map_nil]

def personRow (id : Int) (name : String) (age : Int) : Document :=
  [("id", .int id), ("name", .text name), ("age", .int age)]

def samplePeople : MemoryStore :=
  ⟨[("people", [personRow 1 "Ann Lee" 30, personRow 2 "Bob Ray" 41, personRow 3 "Cyd Lee" 9,
    personRow 4 "Dan Lee" 44, personRow 5 "Eve Lee" 30, personRow 6 "Fay Lee" 35])]⟩

def adults : Query :=
  ⟨some (.comparison "age" .greater (.text "18")), [], ⟨7, 1⟩⟩

def leesByAge : QueryOptions :=
  ⟨.int 1, .int 2, some "lee", [], some "id(lt:6)", .text "age", .text "true", none⟩

theorem run_leesByAge :
    (access.toReader.dataTable .default Table.people adults leesByAge).run samplePeople =
      (.ok ⟨[.mapping (personRow 4 "Dan Lee" 44), .mapping (personRow 1 "Ann Lee" 30)], 3, 6⟩,
        samplePeople) := by
  let query : Query :=
    ⟨some (.all [.all [.comparison "age" .greater (.text "18"),
      .any [.all [.comparison "id" .less (.text "6")]]], .search "lee" []]), ["-age"], ⟨7, 1⟩⟩
  have hquery : adults.applyAll .default (Reader.steps leesByAge) = .ok query := rfl
  have hrows : samplePeople.matching Table.people query.conditions = .ok
      [personRow 1 "Ann Lee" 30, personRow 4 "Dan Lee" 44, personRow 5 "Eve Lee" 30] := by
    with_unfolding_all rfl
  have hsorted : ordered
      [personRow 1 "Ann Lee" 30, personRow 4 "Dan Lee" 44, personRow 5 "Eve Lee" 30] ["-age"] = .ok
      [personRow 4 "Dan Lee" 44, personRow 1 "Ann Lee" 30, personRow 5 "Eve Lee" 30] := by
    have hsort : sortByKey? (keyAt "-age") true
        [personRow 1 "Ann Lee" 30, personRow 4 "Dan Lee" 44, personRow 5 "Eve Lee" 30] = some
        [personRow 4 "Dan Lee" 44, personRow 1 "Ann Lee" 30, personRow 5 "Eve Lee" 30] := by
      have hcomparable : SortKey.areComparable
          [keyAt "-age" (personRow 1 "Ann Lee" 30), keyAt "-age" (personRow 4 "Dan Lee" 44),
            keyAt "-age" (personRow 5 "Eve Lee" 30)] = true := by
        with_unfolding_all rfl
      have hann : (keyAt "-age" (personRow 4 "Dan Lee" 44)).le
          (keyAt "-age" (personRow 1 "Ann Lee" 30)) = false := by
        with_unfolding_all rfl
      have heve : (keyAt "-age" (personRow 5 "Eve Lee" 30)).le
          (keyAt "-age" (personRow 1 "Ann Lee" 30)) = true := by
        with_unfolding_all rfl
      have hdan : (keyAt "-age" (personRow 5 "Eve Lee" 30)).le
          (keyAt "-age" (personRow 4 "Dan Lee" 44)) = true := by
        with_unfolding_all rfl
      simp [sortByKey?, List.mergeSort, List.MergeSort.Internal.splitInTwo,
        hcomparable, hann, heve, hdan]
    exact ordered_of_sortByKey? rfl hsort
  have hlist : samplePeople.listOf Table.people query = .ok
      [personRow 4 "Dan Lee" 44, personRow 1 "Ann Lee" 30, personRow 5 "Eve Lee" 30] := by
    rw [listOf, hrows]
    exact hsorted
  rw [run_dataTable _ _ _ _ rfl, hquery]
  change (((samplePeople.listOf Table.people query).map fun xs =>
    samplePeople.pageOf Table.people ⟨0, 2⟩ xs), samplePeople) = _
  rw [hlist]
  rfl

theorem dataTable_pages_leesByAge :
    ∃ compiled order w xs, Query.termsFilter leesByAge.filter = .ok compiled ∧
      adults.effectiveOrder leesByAge = .ok order ∧
      Page.window leesByAge.page leesByAge.itemsPerPage TableConfig.default.defaultItems = .ok w ∧
      samplePeople.Lists Table.people (adults.wanted compiled leesByAge) order xs ∧
      samplePeople.Shows Table.people w xs
        ⟨[.mapping (personRow 4 "Dan Lee" 44), .mapping (personRow 1 "Ann Lee" 30)], 3, 6⟩ ∧
      ∃ pages : Nat → PageResult,
        (∀ k : Nat, (access.toReader.dataTable .default Table.people adults
          { leesByAge with page := .int (k + 1 : Nat), itemsPerPage := .text "2" }).run
            samplePeople = (.ok (pages k), samplePeople)) ∧
        (List.range ((xs.length + 1) / 2)).flatMap (fun k => (pages k).data) =
          xs.map .mapping ∧
        ∀ k, (xs.length + 1) / 2 ≤ k → (pages k).data = [] := by
  obtain ⟨compiled, order, w, xs, hcompiled, horder, hw, hlists, hshows, -, hsizes⟩ :=
    dataTable_pages rfl run_leesByAge
  obtain ⟨pages, hpages, hall, hlater⟩ := hsizes 2 (by decide)
  refine ⟨compiled, order, w, xs, hcompiled, horder, hw, hlists, hshows, pages, fun k => ?_,
    hall, hlater⟩
  exact hpages k _ _ rfl rfl

end MemoryStore

end DocGrid

import DocGrid.Proofs.Pipeline.Paths
import DocGrid.Proofs.Store.Cells
import DocGrid.Store.Sql.Condition

/-! Filters that compare fields with texts, and the rows of typed columns that they are asked of. -/

namespace DocGrid

namespace Table

/-- A row of a table: every column has a value of its type, or null where it may, and there is
nothing else. -/
structure Admits (t : Table) (row : Document) : Prop where
  values : ∀ c ∈ t.columns, ∃ v, row.get? c.name = some v ∧
    (c.type.Holds v ∨ c.nullable = true ∧ c.isKey = false ∧ v = .null)
  names : ∀ name, t.column? name = none → row.get? name = none

def KeptAs [Conversions] (t : Table) (row : Document) (r : SqlRow) : Prop :=
  ∀ c ∈ t.columns, ∀ v, row.get? c.name = some v → r.cell c.name = c.type.kept v

theorem column?_some {t : Table} {field : String} {c : Column} (h : t.column? field = some c) :
    c ∈ t.columns ∧ c.name = field :=
  ⟨List.mem_of_find?_eq_some h, by simpa using List.find?_some h⟩

end Table

/-- The texts that a column is compared with, and the operators that compare it. -/
structure Suits (rows : List Document) (c : Column) (op : Operator) (texts : List String) :
    Prop where
  reads : op ≠ .present → c.type.Reads texts
  ordered : c.type = .bool → op ∈ [.equal, .notEqual, .among, .notAmong, .present]
  notNull : op ∈ [.notEqual, .notAmong, .present] → ∀ row ∈ rows, row.get? c.name ≠ some .null

namespace Filter

/-- Equalities and comparisons with texts, under any groups. A field that is no column is free. -/
inductive Compares (t : Table) (rows : List Document) : Filter → Prop
  | equals {field text : String}
      (h : ∀ c, t.column? field = some c → Suits rows c .equal [text]) :
      Compares t rows (.equals field (.text text))
  | comparison {field text : String} {op : Operator} (hop : op ≠ .hasType)
      (h : ∀ c, t.column? field = some c → Suits rows c op [text]) :
      Compares t rows (.comparison field op (.text text))
  | comparisonOfMany {field : String} {op : Operator} {texts : List String}
      (hop : op = .among ∨ op = .notAmong)
      (h : ∀ c, t.column? field = some c → Suits rows c op texts) :
      Compares t rows (.comparison field op (.list (texts.map .text)))
  | all {filters : List Filter} (h : ∀ f ∈ filters, Compares t rows f) :
      Compares t rows (.all filters)
  | any {filters : List Filter} (h : ∀ f ∈ filters, Compares t rows f) :
      Compares t rows (.any filters)

end Filter

/-! What a path leads to in a row. -/

theorem split_of_mem {sep : Char} {cs : List Char} (h : sep ∈ cs) :
    ∃ first second more, Text.split sep cs = first :: second :: more := by
  cases hs : Text.split sep cs with
  | nil => exact absurd hs (Text.split_ne_nil sep cs)
  | cons first rest =>
    cases rest with
    | cons second more => exact ⟨first, second, more, rfl⟩
    | nil =>
      have hjoin := Text.join_split sep cs
      rw [hs, Text.join] at hjoin
      have hnot : sep ∉ first := Text.not_mem_of_mem_split (hs ▸ List.mem_singleton_self first)
      exact absurd (hjoin ▸ h) hnot

theorem ColumnType.Holds.follow_cons {type : ColumnType} {v : Value} (h : type.Holds v)
    (key : String) (rest : List String) : v.follow (key :: rest) = none := by
  cases h <;> rfl

/-- Behind a column there is nothing more, and no other field begins a path. -/
theorem resolve_of_no_column {t : Table} {row : Document} (hrow : t.Admits row) {field : String}
    (h : t.column? field = none) : (Value.mapping row).resolve field = none := by
  by_cases hdot : '.' ∈ field.toList
  · obtain ⟨first, second, more, hs⟩ := split_of_mem hdot
    simp only [Value.resolve, pathSegments, Text.splitText, hs, List.map_cons, Value.follow]
    cases hc : t.column? (String.ofList first) with
    | none => rw [hrow.names _ hc, Option.bind_none]
    | some c =>
      obtain ⟨hmem, hname⟩ := Table.column?_some hc
      obtain ⟨v, hv, hkind⟩ := hrow.values c hmem
      rw [← hname, hv, Option.bind_some]
      rcases hkind with hkind | ⟨-, -, rfl⟩
      · exact hkind.follow_cons _ _
      · rfl
  · rw [Document.resolve_of_notMem hdot]
    exact hrow.names field h

end DocGrid

import DocGrid.Proofs.Store.Columns
import DocGrid.Proofs.Store.Loading

/-! Rows of values that their columns are meant for. A database keeps such a row as the cells of its
values, takes two rows to have one key when memory does, and gives back the document that its columns
return. -/

namespace DocGrid

def Column.valueIn (c : Column) (row : Document) : Value :=
  (row.get? c.name).getD .null

/-- The values of a column: those of its type, and null where it may be. -/
def Column.Fits (c : Column) (v : Value) : Prop :=
  c.type.Fits v ∨ c.nullable = true ∧ c.isKey = false ∧ v = .null

namespace Table

def Fits (t : Table) (row : Document) : Prop :=
  ∀ c ∈ t.columns, c.Fits (c.valueIn row)

def cells [Conversions] (t : Table) (row : Document) : List (String × Cell) :=
  t.columns.map fun c => (c.name, c.type.cellOf (c.valueIn row))

/-- A row as its columns give it back: as it is, except for doubles that stand by themselves in JSON
columns. -/
def returned [Conversions] (t : Table) (row : Document) : Document :=
  t.columns.map fun c => (c.name, c.type.returned (c.valueIn row))

/-- What is said of the columns of the known tables. -/
structure WellMade (t : Table) : Prop where
  names : (t.columns.map (·.name)).Nodup
  keys : ∀ c ∈ t.columns, c.isKey = true → c.type = .int ∨ c.type = .text
  defaults : ∀ c ∈ t.columns, c.nullable = true → c.isKey = false →
    c.type = .jsonList ∨ c.type = .jsonMapping ∨ c.default.getD .null = .null
  plain : ∀ c ∈ t.columns, '.' ∉ c.name.toList ∧ '-' ∉ c.name.toList

theorem keyOf_eq (t : Table) (row : Document) :
    t.keyOf row = t.keyColumns.map fun c => c.valueIn row := by
  rw [keyOf, keyNames, List.map_map]
  rfl

theorem wellMade {t : Table} (ht : t ∈ Table.all) : t.WellMade := by
  simp only [Table.all, List.mem_cons, List.not_mem_nil, or_false] at ht
  rcases ht with rfl | rfl | rfl | rfl <;>
    exact ⟨by decide, by simp [people, items, pairs, events], by simp [people, items, pairs, events],
      by simp [people, items, pairs, events]⟩

end Table

section Column

variable {c : Column} {v : Value} {row : Document}

/-- Null is a value of JSON columns; elsewhere it stands for none. -/
theorem Column.Fits.elim (h : c.Fits v) : c.type.Fits v ∨
    v = .null ∧ c.nullable = true ∧ c.isKey = false ∧ c.type ≠ .jsonList ∧ c.type ≠ .jsonMapping := by
  rcases h with h | ⟨hnullable, hkey, rfl⟩
  · exact .inl h
  · by_cases hjson : c.type = .jsonList ∨ c.type = .jsonMapping
    · exact .inl (.json hjson .null (by simp [Value.int]))
    · obtain ⟨hlist, hmapping⟩ := not_or.mp hjson
      exact .inr ⟨rfl, hnullable, hkey, hlist, hmapping⟩

theorem ColumnType.convert_null {type : ColumnType} (hlist : type ≠ .jsonList)
    (hmapping : type ≠ .jsonMapping) : type.convert .null = .ok .null := by
  cases type <;> first | rfl | contradiction

theorem ColumnType.load_null (type : ColumnType) : type.load .null = .ok .null := by
  cases type <;> rfl

theorem ColumnType.Fits.ne_null {type : ColumnType} (h : type.Fits v) (hlist : type ≠ .jsonList)
    (hmapping : type ≠ .jsonMapping) : v.isNull = false := by
  cases h with
  | json htype => exact absurd htype (not_or.mpr ⟨hlist, hmapping⟩)
  | _ => rfl

variable [Conversions]

theorem ColumnType.cellOf_null {type : ColumnType} (hlist : type ≠ .jsonList)
    (hmapping : type ≠ .jsonMapping) : type.cellOf .null = .null := by
  rw [cellOf_eq (convert_null hlist hmapping) rfl]
  cases type <;> rfl

theorem Column.Fits.load (h : c.Fits v) :
    ∃ w, c.type.load (c.type.cellOf v) = .ok w ∧ (c.type.returned v).same w = true := by
  rcases h.elim with h | ⟨rfl, -, -, hlist, hmapping⟩
  · exact h.load.2
  · rw [ColumnType.cellOf_null hlist hmapping, ColumnType.returned,
      if_neg (not_or.mpr ⟨hlist, hmapping⟩)]
    exact ⟨.null, ColumnType.load_null _, rfl⟩

theorem Column.Fits.cellOf_ne_null (h : c.Fits v) (hc : c.nullable = false ∨ c.isKey = true) :
    c.type.cellOf v ≠ .null := by
  rcases h.elim with h | ⟨-, hnullable, hkey, -⟩
  · exact h.load.1
  · rcases hc with hc | hc
    · exact absurd (hnullable.symm.trans hc) (by decide)
    · exact absurd (hc.symm.trans hkey) (by decide)

theorem Column.Fits.key_int (h : c.Fits v) (hkey : c.isKey = true) (htype : c.type = .int) :
    ∃ n, v = .int n ∧ c.type.cellOf v = .int n := by
  rcases h with h | ⟨-, hnot, -⟩
  · rw [htype] at h ⊢
    cases h with
    | @int n hn => exact ⟨n, rfl, ColumnType.cellOf_int hn⟩
    | json htype => simp at htype
  · exact absurd (hkey.symm.trans hnot) (by decide)

theorem Column.Fits.key_text (h : c.Fits v) (hkey : c.isKey = true) (htype : c.type = .text) :
    ∃ s, v = .text s ∧ c.type.cellOf v = .text s := by
  rcases h with h | ⟨-, hnot, -⟩
  · rw [htype] at h ⊢
    cases h with
    | text s => exact ⟨s, rfl, rfl⟩
    | json htype => simp at htype
  · exact absurd (hkey.symm.trans hnot) (by decide)

/-- Keys are whole numbers and texts. -/
theorem Table.Fits.key {t : Table} (hrow : t.Fits row) (ht : t.WellMade) (hc : c ∈ t.keyColumns) :
    (∃ n, c.valueIn row = .int n) ∨ ∃ s, c.valueIn row = .text s := by
  obtain ⟨hc, hkey⟩ := List.mem_filter.mp hc
  rcases ht.keys c hc hkey with htype | htype
  · obtain ⟨n, hn, -⟩ := (hrow c hc).key_int hkey htype
    exact .inl ⟨n, hn⟩
  · obtain ⟨s, hs, -⟩ := (hrow c hc).key_text hkey htype
    exact .inr ⟨s, hs⟩

/-- Two values of a key column are one key in a database when they are equal. -/
theorem Column.compare?_key {w : Value} (hv : c.Fits v) (hw : c.Fits w) (hkey : c.isKey = true)
    (htype : c.type = .int ∨ c.type = .text) :
    ((c.type.cellOf w).compare? (c.type.cellOf v) == some .eq) = v.same w := by
  have heq (o : Ordering) : (some o == some .eq) = o.isEq := by cases o <;> rfl
  rcases htype with htype | htype
  · obtain ⟨n, rfl, hn⟩ := hv.key_int hkey htype
    obtain ⟨m, rfl, hm⟩ := hw.key_int hkey htype
    have hsame : (Value.int n).same (.int m) = decide (Quantity.ofInt n = .ofInt m) := rfl
    rw [hn, hm, Cell.compare?_eq rfl rfl, heq, Quantity.isEq_order, hsame]
    exact decide_eq_decide.mpr eq_comm
  · obtain ⟨s, rfl, hs⟩ := hv.key_text hkey htype
    obtain ⟨u, rfl, hu⟩ := hw.key_text hkey htype
    have hcompare : (Cell.text u).compare? (.text s) = some (compare u s) := rfl
    rw [hs, hu, hcompare, heq, Value.same, Bool.eq_iff_iff, Ordering.isEq_iff_eq_eq,
      Std.LawfulEqCmp.compare_eq_iff_eq, beq_iff_eq]
    exact eq_comm

end Column

namespace SqlStore

variable {t : Table} {row other : Document}

theorem columnValue_eq_valueIn (ht : t.WellMade) (hrow : t.Fits row) {c : Column}
    (hc : c ∈ t.columns) : columnValue row c = c.valueIn row := by
  unfold columnValue
  change (if ((c.valueIn row).isNull && c.type != .jsonList && c.type != .jsonMapping) = true then _
    else c.valueIn row) = _
  rcases (hrow c hc).elim with h | ⟨hnull, hnullable, hkey, hlist, hmapping⟩
  · by_cases hjson : c.type = .jsonList ∨ c.type = .jsonMapping
    · rcases hjson with hjson | hjson <;> simp [hjson]
    · obtain ⟨hlist, hmapping⟩ := not_or.mp hjson
      simp [h.ne_null hlist hmapping]
  · have hdefault := ht.defaults c hc hnullable hkey
    simp only [hlist, hmapping, false_or] at hdefault
    simp [hnull, hdefault]

theorem sameItems_map {α : Type} (f g : α → Value) (xs : List α) :
    Value.sameItems (xs.map f) (xs.map g) = xs.all fun x => (f x).same (g x) := by
  induction xs with
  | nil => rfl
  | cons x xs ih => rw [List.map_cons, List.map_cons, Value.sameItems, ih, List.all_cons]

variable [Conversions]

/-- The values of a row are handed over and bound to its cells. -/
theorem bound_converted (ht : t.WellMade) (hrow : t.Fits row) :
    ∃ values, converted t row = .ok values ∧
      bound values = .ok (t.columns.map fun c => (c, c.type.cellOf (c.valueIn row))) := by
  have hcolumn : ∀ c ∈ t.columns, ∃ u x, c.type.convert (columnValue row c) = .ok u ∧
      Cell.ofValue u = .ok x ∧ Cell.stored c.type.affinity x = c.type.cellOf (c.valueIn row) := by
    intro c hc
    rw [columnValue_eq_valueIn ht hrow hc]
    rcases (hrow c hc).elim with h | ⟨hnull, -, -, hlist, hmapping⟩
    · obtain ⟨u, x, hu, hx⟩ := h.convert
      exact ⟨u, x, hu, hx, (ColumnType.cellOf_eq hu hx).symm⟩
    · have hu := ColumnType.convert_null hlist hmapping
      rw [hnull]
      exact ⟨.null, .null, hu, rfl, (ColumnType.cellOf_eq hu rfl).symm⟩
  choose! u x hu hx hcell using hcolumn
  refine ⟨t.columns.map fun c => (c, u c), Result.mapM_of_ok fun c hc => by rw [hu c hc]; rfl, ?_⟩
  have hbound : ∀ e ∈ t.columns.map fun c => (c, u c),
      (do return (e.1, Cell.stored e.1.type.affinity (← Cell.ofValue e.2)) : Result _) =
        .ok (e.1, e.1.type.cellOf (e.1.valueIn row)) := by
    intro e he
    obtain ⟨c, hc, rfl⟩ := List.mem_map.mp he
    simp [hx c hc, hcell c hc]
  refine (Result.mapM_of_ok hbound).trans ?_
  rw [List.map_map]
  rfl

theorem cell_cells (ht : t.WellMade) {c : Column} (hc : c ∈ t.columns) (n : Int) (row : Document) :
    SqlRow.cell ⟨n, t.cells row⟩ c.name = c.type.cellOf (c.valueIn row) :=
  Table.cellIn_map ht.names hc

theorem numbered_cells (ht : t.WellMade) (hrow : t.Fits row) (rows : List SqlRow) :
    ∃ n, numbered t rows (t.cells row) = .ok ⟨n, t.cells row⟩ := by
  unfold numbered
  cases hnumbering : numbering? t with
  | none => exact ⟨_, rfl⟩
  | some c =>
    have hkey : c ∈ t.keyColumns ∧ c.type = .int := by
      unfold numbering? at hnumbering
      split at hnumbering
      · next hkeys =>
        obtain ⟨htype, hsome⟩ := Option.ite_none_right_eq_some.mp hnumbering
        obtain rfl := Option.some.inj hsome
        rw [hkeys]
        exact ⟨List.mem_singleton_self _, htype⟩
      · cases hnumbering
    obtain ⟨hc, hiskey⟩ := List.mem_filter.mp hkey.1
    obtain ⟨n, -, hcell⟩ := (hrow c hc).key_int hiskey hkey.2
    have hcount : SqlRow.cellIn c.name (t.cells row) = .int n := (cell_cells ht hc 0 row).trans hcell
    dsimp only
    rw [hcount]
    exact ⟨n, rfl⟩

theorem not_lacksValue (ht : t.WellMade) (hrow : t.Fits row) (n : Int) :
    t.columns.any (lacksValue ⟨n, t.cells row⟩) = false := by
  refine List.any_eq_false.mpr fun c hc => ?_
  rw [lacksValue, cell_cells ht hc]
  by_cases hnullable : c.nullable = true
  · simp [hnullable]
  · have hne := (hrow c hc).cellOf_ne_null (.inl (Bool.eq_false_iff.mpr hnullable))
    simpa using fun _ => hne

/-- A database takes two rows to have one key when memory does. -/
theorem sameKey_cells (ht : t.WellMade) (hrow : t.Fits row) (hother : t.Fits other) (n m : Int) :
    sameKey t ⟨n, t.cells row⟩ ⟨m, t.cells other⟩ =
      Value.sameItems (t.keyOf other) (t.keyOf row) := by
  rw [Table.keyOf_eq, Table.keyOf_eq, sameItems_map, sameKey, Table.keyNames, List.all_map,
    Bool.eq_iff_iff, List.all_eq_true, List.all_eq_true]
  refine forall₂_congr fun c hc => ?_
  obtain ⟨hc, hkey⟩ := List.mem_filter.mp hc
  have hcompare := Column.compare?_key (hother c hc) (hrow c hc) hkey (ht.keys c hc hkey)
  rw [Function.comp, cell_cells ht hc, cell_cells ht hc, hcompare]

/-- A row comes back as a document that is equal to what its columns return. -/
theorem loadRow_cells (ht : t.WellMade) (hrow : t.Fits row) (n : Int) :
    ∃ doc, loadRow t ⟨n, t.cells row⟩ = .ok doc ∧
      (Value.mapping (t.returned row)).same (.mapping doc) = true := by
  have hload : ∀ c ∈ t.columns, ∃ w, c.type.load (c.type.cellOf (c.valueIn row)) = .ok w ∧
      (c.type.returned (c.valueIn row)).same w = true :=
    fun c hc => (hrow c hc).load
  choose! w hw hsame using hload
  refine ⟨t.columns.map fun c => (c.name, w c), Result.mapM_of_ok fun c hc => ?_, ?_⟩
  · rw [cell_cells ht hc, hw c hc]
    rfl
  · have hkeys : (Document.keys (t.columns.map fun c => (c.name, w c))).Nodup := by
      rw [Document.keys, List.map_map]
      exact ht.names
    have hentries : Value.sameEntries (t.returned row) (t.columns.map fun c => (c.name, w c)) =
        true := by
      refine Value.sameEntries_iff.mpr fun e he => ?_
      obtain ⟨c, hc, rfl⟩ := List.mem_map.mp he
      exact ⟨w c, Value.get?_of_mem hkeys (List.mem_map.mpr ⟨c, hc, rfl⟩), hsame c hc⟩
    rw [Value.same, hentries, Bool.and_true]
    simp [Table.returned]

end SqlStore

end DocGrid

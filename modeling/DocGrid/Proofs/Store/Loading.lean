import DocGrid.Proofs.Store.Written

/-! Rows can be read for as long as they are kept: a batch is only added if each of its rows can be
read back, and rows that are there stay as they are. -/

namespace DocGrid

namespace SqlStore

@[simp] theorem rowsIn?_putRows (name other : String) (rows : List SqlRow)
    (tables : List (String × List SqlRow)) : rowsIn? other (putRows name rows tables) =
      if name = other then some rows else rowsIn? other tables := by
  induction tables with
  | nil => simp [putRows, rowsIn?]
  | cons e rest ih =>
    obtain ⟨n, old⟩ := e
    by_cases hn : n = name
    · subst hn
      simp only [putRows, if_true, rowsIn?]
      split <;> rfl
    · by_cases ho : n = other
      · subst ho
        simp [putRows, rowsIn?, hn, Ne.symm hn]
      · simp only [putRows, hn, if_false, rowsIn?, ho, ih]

@[simp] theorem rows_withRows (s : SqlStore) (t u : Table) (rows : List SqlRow) :
    (s.withRows t rows).rows u = if t.name = u.name then .ok rows else s.rows u := by
  unfold SqlStore.rows withRows
  rw [rowsIn?_putRows]
  split <;> rfl

/-- Tables go by their names. -/
theorem eq_of_name_eq {t u : Table} (ht : t ∈ Table.all) (hu : u ∈ Table.all)
    (h : t.name = u.name) : t = u := by
  simp only [Table.all, List.mem_cons, List.not_mem_nil, or_false] at ht hu
  rcases ht with rfl | rfl | rfl | rfl <;> rcases hu with rfl | rfl | rfl | rfl <;>
    first | rfl | exact absurd h (by decide)

def Loads (s : SqlStore) : Prop :=
  ∀ t ∈ Table.all, ∀ rows, s.rows t = .ok rows → ∀ r ∈ rows, ∃ doc, loadRow t r = .ok doc

theorem Loads.withRows {s : SqlStore} (h : s.Loads) {t : Table} (ht : t ∈ Table.all)
    {rows : List SqlRow} (hrows : ∀ r ∈ rows, ∃ doc, loadRow t r = .ok doc) :
    (s.withRows t rows).Loads := by
  intro u hu kept hkept
  rw [rows_withRows] at hkept
  split at hkept
  · next hname =>
    obtain rfl := eq_of_name_eq ht hu hname
    cases hkept
    exact hrows
  · exact h u hu kept hkept

variable [Conversions]

/-- The stores that come about by writing to the known tables. -/
inductive Accepted : SqlStore → Prop
  | empty : Accepted .empty
  | setup {s : SqlStore} (h : s.Accepted) {t : Table} (ht : t ∈ Table.all) : Accepted (s.setup t)
  | insertAll {s s' : SqlStore} {t : Table} {docs added : List Document} (h : s.Accepted)
      (ht : t ∈ Table.all) (ho : s.insertAll t docs = .ok (s', added)) : Accepted s'

/-- A new table can be filled with any rows that it accepts. -/
theorem accepted_of_rows {s : SqlStore} {t : Table} (ht : t ∈ Table.all) (rows : List Document)
    (h : ∃ added, (SqlStore.empty.setup t).insertAll t rows = .ok (s, added)) : s.Accepted := by
  obtain ⟨added, h⟩ := h
  exact .insertAll (.setup .empty ht) ht h

theorem Accepted.written {s : SqlStore} (h : s.Accepted) : s.Written := by
  induction h with
  | empty => exact .empty
  | setup _ _ ih => exact ih.setup _
  | insertAll _ _ ho ih => exact ih.insertAll ho

theorem Loads.insertAll {s s' : SqlStore} (h : s.Loads) {t : Table} (ht : t ∈ Table.all)
    {docs added : List Document} (ho : s.insertAll t docs = .ok (s', added)) : s'.Loads := by
  rcases insertAll_cases ho with rfl | ⟨kept, all, hkept, rfl, hall⟩
  · exact h
  · refine h.withRows ht fun r hr => ?_
    rcases hall r hr with hr | ⟨hdoc, -⟩
    · exact h t ht kept hkept r hr
    · exact hdoc

theorem Accepted.loads {s : SqlStore} (h : s.Accepted) : s.Loads := by
  induction h with
  | empty =>
    intro t _ rows hrows
    cases hrows
  | @setup s _ t ht ih =>
    rcases s.setup_cases t with he | he <;> rw [he]
    · exact ih
    · exact ih.withRows ht (by simp)
  | insertAll _ ht ho ih => exact ih.insertAll ht ho

end SqlStore

end DocGrid

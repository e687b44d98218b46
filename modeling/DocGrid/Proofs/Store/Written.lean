import DocGrid.Proofs.Number.Rounding
import DocGrid.Proofs.Store.Insertion

/-! What a database can come to hold. Whatever is written, no cell is a number that is none: such a
number is kept as null. -/

namespace DocGrid

namespace Cell

def NotNaN : Cell → Prop
  | real x => x.isNaN = false
  | _ => True

theorem notNaN_wholeOr {x : Binary64} (h : x.isNaN = false) : (wholeOr x).NotNaN := by
  unfold wholeOr
  split
  · trivial
  · exact h

theorem notNaN_ofBinary64 (x : Binary64) : (ofBinary64 x).NotNaN := by
  unfold ofBinary64
  split
  · trivial
  · next h => simpa [NotNaN] using h

theorem notNaN_ofValue {v : Value} {c : Cell} (h : ofValue v = .ok c) : c.NotNaN := by
  cases v with
  | number n =>
    cases n with
    | int n =>
      rw [ofValue] at h
      split at h
      · cases h
        trivial
      · cases h
    | float x =>
      cases h
      exact notNaN_ofBinary64 x
    | decimal d => cases h
  | list items => cases h
  | mapping entries => cases h
  | _ =>
    cases h
    trivial

variable [Conversions]

theorem notNaN_ofNumeral (n : Numeral) : (ofNumeral n).NotNaN := by
  unfold ofNumeral
  split
  · trivial
  · exact Conversions.isNaN_real n

theorem notNaN_ofText (s : String) : ((Numeral.read? s).elim (text s) ofNumeral).NotNaN := by
  cases Numeral.read? s with
  | none => trivial
  | some n => exact notNaN_ofNumeral n

theorem NotNaN.under {c : Cell} (h : c.NotNaN) (a : Affinity) : (c.under a).NotNaN := by
  cases c with
  | text s => cases a <;> first | trivial | exact notNaN_ofText s
  | _ => cases a <;> trivial

theorem NotNaN.stored {c : Cell} (h : c.NotNaN) (a : Affinity) : (c.stored a).NotNaN := by
  have hunder := h.under a
  unfold Cell.stored
  split
  · exact hunder
  · exact Binary64.isNaN_ofInt _
  · next x hx =>
    rw [hx] at hunder
    split
    · rfl
    · exact hunder
  · next x _ _ hx =>
    rw [hx] at hunder
    exact notNaN_wholeOr hunder
  · exact hunder

end Cell

namespace SqlRow

def NotNaN (r : SqlRow) : Prop :=
  ∀ e ∈ r.cells, e.2.NotNaN

theorem NotNaN.cell {r : SqlRow} (h : r.NotNaN) (column : String) : (r.cell column).NotNaN := by
  obtain ⟨number, cells⟩ := r
  change ∀ e ∈ cells, e.2.NotNaN at h
  change (cellIn column cells).NotNaN
  induction cells with
  | nil => trivial
  | cons e rest ih =>
    obtain ⟨name, c⟩ := e
    obtain ⟨hc, hrest⟩ := List.forall_mem_cons.mp h
    rw [cellIn]
    split
    · exact hc
    · exact ih hrest

end SqlRow

namespace SqlStore

open Table

/-- A number that the database counts by is no NaN either. -/
theorem notNaN_numbered {t : Table} {rows : List SqlRow} {cells : List (String × Cell)}
    {row : SqlRow} (h : numbered t rows cells = .ok row) (hcells : ∀ e ∈ cells, e.2.NotNaN) :
    row.NotNaN := by
  unfold numbered at h
  split at h
  · cases h
    exact hcells
  · split at h
    · cases h
      intro e he
      obtain ⟨d, hd, rfl⟩ := List.mem_map.mp he
      split
      · trivial
      · exact hcells d hd
    · cases h
      exact hcells
    · cases h

theorem mem_putRows {name : String} {rows : List SqlRow} {tables : List (String × List SqlRow)}
    {e : String × List SqlRow} (h : e ∈ putRows name rows tables) : e.2 = rows ∨ e ∈ tables := by
  induction tables with
  | nil =>
    obtain rfl := List.mem_singleton.mp h
    exact .inl rfl
  | cons d rest ih =>
    obtain ⟨n, old⟩ := d
    rw [putRows] at h
    split at h
    · rcases List.mem_cons.mp h with rfl | h
      · exact .inl rfl
      · exact .inr (List.mem_cons_of_mem _ h)
    · rcases List.mem_cons.mp h with rfl | h
      · exact .inr (by simp)
      · exact (ih h).imp_right (List.mem_cons_of_mem _)

theorem mem_of_rows {s : SqlStore} {t : Table} {rows : List SqlRow} (h : s.rows t = .ok rows) :
    ∃ e ∈ s.tables, e.2 = rows := by
  unfold SqlStore.rows at h
  generalize s.tables = tables at h
  induction tables with
  | nil => cases h
  | cons e rest ih =>
    obtain ⟨n, old⟩ := e
    rw [rowsIn?] at h
    split at h
    · exact ⟨(n, old), by simp, Except.ok.inj h⟩
    · obtain ⟨d, hd, hrows⟩ := ih h
      exact ⟨d, List.mem_cons_of_mem _ hd, hrows⟩

def NotNaN (s : SqlStore) : Prop :=
  ∀ e ∈ s.tables, ∀ r ∈ e.2, SqlRow.NotNaN r

theorem NotNaN.rows {s : SqlStore} (h : s.NotNaN) {t : Table} {rows : List SqlRow}
    (hrows : s.rows t = .ok rows) : ∀ r ∈ rows, r.NotNaN := by
  obtain ⟨e, he, rfl⟩ := mem_of_rows hrows
  exact h e he

theorem NotNaN.withRows {s : SqlStore} (h : s.NotNaN) (t : Table) {rows : List SqlRow}
    (hrows : ∀ r ∈ rows, r.NotNaN) : (s.withRows t rows).NotNaN := by
  intro e he
  rcases mem_putRows he with rfl | he
  · exact hrows
  · exact h e he

variable [Conversions]

theorem notNaN_bound {values : List (Column × Value)} {cells : List (Column × Cell)}
    (h : bound values = .ok cells) : ∀ e ∈ cells, e.2.NotNaN := by
  refine Result.forall_of_mapM h fun ⟨c, v⟩ _ e he => ?_
  obtain ⟨cell, hcell, he⟩ := Result.ok_of_bind he
  obtain rfl := Except.ok.inj he
  exact (Cell.notNaN_ofValue hcell).stored _

theorem notNaN_newRow {t : Table} {rows : List SqlRow} {values : List (Column × Value)}
    {row : SqlRow} (h : newRow t rows values = .ok row) : row.NotNaN := by
  obtain ⟨cells, hcells, h⟩ := Result.ok_of_bind h
  obtain ⟨numbered, hnumbered, h⟩ := Result.ok_of_bind h
  have hrow : row = numbered := by
    split at h
    · cases h
    · exact (Except.ok.inj h).symm
  rw [hrow]
  refine notNaN_numbered hnumbered fun e he => ?_
  obtain ⟨d, hd, rfl⟩ := List.mem_map.mp he
  exact notNaN_bound hcells d hd

inductive Written : SqlStore → Prop
  | empty : Written .empty
  | setup {s : SqlStore} (h : s.Written) (t : Table) : Written (s.setup t)
  | insertAll {s s' : SqlStore} {t : Table} {docs added : List Document} (h : s.Written)
      (ho : s.insertAll t docs = .ok (s', added)) : Written s'

theorem NotNaN.insertAll {s s' : SqlStore} (h : s.NotNaN) {t : Table}
    {docs added : List Document} (ho : s.insertAll t docs = .ok (s', added)) : s'.NotNaN := by
  rcases insertAll_cases ho with rfl | ⟨kept, all, hkept, rfl, hall⟩
  · exact h
  · refine h.withRows t fun r hr => ?_
    rcases hall r hr with hr | ⟨-, _, _, hnew⟩
    · exact h.rows hkept r hr
    · exact notNaN_newRow hnew

theorem Written.notNaN {s : SqlStore} (h : s.Written) : s.NotNaN := by
  induction h with
  | empty =>
    intro e he
    cases he
  | @setup s _ t ih =>
    rcases s.setup_cases t with he | he <;> rw [he]
    · exact ih
    · exact ih.withRows t (by simp)
  | insertAll _ ho ih => exact ih.insertAll ho

end SqlStore

end DocGrid

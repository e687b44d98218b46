import DocGrid.Store.Memory
import DocGrid.Store.Sql.Database

/-! Batches of rows that are refused. A database adds none of them, while memory keeps those that
came before the first refusal. -/

namespace DocGrid

namespace MemoryStore

theorem rowsIn_appendIn (name other : String) (row : Document)
    (tables : List (String × List Document)) : rowsIn other (appendIn name row tables) =
      if other = name then rowsIn other tables ++ [row] else rowsIn other tables := by
  induction tables with
  | nil =>
    by_cases h : other = name
    · simp [appendIn, rowsIn, h]
    · simp [appendIn, rowsIn, h, Ne.symm h]
  | cons entry rest ih =>
    obtain ⟨n, rows⟩ := entry
    by_cases hn : n = name
    · subst hn
      by_cases h : other = n
      · simp [appendIn, rowsIn, h]
      · simp [appendIn, rowsIn, h, Ne.symm h]
    · by_cases h : n = other
      · subst h
        simp [appendIn, rowsIn, hn]
      · simp only [appendIn, rowsIn, hn, h, if_false, ih]

@[simp]
theorem rows_append (s : MemoryStore) (t u : Table) (row : Document) : (s.append t row).rows u =
    if u.name = t.name then s.rows u ++ [row] else s.rows u :=
  rowsIn_appendIn t.name u.name row s.tables

def appendAll (s : MemoryStore) (t : Table) (rows : List Document) : MemoryStore :=
  rows.foldl (fun s row => s.append t row) s

@[simp] theorem rows_appendAll (s : MemoryStore) (t u : Table) (rows : List Document) :
    (s.appendAll t rows).rows u = if u.name = t.name then s.rows u ++ rows else s.rows u := by
  induction rows generalizing s with
  | nil => simp [appendAll]
  | cons row rest ih =>
    have hrest := ih (s.append t row)
    rw [rows_append] at hrest
    split at hrest
    · next h => simpa [appendAll, h] using hrest
    · next h => simpa [appendAll, h] using hrest

/-- Why a row is refused: its key is no key, or it is taken. -/
inductive Refuses (s : MemoryStore) (t : Table) (row : Document) : Failure → Prop
  | kind (h : (t.keyOf row).all isKeyValue = false) : s.Refuses t row .wrongKind
  | taken {r : Document} (hr : r ∈ s.rows t)
      (h : Value.sameItems (t.keyOf r) (t.keyOf row) = true) :
      s.Refuses t row (.duplicateKey (t.keyDocument row))

variable {s s' : MemoryStore} {t : Table} {row : Document} {rows : List Document} {f : Failure}

theorem insert_cases (s : MemoryStore) (t : Table) (row : Document) :
    s.insert t row = .ok (s.append t row) ∨ ∃ f, s.insert t row = .error f ∧ s.Refuses t row f := by
  unfold insert
  by_cases hkind : (t.keyOf row).all isKeyValue = true
  · by_cases htaken : (s.rows t).any (fun r => Value.sameItems (t.keyOf r) (t.keyOf row)) = true
    · obtain ⟨r, hr, hsame⟩ := List.any_eq_true.mp htaken
      exact .inr ⟨_, by simp [hkind, htaken], .taken hr hsame⟩
    · exact .inl (by simp [hkind, htaken])
  · exact .inr ⟨_, by simp [hkind], .kind (by simpa using hkind)⟩

theorem insertAll_error (h : s.insertAll t rows = (s', .error f)) :
    ∃ kept row rest, rows = kept ++ row :: rest ∧ s' = s.appendAll t kept ∧
      s'.Refuses t row f := by
  induction rows generalizing s with
  | nil => cases h
  | cons row rest ih =>
    rw [insertAll] at h
    obtain hok | ⟨e, herror, hrefuses⟩ := insert_cases s t row
    · rw [hok] at h
      obtain ⟨kept, refused, more, rfl, hs, hrefuses⟩ := ih h
      exact ⟨row :: kept, refused, more, rfl, hs, hrefuses⟩
    · rw [herror] at h
      obtain ⟨rfl, he⟩ := Prod.mk.inj h
      obtain rfl := Except.error.inj he
      exact ⟨[], row, rest, rfl, rfl, hrefuses⟩

theorem run_insertAll_error (h : (access.insertAll t rows).run s = (.error f, s')) :
    s.insertAll t rows = (s', .error f) := by
  change ((s.insertAll t rows).2.map fun _ => rows, (s.insertAll t rows).1) = _ at h
  obtain ⟨hanswer, rfl⟩ := Prod.mk.inj h
  cases hresult : (s.insertAll t rows).2 with
  | error e =>
    rw [hresult] at hanswer
    obtain rfl := Except.error.inj hanswer
    exact Prod.ext rfl hresult
  | ok _ =>
    rw [hresult] at hanswer
    cases hanswer

end MemoryStore

section Refused

variable [Conversions]

theorem SqlStore.run_insertAll_error {s s' : SqlStore} {t : Table} {docs : List Document}
    {f : Failure} (h : (access.insertAll t docs).run s = (.error f, s')) : s' = s := by
  dsimp only [access, StateT.run] at h
  split at h
  · cases h
  · exact (Prod.mk.inj h).2.symm

/-- After a batch is refused, memory has the rows before the refused one in addition, and a database
is as it was. -/
theorem insertAll_refused (t : Table) (docs : List Document) :
    (∀ (s s' : MemoryStore) (f : Failure),
      (MemoryStore.access.insertAll t docs).run s = (.error f, s') →
        ∃ kept row rest, docs = kept ++ row :: rest ∧ s'.Refuses t row f ∧
          (∀ u, s'.rows u = if u.name = t.name then s.rows u ++ kept else s.rows u) ∧
          (s'.rows t = s.rows t ↔ kept = [])) ∧
    ∀ (s s' : SqlStore) (f : Failure),
      (SqlStore.access.insertAll t docs).run s = (.error f, s') → s' = s := by
  refine ⟨fun s s' f h => ?_, fun _ _ _ => SqlStore.run_insertAll_error⟩
  obtain ⟨kept, row, rest, hdocs, rfl, hrefuses⟩ :=
    MemoryStore.insertAll_error (MemoryStore.run_insertAll_error h)
  refine ⟨kept, row, rest, hdocs, hrefuses, fun u => s.rows_appendAll t u kept, ?_⟩
  rw [s.rows_appendAll t t kept, if_pos rfl, List.append_right_eq_self]

end Refused

def twins : List Document :=
  [[("id", .int 1), ("name", .text "Ann")], [("id", .int 1), ("name", .text "Bob")]]

theorem insertAll_refused_twins :
    (∃ f s', (MemoryStore.access.insertAll Table.people twins).run .empty = (.error f, s') ∧
      ∃ kept row rest, twins = kept ++ row :: rest ∧ s'.Refuses Table.people row f ∧
        (∀ u, s'.rows u =
          if u.name = Table.people.name then MemoryStore.empty.rows u ++ kept
          else MemoryStore.empty.rows u) ∧
        (s'.rows Table.people = MemoryStore.empty.rows Table.people ↔ kept = [])) ∧
    ∃ f s', (SqlStore.access.insertAll Table.people twins).run (SqlStore.empty.setup Table.people) =
        (.error f, s') ∧ s' = SqlStore.empty.setup Table.people := by
  have hmemory : (MemoryStore.access.insertAll Table.people twins).run .empty =
      (.error (.duplicateKey [("id", .int 1)]), ⟨[("people", twins.take 1)]⟩) := rfl
  have hsql : (SqlStore.access.insertAll Table.people twins).run
      (SqlStore.empty.setup Table.people) =
        (.error .integrity, SqlStore.empty.setup Table.people) := by
    rfl
  obtain ⟨hkept, hnone⟩ := insertAll_refused Table.people twins
  exact ⟨⟨_, _, hmemory, hkept _ _ _ hmemory⟩, ⟨_, _, hsql, hnone _ _ _ hsql⟩⟩

/-- The first of two rows with one key stays in memory when the second one is refused. -/
theorem not_insertAll_atomic :
    ¬((∀ (s s' : MemoryStore) (t : Table) (docs : List Document) (f : Failure),
        (MemoryStore.access.insertAll t docs).run s = (.error f, s') → s'.rows t = s.rows t) ∧
      ∀ (s s' : SqlStore) (t : Table) (docs : List Document) (f : Failure),
        (SqlStore.access.insertAll t docs).run s = (.error f, s') → s'.rows t = s.rows t) := by
  rintro ⟨hmemory, -⟩
  have hrows := hmemory .empty ⟨[("people", twins.take 1)]⟩ Table.people twins
    (.duplicateKey [("id", .int 1)]) rfl
  cases hrows

end DocGrid

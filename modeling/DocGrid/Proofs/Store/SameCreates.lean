import DocGrid.Proofs.Store.Complements
import DocGrid.Proofs.Store.Runs
import DocGrid.Proofs.Store.TypedRows
import Mathlib.Data.List.Perm.Basic

/-! The same insertions into memory and into a database. Both accept the same rows, and both hold
the same documents after each of them. -/

namespace DocGrid

variable {t : Table} {row : Document} {rows : List Document} {kept : List SqlRow}
  {m : MemoryStore} {s : SqlStore} {models : List Table} {entries : List (Table × Document)}

def taken (t : Table) (rows : List Document) (row : Document) : Bool :=
  rows.any fun r => Value.sameItems (t.keyOf r) (t.keyOf row)

theorem MemoryStore.run_insert_ok {m' : MemoryStore} (h : m.insert t row = .ok m') :
    (access.insert t row).run m = (.ok row, m') := by
  rw [run_insert, h]

theorem MemoryStore.run_insert_error {f : Failure} (h : m.insert t row = .error f) :
    (access.insert t row).run m = (.error f, m) := by
  rw [run_insert, h]

theorem mirrors_empty : MemoryStore.empty.Mirrors [] :=
  fun _ => rfl

namespace SqlStore

def Bare (s : SqlStore) : Prop :=
  ∀ t kept, s.rows t = .ok kept → kept = []

theorem Bare.rows_setup (h : s.Bare) (t u : Table) :
    (s.setup t).rows u = if t.name = u.name then .ok [] else s.rows u := by
  unfold setup
  split
  · next hsome =>
    obtain ⟨kept, hkept⟩ := Option.isSome_iff_exists.mp hsome
    have hrows : s.rows t = .ok kept := by rw [SqlStore.rows, hkept, Option.elim_some]
    split
    · next hname =>
      obtain rfl := h t kept hrows
      rwa [SqlStore.rows, ← hname]
    · rfl
  · exact rows_withRows s t u []

theorem Bare.setup (h : s.Bare) (t : Table) : (s.setup t).Bare := by
  intro u kept hkept
  rw [h.rows_setup] at hkept
  split at hkept
  · exact (Except.ok.inj hkept).symm
  · exact h u kept hkept

theorem Bare.rows_foldl_setup (h : s.Bare) (ht : t ∈ models ∨ s.rows t = .ok []) :
    (models.foldl SqlStore.setup s).rows t = .ok [] := by
  induction models generalizing s with
  | nil => exact ht.resolve_left List.not_mem_nil
  | cons first rest ih =>
    refine ih (h.setup first) ?_
    by_cases hname : first.name = t.name
    · exact .inr ((h.rows_setup first t).trans (if_pos hname))
    · rcases ht with ht | ht
      · refine .inl ((List.mem_cons.mp ht).resolve_left ?_)
        rintro rfl
        exact hname rfl
      · exact .inr (((h.rows_setup first t).trans (if_neg hname)).trans ht)

end SqlStore

section Creates

variable [Conversions]

/-- Rows of a database that keep the rows which a table has in memory. -/
structure Keeps (t : Table) (rows : List Document) (kept : List SqlRow) : Prop where
  fits : ∀ row ∈ rows, t.Fits row
  cells : (kept.map (·.cells)).Perm (rows.map t.cells)

/-- The database keeps the rows that are in memory. -/
def Alike (models : List Table) (m : MemoryStore) (s : SqlStore) : Prop :=
  ∀ t ∈ models, ∃ kept, s.rows t = .ok kept ∧ Keeps t (m.rows t) kept

theorem Keeps.length_eq (h : Keeps t rows kept) : kept.length = rows.length := by
  simpa using h.cells.length_eq

theorem Keeps.any_sameKey (h : Keeps t rows kept) (ht : t.WellMade) (hrow : t.Fits row) (n : Int) :
    kept.any (SqlStore.sameKey t ⟨n, t.cells row⟩) = taken t rows row := by
  let same (cells : List (String × Cell)) : Bool :=
    SqlStore.sameKey t ⟨n, t.cells row⟩ ⟨0, cells⟩
  calc kept.any (SqlStore.sameKey t ⟨n, t.cells row⟩)
      = (kept.map (·.cells)).any same := by
        rw [List.any_map]
        rfl
    _ = (rows.map t.cells).any same := h.cells.any_eq
    _ = taken t rows row := by
        rw [List.any_map, taken, Bool.eq_iff_iff, List.any_eq_true, List.any_eq_true]
        refine exists_congr fun r => and_congr_right fun hr => ?_
        have hsame : same (t.cells r) = Value.sameItems (t.keyOf r) (t.keyOf row) :=
          SqlStore.sameKey_cells ht hrow (h.fits r hr) n 0
        rw [Function.comp, hsame]

theorem Keeps.place (h : Keeps t rows kept) (hrow : t.Fits row) (n : Int) :
    Keeps t (rows ++ [row]) (SqlStore.place ⟨n, t.cells row⟩ kept) := by
  refine ⟨List.forall_mem_append.mpr ⟨h.fits, List.forall_mem_singleton.mpr hrow⟩, ?_⟩
  have hplaced := (SqlStore.place_perm ⟨n, t.cells row⟩ kept).map (·.cells)
  have hlast : (t.cells row :: rows.map t.cells).Perm ((rows ++ [row]).map t.cells) := by
    rw [List.map_append]
    exact (List.perm_append_singleton _ _).symm
  exact hplaced.trans ((h.cells.cons _).trans hlast)

/-- A database refuses a row exactly when its key is taken in memory. The number that it gives to
the row is of no account. -/
theorem Keeps.newRow (h : Keeps t rows kept) (ht : t.WellMade) (hrow : t.Fits row) :
    ∃ values n doc, SqlStore.converted t row = .ok values ∧
      SqlStore.loadRow t ⟨n, t.cells row⟩ = .ok doc ∧
      SqlStore.newRow t kept values =
        if taken t rows row then .error .integrity else .ok ⟨n, t.cells row⟩ := by
  obtain ⟨values, hvalues, hbound⟩ := SqlStore.bound_converted ht hrow
  obtain ⟨n, hnumbered⟩ := SqlStore.numbered_cells ht hrow kept
  obtain ⟨doc, hdoc, -⟩ := SqlStore.loadRow_cells ht hrow n
  refine ⟨values, n, doc, hvalues, hdoc, ?_⟩
  have hcells : (t.columns.map fun c => (c, c.type.cellOf (c.valueIn row))).map
      (fun e => (e.1.name, e.2)) = t.cells row := by
    rw [List.map_map]
    rfl
  have hlacks := SqlStore.not_lacksValue ht hrow n
  have hany := h.any_sameKey ht hrow n
  simp only [SqlStore.newRow, hbound, hcells, hnumbered, hlacks, hany, Bool.false_or,
    Result.ok_bind]
  cases taken t rows row <;> rfl

theorem Keeps.insertAll (h : Keeps t rows kept) (ht : t.WellMade) (hrow : t.Fits row)
    (hkept : s.rows t = .ok kept) :
    ∃ n doc, s.insertAll t [row] = if taken t rows row then .error .integrity
      else .ok (s.withRows t (SqlStore.place ⟨n, t.cells row⟩ kept), [doc]) := by
  obtain ⟨values, n, doc, hvalues, hdoc, hnew⟩ := h.newRow ht hrow
  refine ⟨n, doc, ?_⟩
  have hmany : [row].mapM (SqlStore.converted t) = .ok [values] := by
    simp [hvalues]
  by_cases htaken : taken t rows row = true
  · rw [if_pos htaken] at hnew ⊢
    simp [SqlStore.insertAll, hmany, hkept, SqlStore.addAll, hnew]
  · rw [if_neg htaken] at hnew ⊢
    have hloaded : [(⟨n, t.cells row⟩ : SqlRow)].mapM (SqlStore.loadRow t) = .ok [doc] := by
      simp [hdoc]
    simp [SqlStore.insertAll, hmany, hkept, SqlStore.addAll, hnew, hloaded]

theorem Table.Fits.isKeyValue (hrow : t.Fits row) (ht : t.WellMade) :
    (t.keyOf row).all MemoryStore.isKeyValue = true := by
  rw [Table.keyOf_eq, List.all_map, List.all_eq_true]
  intro c hc
  rw [Function.comp]
  rcases hrow.key ht hc with ⟨n, hn⟩ | ⟨s, hs⟩
  · rw [hn]
    rfl
  · rw [hs]
    rfl

theorem SqlStore.run_insert_ok {s' : SqlStore} {doc : Document}
    (h : s.insertAll t [row] = .ok (s', [doc])) :
    (access.insert t row).run s = (.ok doc, s') := by
  simp only [access, StateT.run, h]
  rfl

theorem SqlStore.run_insert_error {f : Failure} (h : s.insertAll t [row] = .error f) :
    (access.insert t row).run s = (.error f, s) := by
  simp only [access, StateT.run, h]

/-- Both stores accept a row, or both refuse it and stay as they are. -/
theorem Alike.insert (h : Alike models m s) (hmodels : ∀ t ∈ models, t ∈ Table.all)
    (ht : t ∈ models) (hrow : t.Fits row) :
    let a := (MemoryStore.access.insert t row).run m
    let b := (SqlStore.access.insert t row).run s
    a.1.isOk = b.1.isOk ∧ Alike models a.2 b.2 := by
  intro a b
  have hmade := Table.wellMade (hmodels t ht)
  obtain ⟨kept, hkept, hkeeps⟩ := h t ht
  obtain ⟨n, doc, hsql⟩ := hkeeps.insertAll hmade hrow hkept
  have hmemory : m.insert t row = if taken t (m.rows t) row then
      .error (.duplicateKey (t.keyDocument row)) else .ok (m.append t row) := by
    simp only [MemoryStore.insert, hrow.isKeyValue hmade, taken]
    rfl
  by_cases htaken : taken t (m.rows t) row = true
  · rw [if_pos htaken] at hmemory hsql
    have ha : a = (.error (.duplicateKey (t.keyDocument row)), m) :=
      MemoryStore.run_insert_error hmemory
    have hb : b = (.error .integrity, s) := SqlStore.run_insert_error hsql
    rw [ha, hb]
    exact ⟨rfl, h⟩
  · rw [if_neg htaken] at hmemory hsql
    have ha : a = (.ok row, m.append t row) := MemoryStore.run_insert_ok hmemory
    have hb : b = (.ok doc, s.withRows t (SqlStore.place ⟨n, t.cells row⟩ kept)) :=
      SqlStore.run_insert_ok hsql
    rw [ha, hb]
    refine ⟨rfl, fun u hu => ?_⟩
    rw [MemoryStore.rows_append, SqlStore.rows_withRows]
    -- Tables of other names are as they were.
    by_cases hname : t.name = u.name
    · obtain rfl := SqlStore.eq_of_name_eq (hmodels t ht) (hmodels u hu) hname
      rw [if_pos rfl, if_pos rfl]
      exact ⟨_, rfl, hkeeps.place hrow n⟩
    · rw [if_neg hname, if_neg (Ne.symm hname)]
      exact h u hu

def creates (entries : List (Table × Document)) : List Command :=
  entries.map fun e => .insert e.1 e.2

theorem Alike.performAll (h : Alike models m s) (hmodels : ∀ t ∈ models, t ∈ Table.all)
    (hentries : ∀ e ∈ entries, e.1 ∈ models ∧ e.1.Fits e.2) :
    let a := (Command.performAll MemoryStore.access (creates entries)).run m
    let b := (Command.performAll SqlStore.access (creates entries)).run s
    List.Forall₂ (fun x y => x.isOk = y.isOk) a.1 b.1 ∧ Alike models a.2 b.2 := by
  have hmap {α : Type} (x : Result α) : (x.map fun _ => ()).isOk = x.isOk := by cases x <;> rfl
  induction entries generalizing m s with
  | nil => exact ⟨.nil, h⟩
  | cons e rest ih =>
    obtain ⟨⟨ht, hrow⟩, hrest⟩ := List.forall_mem_cons.mp hentries
    obtain ⟨hanswer, hstep⟩ := h.insert hmodels ht hrow
    obtain ⟨hanswers, hlast⟩ := ih hstep hrest
    exact ⟨.cons ((hmap _).trans (hanswer.trans (hmap _).symm)) hanswers, hlast⟩

/-- Tables that have been set up are alike in stores without rows. -/
theorem alike_setup (models : List Table) :
    Alike models .empty (models.foldl SqlStore.setup .empty) := by
  intro t ht
  have hbare : SqlStore.empty.Bare := by
    intro u kept hkept
    cases hkept
  exact ⟨[], hbare.rows_foldl_setup (.inl ht), List.forall_mem_nil _, .refl _⟩

/-! Reading what is alike. -/

/-- A document is equal to a row with all of its fields. -/
def Table.Shows (t : Table) (row doc : Document) : Prop :=
  (Value.mapping (t.shownRow row)).same (.mapping doc) = true

/-- A document is equal to a row as the columns of a database give it back. -/
def Table.Returns (t : Table) (row doc : Document) : Prop :=
  (Value.mapping (t.returned row)).same (.mapping doc) = true

/-- A row comes back as it is unless a double stands in one of its JSON columns by itself. -/
theorem Table.returns_iff_shows {doc : Document} (h : ∀ c ∈ t.columns,
    c.type = .jsonList ∨ c.type = .jsonMapping → ∀ x, c.valueIn row ≠ .float x) :
    t.Returns row doc ↔ t.Shows row doc := by
  have hreturned : t.returned row = t.shownRow row := by
    refine List.map_congr_left fun c hc => congrArg (Prod.mk c.name) ?_
    rw [ColumnType.returned]
    split
    · next hjson => exact Value.reread_of_ne (h c hc hjson)
    · rfl
  rw [Returns, Shows, hreturned]

namespace SqlStore

/-- Rows are read in their order, with the cells that they were kept in. -/
theorem mapM_loadRow_cells (ht : t.WellMade) (hrows : ∀ row ∈ rows, t.Fits row)
    (h : kept.map (·.cells) = rows.map t.cells) :
    ∃ docs, kept.mapM (loadRow t) = .ok docs ∧ List.Forall₂ t.Returns rows docs := by
  induction rows generalizing kept with
  | nil =>
    obtain rfl := List.map_eq_nil_iff.mp h
    exact ⟨[], rfl, .nil⟩
  | cons row rest ih =>
    obtain ⟨hrow, hrest⟩ := List.forall_mem_cons.mp hrows
    obtain ⟨r, more, rfl, hcells, hmore⟩ := List.map_eq_cons_iff.mp h
    obtain ⟨doc, hdoc, hshows⟩ := loadRow_cells ht hrow r.rowId
    obtain ⟨docs, hdocs, hall⟩ := ih hrest hmore
    have hr : loadRow t r = .ok doc := by rwa [← hcells] at hdoc
    refine ⟨doc :: docs, ?_, .cons hshows hall⟩
    rw [List.mapM_cons, hr, hdocs]
    rfl

theorem selected_unfiltered {numbers : List Int} (hrows : s.rows t = .ok kept)
    (hfits : numbers.all Cell.fitsWord = true) : s.selected t (.constant true) numbers = .ok kept := by
  rw [selected_eq_handOver (p := fun _ => true) hrows (fun r _ => rfl) hfits, List.filter_true]
  rfl

theorem findRows_unfiltered {order : List String} {columns : List (Column × Direction)}
    {offset limit : Int} (hrows : s.rows t = .ok kept) (horder : orderOf t order = .ok columns)
    (hfits : [limit, offset].all Cell.fitsWord = true) :
    s.findRows t ⟨none, order, offset, limit⟩ =
      .ok (window ⟨none, order, offset, limit⟩ (sortRows columns (scan t columns kept))) := by
  have hcondition : conditionOf t none = .ok (.constant true) := rfl
  simp [findRows, hcondition, horder, selected_unfiltered hrows hfits]

theorem count_unfiltered (hrows : s.rows t = .ok kept) : s.count t none = .ok kept.length := by
  have hcondition : conditionOf t none = .ok (.constant true) := rfl
  have hfits : ([] : List Int).all Cell.fitsWord = true := rfl
  simp [count, hcondition, selected_unfiltered hrows hfits]

end SqlStore

/-- Both stores find the same documents, up to a relation and in orders of their own, and count them
alike. -/
def SameDocuments (equal : Document → Document → Prop) (m : MemoryStore) (s : SqlStore)
    (t : Table) : Prop :=
  (∃ found order loaded, m.find t .everything = .ok found ∧ s.find t .everything = .ok loaded ∧
    order.Perm found ∧ List.Forall₂ equal order loaded) ∧
  ∃ n, m.count t none = .ok n ∧ s.count t none = .ok n

/-- Rows in any order are the cells of documents in that order. -/
theorem Keeps.exists_order {sorted : List SqlRow} (h : Keeps t rows kept)
    (hsorted : sorted.Perm kept) : ∃ order : List Document, order.Perm rows ∧
      sorted.map (·.cells) = order.map t.cells := by
  have hcells : List.Forall₂ (fun cells row => cells = t.cells row) (rows.map t.cells) rows :=
    List.forall₂_map_left_iff.mpr (List.forall₂_same.mpr fun _ _ => rfl)
  obtain ⟨order, hsame, hperm⟩ := List.perm_comp_forall₂ ((hsorted.map (·.cells)).trans h.cells) hcells
  refine ⟨order, hperm, ?_⟩
  rw [← List.forall₂_eq_eq_eq]
  exact List.forall₂_map_right_iff.mpr hsame

theorem Keeps.sameDocuments (h : Keeps t (m.rows t) kept) (ht : t.WellMade)
    (hkept : s.rows t = .ok kept) : SameDocuments t.Returns m s t := by
  refine ⟨?_, (m.rows t).length, rfl, ?_⟩
  · obtain ⟨order, hperm, horder⟩ := h.exists_order (List.Perm.refl kept)
    obtain ⟨loaded, hloaded, hshows⟩ :=
      SqlStore.mapM_loadRow_cells ht (fun row hrow => h.fits row (hperm.mem_iff.mp hrow)) horder
    refine ⟨m.rows t, order, loaded, m.find_everything t, ?_, hperm, hshows⟩
    have hfound : s.findRows t .everything = .ok kept := by
      have hall : s.findRows t ⟨none, [], 0, 0⟩ =
          .ok (SqlStore.sortRows [] (SqlStore.scan t [] kept)) :=
        SqlStore.findRows_unfiltered hkept rfl rfl
      rwa [SqlStore.scan_nil, SqlStore.sortRows_nil] at hall
    rw [SqlStore.find, hfound]
    exact hloaded
  · rw [SqlStore.count_unfiltered hkept, h.length_eq]

theorem suits_creates (hmodels : ∀ t ∈ models, t ∈ Table.all)
    (hentries : ∀ e ∈ entries, e.1 ∈ models ∧ e.1.Fits e.2) :
    ∀ c ∈ creates entries, c.Suits models := by
  intro c hc e he
  obtain ⟨entry, hentry, rfl⟩ := List.mem_map.mp hc
  obtain rfl := List.mem_singleton.mp he
  obtain ⟨ht, hrow⟩ := hentries entry hentry
  exact ⟨ht, hrow.isKeyValue (Table.wellMade (hmodels _ ht))⟩

/-- Both stores answer insertions alike: a row is accepted by both, or it is refused by both because
its key is taken. After each insertion they hold the same documents, as many in one as in the other.
Only a double that stands in a JSON column by itself need not come back as it is: the database reads
it from its text. -/
theorem creates_agree (hmodels : ∀ t ∈ models, t ∈ Table.all)
    (hentries : ∀ e ∈ entries, e.1 ∈ models ∧ e.1.Fits e.2) :
    let cs := .setup models :: creates entries
    let a := (Command.performAll MemoryStore.access cs).run .empty
    let b := (Command.performAll SqlStore.access cs).run .empty
    List.Forall₂ (fun x y => x.isOk = y.isOk) a.1 b.1 ∧ a.1 = (Ledger.after [] cs).2 ∧
      ∀ t ∈ models, SameDocuments t.Returns a.2 b.2 t := by
  intro cs a b
  obtain ⟨hanswers, halike⟩ := (alike_setup models).performAll hmodels hentries
  obtain ⟨-, hledger⟩ := mirrors_empty.performAll (suits_creates hmodels hentries)
  refine ⟨.cons rfl hanswers, congrArg (Except.ok () :: ·) hledger, fun t ht => ?_⟩
  obtain ⟨kept, hkept, hkeeps⟩ := halike t ht
  exact hkeeps.sameDocuments (Table.wellMade (hmodels t ht)) hkept

end Creates

def leapMorning : DateTime :=
  ⟨⟨2024, 2, 29⟩, 9, 5, 0, 30, none⟩

theorem isNaive_leapMorning : leapMorning.IsNaive :=
  ⟨by decide, by decide, by decide, by decide, by decide, rfl⟩

/-- Ann with tags of her own, another row with her number, and an event with a point in time. -/
def firstEntries : List (Table × Document) :=
  [(.people, Table.people.row [("id", .int 1), ("name", .text "Ann"),
      ("tags", .list [.text "new", .int 2])]),
    (.people, Table.people.row [("id", .int 1), ("address", .null)]),
    (.events, Table.events.row [("id", .int 1), ("at", .datetime leapMorning)])]

theorem fits_firstEntries : ∀ e ∈ firstEntries, e.1.Fits e.2 := by
  have hempty : Value.IsJson (.list []) := .list (List.forall_mem_nil _)
  have hnone : Value.IsJson (.mapping []) := .mapping .nil (List.forall_mem_nil _)
  have htags : Value.IsJson (.list [.text "new", .int 2]) :=
    .list (List.forall_mem_cons.mpr ⟨.text _, List.forall_mem_singleton.mpr (.int (by decide))⟩)
  have hlist (items : List Value) : ∀ n, Value.list items = .int n → Cell.fitsWord n = true := by
    simp [Value.int]
  have hmapping (entries : Document) :
      ∀ n, Value.mapping entries = .int n → Cell.fitsWord n = true := by
    simp [Value.int]
  have hnull : ∀ n, Value.null = .int n → Cell.fitsWord n = true := by simp [Value.int]
  simp only [firstEntries, List.forall_mem_cons]
  refine ⟨?_, ?_, ?_, List.forall_mem_nil _⟩
  · simp only [Table.Fits, Table.people, List.forall_mem_cons]
    exact ⟨.inl (.int (by decide)), .inl (.text "Ann"), .inl (.text ""), .inl (.int (by decide)),
      .inl (.json (.inl rfl) htags (hlist _)), .inl (.json (.inr rfl) hnone (hmapping _)),
      List.forall_mem_nil _⟩
  · simp only [Table.Fits, Table.people, List.forall_mem_cons]
    exact ⟨.inl (.int (by decide)), .inl (.text ""), .inl (.text ""), .inl (.int (by decide)),
      .inl (.json (.inl rfl) hempty (hlist _)), .inl (.json (.inr rfl) .null hnull),
      List.forall_mem_nil _⟩
  · simp only [Table.Fits, Table.events, List.forall_mem_cons]
    exact ⟨.inl (.int (by decide)), .inr ⟨rfl, rfl, rfl⟩, .inl (.datetime isNaive_leapMorning),
      .inr ⟨rfl, rfl, rfl⟩, .inr ⟨rfl, rfl, rfl⟩, List.forall_mem_nil _⟩

theorem creates_agree_firstEntries :
    let cs := .setup [.people, .events] :: creates firstEntries
    let a := (Command.performAll MemoryStore.access cs).run .empty
    let b := (Command.performAll SqlStore.access cs).run .empty
    a.1.map (·.isOk) = [true, true, false, true] ∧
      List.Forall₂ (fun x y => x.isOk = y.isOk) a.1 b.1 ∧ a.1 = (Ledger.after [] cs).2 ∧
      SameDocuments Table.people.Returns a.2 b.2 .people ∧
      SameDocuments Table.events.Returns a.2 b.2 .events := by
  have hmodels : ∀ t ∈ [Table.people, .events], t ∈ Table.all := by simp [Table.all]
  have hentries : ∀ e ∈ firstEntries, e.1 ∈ [Table.people, .events] ∧ e.1.Fits e.2 :=
    fun e he => ⟨by simp [firstEntries] at he; rcases he with rfl | rfl | rfl <;> simp,
      fits_firstEntries e he⟩
  obtain ⟨hanswers, hledger, hsame⟩ := creates_agree hmodels hentries
  exact ⟨rfl, hanswers, hledger, hsame .people (by simp), hsame .events (by simp)⟩

/-- Not every double comes back as it is: the text of this one, 8.3e+26, is read as another. -/
def loneRow : Document :=
  Table.people.row [("id", .int 1), ("tags", .float (.ofRatio false (83 * 10 ^ 25) 1))]

theorem fits_loneRow : Table.people.Fits loneRow := by
  have hnone : Value.IsJson (.mapping []) := .mapping .nil (List.forall_mem_nil _)
  have hmapping : ∀ n, Value.mapping [] = .int n → Cell.fitsWord n = true := by simp [Value.int]
  have hdouble (x : Binary64) : ∀ n, Value.float x = .int n → Cell.fitsWord n = true := by
    simp [Value.float, Value.int]
  simp only [Table.Fits, Table.people, List.forall_mem_cons]
  exact ⟨.inl (.int (by decide)), .inl (.text ""), .inl (.text ""), .inl (.int (by decide)),
    .inl (.json (.inl rfl) (.float (Binary64.isNaN_ofRatio _ _ _)) (hdouble _)),
    .inl (.json (.inr rfl) hnone hmapping), List.forall_mem_nil _⟩

theorem find_loneRow :
    let cs := .setup [.people] :: creates [(.people, loneRow)]
    let m := ((Command.performAll MemoryStore.access cs).run .empty).2
    let s := ((Command.performAll SqlStore.access cs).run .empty).2
    ∀ sel ∈ [.everything, ⟨none, ["id"], 0, 0⟩], m.find .people sel = .ok [loneRow] ∧
      ∀ loaded, s.find .people sel = .ok loaded →
        ¬List.Forall₂ Table.people.Shows [loneRow] loaded := by
  intro cs m s
  have hkept : ∀ sel ∈ [.everything, ⟨none, ["id"], 0, 0⟩],
      m.find .people sel = .ok [loneRow] :=
    List.forall_mem_cons.mpr ⟨rfl, List.forall_mem_singleton.mpr (by with_unfolding_all rfl)⟩
  have hdiffers : ∀ sel ∈ [.everything, ⟨none, ["id"], 0, 0⟩],
      (s.find .people sel).toOption.map (List.map fun doc =>
        (Value.mapping (Table.people.shownRow loneRow)).same (.mapping doc)) = some [false] := by
    decide +kernel
  refine fun sel hsel => ⟨hkept sel hsel, fun loaded hloaded hshows => ?_⟩
  have hdiffers := hdiffers sel hsel
  rw [hloaded] at hdiffers
  cases hshows with
  | cons hdoc hnil =>
    cases hnil
    rw [Table.Shows] at hdoc
    simp [Except.toOption, hdoc] at hdiffers

theorem not_creates_agree_exactly : ¬∀ (models : List Table) (entries : List (Table × Document)),
    (∀ t ∈ models, t ∈ Table.all) → (∀ e ∈ entries, e.1 ∈ models ∧ e.1.Fits e.2) →
    let cs := .setup models :: creates entries
    let a := (Command.performAll MemoryStore.access cs).run .empty
    let b := (Command.performAll SqlStore.access cs).run .empty
    List.Forall₂ (fun x y => x.isOk = y.isOk) a.1 b.1 ∧
      ∀ t ∈ models, SameDocuments t.Shows a.2 b.2 t := by
  intro h
  have hmodels : ∀ t ∈ [Table.people], t ∈ Table.all := by simp [Table.all]
  have hentries : ∀ e ∈ [(Table.people, loneRow)], e.1 ∈ [Table.people] ∧ e.1.Fits e.2 := by
    simpa using fits_loneRow
  obtain ⟨hmemory, hdiffers⟩ := find_loneRow .everything List.mem_cons_self
  obtain ⟨⟨found, order, loaded, hfound, hloaded, horder, hshows⟩, -⟩ :=
    (h _ _ hmodels hentries).2 .people (List.mem_singleton_self _)
  obtain rfl := Except.ok.inj (hmemory.symm.trans hfound)
  obtain rfl := List.perm_singleton.mp horder
  exact hdiffers loaded hloaded hshows

end DocGrid

import DocGrid.Proofs.Results
import DocGrid.Proofs.Store.Fragment
import DocGrid.Store.Sql.Database

/-! Rows of typed columns with different numbers are all kept, each in the cells of its values. -/

namespace DocGrid

namespace Table

def numberOf (row : Document) : Int :=
  match row.get? "id" with
  | some (.number (.int n)) => n
  | _ => 0

def keptRow [Conversions] (t : Table) (row : Document) : SqlRow :=
  ⟨numberOf row, t.columns.map fun c => (c.name, c.type.kept ((row.get? c.name).getD .null))⟩

theorem cellIn_map {cs : List Column} {g : Column → Cell} (hnd : (cs.map (·.name)).Nodup)
    {c : Column} (hc : c ∈ cs) : SqlRow.cellIn c.name (cs.map fun d => (d.name, g d)) = g c := by
  induction cs with
  | nil => cases hc
  | cons d cs ih =>
    obtain ⟨hnot, hnd⟩ := List.nodup_cons.mp hnd
    rcases List.mem_cons.mp hc with rfl | hc
    · simp [SqlRow.cellIn]
    · have hne : d.name ≠ c.name := by
        intro he
        exact hnot (List.mem_map.mpr ⟨c, hc, he.symm⟩)
      simp only [List.map_cons, SqlRow.cellIn, hne, if_false]
      exact ih hnd hc

theorem items_nodup : (items.columns.map (·.name)).Nodup := by decide

theorem items_plain : ∀ c ∈ items.columns, '.' ∉ c.name.toList := by
  simp [items]

theorem items_nullable : ∀ c ∈ items.columns, c.nullable = true → c.isKey = false →
    c.type = .text ∧ c.default.getD .null = .null := by
  simp [items]

def itemRow (id : Int) (name : String) (age : Int) (score : Binary64) (active : Bool)
    (role : Option String) : Document :=
  [("id", .int id), ("name", .text name), ("age", .int age), ("score", .float score),
    ("active", .bool active), ("role", role.elim .null .text)]

theorem admits_itemRow {id age : Int} {score : Binary64} (hid : Cell.fitsWord id = true)
    (hage : Cell.fitsWord age = true) (hscore : score.isNaN = false) (name : String)
    (active : Bool) (role : Option String) :
    items.Admits (itemRow id name age score active role) := by
  constructor
  · intro c hc
    simp only [items, List.mem_cons, List.not_mem_nil, or_false] at hc
    rcases hc with rfl | rfl | rfl | rfl | rfl | rfl
    · exact ⟨.int id, rfl, .inl (.int hid)⟩
    · exact ⟨.text name, rfl, .inl (.text name)⟩
    · exact ⟨.int age, rfl, .inl (.int hage)⟩
    · exact ⟨.float score, rfl, .inl (.float hscore)⟩
    · exact ⟨.bool active, rfl, .inl (.bool active)⟩
    · cases role with
      | none => exact ⟨.null, rfl, .inr ⟨rfl, rfl, rfl⟩⟩
      | some role => exact ⟨.text role, rfl, .inl (.text role)⟩
  · intro name hname
    simp [items, column?] at hname
    simp [itemRow, hname]

theorem keptAs_keptRow [Conversions] (row : Document) : items.KeptAs row (items.keptRow row) := by
  intro c hc v hv
  have hcell := cellIn_map (g := fun d => d.type.kept ((row.get? d.name).getD .null)) items_nodup hc
  rw [hv] at hcell
  exact hcell

end Table

namespace SqlStore

open Table

variable {row : Document}

theorem columnValue_eq {c : Column} {v : Value} (hv : row.get? c.name = some v)
    (h : c.type.Holds v) : columnValue row c = v := by
  simp [columnValue, hv, h.not_null]

theorem bound_column (hrow : items.Admits row) {c : Column} (hc : c ∈ items.columns) :
    ∃ u, c.type.convert (columnValue row c) = .ok u ∧
      Cell.ofValue u = .ok ((row.get? c.name).getD .null).cell := by
  obtain ⟨v, hv, hkind⟩ := hrow.values c hc
  rw [hv, Option.getD_some]
  rcases hkind with hkind | ⟨hnullable, hkey, rfl⟩
  · rw [columnValue_eq hv hkind]
    exact hkind.convert
  · obtain ⟨htype, hdefault⟩ := items_nullable c hc hnullable hkey
    have hvalue : columnValue row c = .null := by
      simp [columnValue, hv, htype, hdefault]
    rw [hvalue, htype]
    exact ⟨.null, rfl, rfl⟩

theorem get?_id (hrow : items.Admits row) :
    row.get? "id" = some (.int (numberOf row)) := by
  obtain ⟨v, hv, hkind⟩ := hrow.values ⟨"id", .int, true, true, some .null⟩ (by simp [items])
  rcases hkind with hkind | ⟨-, hkey, -⟩
  · cases hkind with
    | int _ =>
      simp only [numberOf, hv]
      rfl
  · cases hkey

theorem place_perm (r : SqlRow) (kept : List SqlRow) : (place r kept).Perm (r :: kept) := by
  induction kept with
  | nil => exact List.Perm.refl _
  | cons first rest ih =>
    unfold place
    split
    · exact List.Perm.refl _
    · exact (ih.cons first).trans (List.Perm.swap r first rest)

theorem setup_cases (s : SqlStore) (t : Table) : s.setup t = s ∨ s.setup t = s.withRows t [] := by
  unfold SqlStore.setup
  split
  · exact .inl rfl
  · exact .inr rfl

variable [Conversions]

/-- The values of a row as the columns hand them over. -/
def Handed (row : Document) (values : List (Column × Value)) : Prop :=
  bound values = .ok (items.columns.map fun c =>
    (c, c.type.kept ((row.get? c.name).getD .null)))

theorem bound_of_forall {g : Column → Value} {cs : List Column} {values : List (Column × Value)}
    (h : List.Forall₂ (fun c e => e.1 = c ∧ Cell.ofValue e.2 = .ok (g c).cell) cs values) :
    bound values = .ok (cs.map fun c => (c, c.type.kept (g c))) := by
  induction h with
  | nil => rfl
  | @cons c e cs values he _ ih =>
    obtain ⟨d, u⟩ := e
    obtain ⟨rfl, hcell⟩ := he
    have hstep : (do return (d, Cell.stored d.type.affinity (← Cell.ofValue u)) :
        Result (Column × Cell)) = .ok (d, d.type.kept (g d)) := by
      rw [hcell]
      rfl
    rw [bound, List.mapM_cons, ← bound, ih]
    simp only [hstep]
    rfl

theorem converted_of_admits (hrow : items.Admits row) :
    ∃ values, converted items row = .ok values ∧ Handed row values := by
  have hstep : ∀ c ∈ items.columns, ∃ e : Column × Value,
      (do return (c, ← c.type.convert (columnValue row c)) : Result (Column × Value)) = .ok e ∧
        e.1 = c ∧ Cell.ofValue e.2 = .ok ((row.get? c.name).getD .null).cell := by
    intro c hc
    obtain ⟨u, hu, hcell⟩ := bound_column hrow hc
    exact ⟨(c, u), by rw [hu]; rfl, rfl, hcell⟩
  obtain ⟨values, hvalues, hall⟩ := Result.mapM_forall hstep
  exact ⟨values, hvalues, bound_of_forall hall⟩

theorem lacksValue_keptRow (hrow : items.Admits row) :
    items.columns.any (lacksValue (items.keptRow row)) = false := by
  refine List.any_eq_false.mpr fun c hc => ?_
  obtain ⟨v, hv, hkind⟩ := hrow.values c hc
  rw [lacksValue, keptAs_keptRow row c hc v hv]
  rcases hkind with hkind | ⟨hnullable, -, -⟩
  · simpa using fun _ => hkind.kept_ne_null
  · simp [hnullable]

theorem cell_id (hrow : items.Admits row) :
    (items.keptRow row).cell "id" = .int (numberOf row) := by
  have hid := keptAs_keptRow row ⟨"id", .int, true, true, some .null⟩ (by simp [items]) _
    (get?_id hrow)
  exact hid

theorem sameKey_keptRow {other : Document} (hrow : items.Admits row) (hother : items.Admits other)
    (hne : numberOf row ≠ numberOf other) :
    sameKey items (items.keptRow row) (items.keptRow other) = false := by
  have hkeys : items.keyNames = ["id"] := rfl
  have hcompare : (Cell.int (numberOf row)).compare? (.int (numberOf other)) ≠ some .eq := by
    intro he
    have horder : (Quantity.ofInt (numberOf row)).order (.ofInt (numberOf other)) = .eq :=
      Option.some.inj ((Cell.compare?_eq rfl rfl).symm.trans he)
    have heq := Quantity.isEq_order (.ofInt (numberOf row)) (.ofInt (numberOf other))
    rw [horder] at heq
    have hexact := Quantity.exact.inj (of_decide_eq_true heq.symm)
    exact hne (Rat.intCast_inj.mp hexact)
  simp [sameKey, hkeys, cell_id hrow, cell_id hother, hcompare]

theorem numbered_eq (hrow : items.Admits row) (kept : List SqlRow) :
    numbered items kept (items.keptRow row).cells = .ok (items.keptRow row) := by
  have hcell : SqlRow.cellIn "id" (items.keptRow row).cells = .int (numberOf row) := cell_id hrow
  have hkey : numbering? items = some ⟨"id", .int, true, true, some .null⟩ := rfl
  simp only [numbered, hkey, hcell]
  rfl

theorem newRow_eq (hrow : items.Admits row) {values : List (Column × Value)}
    (hv : Handed row values) {kept : List SqlRow}
    (hkept : ∀ r ∈ kept, sameKey items (items.keptRow row) r = false) :
    newRow items kept values = .ok (items.keptRow row) := by
  have hcells : (items.columns.map fun c =>
      (c, c.type.kept ((row.get? c.name).getD .null))).map (fun e => (e.1.name, e.2)) =
        (items.keptRow row).cells := by
    rw [List.map_map]
    rfl
  have hsame : kept.any (sameKey items (items.keptRow row)) = false :=
    List.any_eq_false.mpr fun r hr => by simp [hkept r hr]
  have hlacks := lacksValue_keptRow hrow
  have hv' : bound values = .ok _ := hv
  simp only [newRow, hv', hcells, numbered_eq hrow, hsame, hlacks, Result.ok_bind]
  rfl

/-- The rows that a batch leaves were kept before it, or they are of its own making. -/
theorem mem_addAll {t : Table} {rows all added : List SqlRow}
    {values : List (List (Column × Value))} (h : addAll t rows values = .ok (all, added)) :
    ∀ r ∈ all, r ∈ rows ∨ r ∈ added ∧ ∃ kept row, newRow t kept row = .ok r := by
  induction values generalizing rows all added with
  | nil =>
    cases h
    exact fun r hr => .inl hr
  | cons first rest ih =>
    obtain ⟨row, hrow, h⟩ := Result.ok_of_bind h
    obtain ⟨⟨all', added'⟩, hrest, h⟩ := Result.ok_of_bind h
    cases h
    intro r hr
    rcases ih hrest r hr with hr | ⟨hadded, hnew⟩
    · rcases List.mem_cons.mp ((place_perm _ _).mem_iff.mp hr) with rfl | hr
      · exact .inr ⟨List.mem_cons_self, rows, first, hrow⟩
      · exact .inl hr
    · exact .inr ⟨List.mem_cons_of_mem _ hadded, hnew⟩

/-- A batch changes one table at most. Its own rows were made for the table and can be read back
from it. -/
theorem insertAll_cases {s s' : SqlStore} {t : Table} {docs answers : List Document}
    (h : s.insertAll t docs = .ok (s', answers)) : s' = s ∨
      ∃ kept all, s.rows t = .ok kept ∧ s' = s.withRows t all ∧
        ∀ r ∈ all, r ∈ kept ∨
          (∃ doc, loadRow t r = .ok doc) ∧ ∃ kept row, newRow t kept row = .ok r := by
  unfold SqlStore.insertAll at h
  split at h
  · cases h
    exact .inl rfl
  · obtain ⟨values, -, h⟩ := Result.ok_of_bind h
    obtain ⟨kept, hkept, h⟩ := Result.ok_of_bind h
    obtain ⟨⟨all, added⟩, hall, h⟩ := Result.ok_of_bind h
    obtain ⟨loaded, hloaded, h⟩ := Result.ok_of_bind h
    cases h
    refine .inr ⟨kept, all, hkept, rfl, fun r hr => ?_⟩
    exact (mem_addAll hall r hr).imp_right (And.imp_left (Result.ok_of_mapM hloaded r))

/-- Rows with numbers of their own are all added to those that are kept. -/
theorem addAll_eq {rows : List Document} {values : List (List (Column × Value))}
    (hv : List.Forall₂ Handed rows values) (hrows : ∀ row ∈ rows, items.Admits row)
    (hnd : (rows.map numberOf).Nodup) (kept : List SqlRow)
    (hkept : ∀ row ∈ rows, ∀ r ∈ kept, sameKey items (items.keptRow row) r = false) :
    ∃ all, addAll items kept values = .ok (all, rows.map items.keptRow) ∧
      all.Perm (rows.map items.keptRow ++ kept) := by
  -- The rows to come have keys that are neither kept nor placed before their turn.
  induction hv generalizing kept with
  | nil => exact ⟨kept, rfl, List.Perm.refl _⟩
  | @cons row vs rows values hvs _ ih =>
    obtain ⟨hnot, hnd⟩ := List.nodup_cons.mp hnd
    have hrow := hrows row (by simp)
    have hnew := newRow_eq hrow hvs (hkept row (by simp))
    have hplaced : ∀ other ∈ rows, ∀ r ∈ place (items.keptRow row) kept,
        sameKey items (items.keptRow other) r = false := by
      intro other hother r hr
      rcases List.mem_cons.mp ((place_perm _ _).mem_iff.mp hr) with rfl | hr
      · have hne : numberOf other ≠ numberOf row := by
          intro he
          exact hnot (List.mem_map.mpr ⟨other, hother, he⟩)
        exact sameKey_keptRow (hrows other (List.mem_cons_of_mem _ hother)) hrow hne
      · exact hkept other (List.mem_cons_of_mem _ hother) r hr
    obtain ⟨all, hall, hperm⟩ := ih (fun other ho => hrows other (List.mem_cons_of_mem _ ho)) hnd
      _ hplaced
    refine ⟨all, ?_, hperm.trans ?_⟩
    · simp [addAll, hnew, hall]
    · exact ((place_perm _ _).append_left _).trans List.perm_middle

theorem load_kept (type : ColumnType) {v : Value} (h : type.Holds v ∨ v = .null) :
    ∃ u, type.load (type.kept v) = .ok u := by
  rcases h with h | rfl
  · cases h <;> exact ⟨_, rfl⟩
  · rw [ColumnType.kept_null]
    cases type <;> exact ⟨_, rfl⟩

theorem loadRow_keptRow (hrow : items.Admits row) : ∃ doc,
    loadRow items (items.keptRow row) = .ok doc ∧
      doc.get? "id" = some (.int (numberOf row)) := by
  have hstep : ∀ c ∈ items.columns, ∃ e : String × Value,
      (do return (c.name, ← c.type.load ((items.keptRow row).cell c.name)) :
        Result (String × Value)) = .ok e ∧
        e.1 = c.name ∧ (c.name = "id" → c.type = .int → e.2 = .int (numberOf row)) := by
    intro c hc
    obtain ⟨v, hv, hkind⟩ := hrow.values c hc
    obtain ⟨u, hu⟩ := load_kept c.type (hkind.imp_right fun h => h.2.2)
    refine ⟨(c.name, u), ?_, rfl, fun hname htype => ?_⟩
    · rw [keptAs_keptRow row c hc v hv, hu]
      rfl
    · have hcell := keptAs_keptRow row c hc v hv
      rw [hname, cell_id hrow] at hcell
      rw [← hcell, htype] at hu
      exact (Except.ok.inj hu).symm
  obtain ⟨doc, hdoc, hall⟩ := Result.mapM_forall hstep
  refine ⟨doc, hdoc, ?_⟩
  obtain ⟨e, rest, ⟨hname, hvalue⟩, -, rfl⟩ := List.forall₂_cons_left_iff.mp hall
  obtain ⟨key, u⟩ := e
  simp only at hname hvalue
  simp [hname, hvalue]

theorem insertAll_eq {rows : List Document} (hrows : ∀ row ∈ rows, items.Admits row)
    (hnd : (rows.map numberOf).Nodup) : ∃ s added kept,
      (empty.setup items).insertAll items rows = .ok (s, added) ∧
      s.rows items = .ok kept ∧ kept.Perm (rows.map items.keptRow) := by
  have hstart : (empty.setup items).rows items = .ok [] := rfl
  by_cases hempty : rows.isEmpty = true
  · refine ⟨empty.setup items, [], [], ?_, hstart, ?_⟩
    · simp only [insertAll, hempty, if_true]
      rfl
    · rw [List.isEmpty_iff.mp hempty]
      exact List.Perm.refl _
  · obtain ⟨values, hvalues, hhanded⟩ := Result.mapM_forall fun row hrow =>
      converted_of_admits (hrows row hrow)
    obtain ⟨all, hall, hperm⟩ := addAll_eq hhanded hrows hnd [] (by simp)
    have hload : ∀ r ∈ rows.map items.keptRow, ∃ doc, loadRow items r = .ok doc := by
      intro r hr
      obtain ⟨row, hrow, rfl⟩ := List.mem_map.mp hr
      obtain ⟨doc, hdoc, -⟩ := loadRow_keptRow (hrows row hrow)
      exact ⟨doc, hdoc⟩
    obtain ⟨added, hadded⟩ := Result.mapM_exists hload
    refine ⟨(empty.setup items).withRows items all, added, all, ?_, ?_, by simpa using hperm⟩
    · simp [insertAll, hempty, hvalues, hstart, hall, hadded]
    · rfl

end SqlStore

end DocGrid

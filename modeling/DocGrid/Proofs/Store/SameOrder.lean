import DocGrid.Proofs.Store.CellOrder
import DocGrid.Proofs.Store.RowOrder
import DocGrid.Proofs.Store.SameCreates
import Mathlib.Data.List.Pairwise

/-! The same order in memory and in a database. With all key columns in it no two rows are tied, so
that both stores have the rows in one order, and the same pages of it. -/

namespace DocGrid

def orderEntry (e : Column × Direction) : String :=
  SortSpec.entryText (e.1.name, e.2)

/-- Columns that put the rows of a table in order: no JSON columns, and all key columns. -/
structure Table.Orders (t : Table) (columns : List (Column × Direction)) : Prop where
  scalar : ∀ e ∈ columns, e.1 ∈ t.columns ∧ e.1.type.IsScalar
  keys : ∀ c ∈ t.keyColumns, ∃ direction, (c, direction) ∈ columns

variable {t : Table} {columns : List (Column × Direction)} {c : Column} {direction : Direction}
  {a b row : Document} {rows : List Document} {kept : List SqlRow}

theorem readEntry_orderEntry (ht : t.WellMade) (hc : c ∈ t.columns) :
    SortSpec.readEntry (orderEntry (c, direction)) = (c.name, direction) :=
  readEntry_entryText (fun h => (ht.plain c hc).2 (List.mem_of_mem_head? h)) direction

theorem keyAt_orderEntry (ht : t.WellMade) (hc : c ∈ t.columns) (row : Document) :
    MemoryStore.keyAt (orderEntry (c, direction)) row = (c.valueIn row).sortKey := by
  have hresolve : row.resolve c.name = row.get? c.name :=
    Document.resolve_of_notMem (ht.plain c hc).1 row
  rw [MemoryStore.keyAt, readEntry_orderEntry ht hc, hresolve]
  rfl

theorem column?_of_mem {cs : List Column} (hnames : (cs.map (·.name)).Nodup) (hc : c ∈ cs) :
    cs.find? (fun d => d.name == c.name) = some c := by
  induction cs with
  | nil => cases hc
  | cons d rest ih =>
    obtain ⟨hnot, hrest⟩ := List.nodup_cons.mp hnames
    rcases List.mem_cons.mp hc with rfl | hc
    · simp
    · have hne : (d.name == c.name) = false := by
        rw [beq_eq_false_iff_ne]
        exact fun heq => hnot (List.mem_map.mpr ⟨c, hc, heq.symm⟩)
      rw [List.find?_cons, hne]
      exact ih hrest hc

theorem SqlStore.orderOf_orderEntry (ht : t.WellMade) (hcolumns : ∀ e ∈ columns, e.1 ∈ t.columns) :
    orderOf t (columns.map orderEntry) = .ok columns := by
  induction columns with
  | nil => rfl
  | cons e rest ih =>
    obtain ⟨hfirst, hrest⟩ := List.forall_mem_cons.mp hcolumns
    have hcolumn : t.column? e.1.name = some e.1 := column?_of_mem ht.names hfirst
    rw [List.map_cons, orderOf, List.mapM_cons, readEntry_orderEntry ht hfirst]
    simp only [hcolumn]
    exact congrArg (fun r => r.bind fun more => .ok (e :: more)) (ih hrest)

/-! Pages of sorted rows. -/

/-- The items after an offset, as many as the limit allows. -/
def paged {α : Type} (offset limit : Int) (xs : List α) : List α :=
  let rest := xs.drop offset.toNat
  if 0 < limit then rest.take limit.toNat else rest

@[simp] theorem map_paged {α β : Type} (f : α → β) (offset limit : Int) (xs : List α) :
    (paged offset limit xs).map f = paged offset limit (xs.map f) := by
  unfold paged
  split <;> simp [List.map_drop, List.map_take]

theorem mem_of_mem_paged {α : Type} {offset limit : Int} {xs : List α} {x : α}
    (h : x ∈ paged offset limit xs) : x ∈ xs := by
  unfold paged at h
  split_ifs at h
  · exact List.mem_of_mem_drop (List.mem_of_mem_take h)
  · exact List.mem_of_mem_drop h

theorem MemoryStore.find_paged {m : MemoryStore} {order : List String} {sorted : List Document}
    {offset limit : Int} (h : ordered (m.rows t) order = .ok sorted) (hoffset : 0 ≤ offset)
    (hlimit : 0 ≤ limit) :
    m.find t ⟨none, order, offset, limit⟩ = .ok (paged offset limit sorted) := by
  have hdrop : (if offset = 0 then sorted else dropCount offset sorted) =
      sorted.drop offset.toNat := by
    split
    · next hzero => rw [hzero]; rfl
    · exact if_neg (by omega)
  have htake (rows : List Document) : (if limit = 0 then rows else takeCount limit rows) =
      if 0 < limit then rows.take limit.toNat else rows := by
    by_cases hzero : limit = 0
    · rw [if_pos hzero, if_neg (by omega)]
    · rw [if_neg hzero, if_pos (by omega)]
      exact if_neg (by omega)
  simp only [find, matching, h, hdrop, htake, Result.ok_bind]
  rfl

theorem SqlStore.scan_perm (t : Table) (columns : List (Column × Direction))
    (kept : List SqlRow) : (scan t columns kept).Perm kept := by
  unfold scan
  split
  · split
    · exact List.mergeSort_perm _ _
    · exact .refl _
  · exact .refl _

/-- The numbers of rows do not count. -/
theorem SqlStore.before_congr {r q r' q' : SqlRow} (hr : r.cells = r'.cells)
    (hq : q.cells = q'.cells) : before columns r q = before columns r' q' := by
  have hcell (name : String) : r.cell name = r'.cell name := congrArg (SqlRow.cellIn name) hr
  have hcell' (name : String) : q.cell name = q'.cell name := congrArg (SqlRow.cellIn name) hq
  induction columns with
  | nil => rfl
  | cons e rest ih =>
    unfold before
    rw [ih, hcell, hcell']

/-! How two rows stand to each other in both stores. -/

theorem Column.Fits.proper {v : Value} (h : c.Fits v) (htype : c.type.IsScalar) :
    SortKey.Proper v.sortKey.numbers := by
  have hnone : SortKey.Proper [] := nofun
  rcases h.elim with h | ⟨rfl, -⟩
  · have hnot : ¬(c.type = .jsonList ∨ c.type = .jsonMapping) := not_or.mpr htype
    generalize c.type = type at h hnot
    cases h with
    | json hjson => exact absurd hjson hnot
    | int hn => exact SortKey.proper_singleton.mpr ⟨_, rfl⟩
    | float hx => exact SortKey.proper_singleton.mpr (Quantity.ofBinary64_isSome hx)
    | _ => exact hnone
  · exact hnone

section Verdicts

variable (ht : t.WellMade) (hcolumns : ∀ e ∈ columns, e.1 ∈ t.columns ∧ e.1.type.IsScalar)

include ht hcolumns

theorem proper_keyAt (hrow : t.Fits row) :
    ∀ entry ∈ columns.map orderEntry, SortKey.Proper (MemoryStore.keyAt entry row).numbers := by
  intro entry hentry
  obtain ⟨⟨c, direction⟩, he, rfl⟩ := List.mem_map.mp hentry
  obtain ⟨hc, htype⟩ := hcolumns _ he
  rw [keyAt_orderEntry ht hc]
  exact (hrow c hc).proper htype

variable [Conversions]

theorem compare?_keyAt_isSome (ha : t.Fits a) (hb : t.Fits b) : ∀ entry ∈ columns.map orderEntry,
    (SortKey.compare? (MemoryStore.keyAt entry a) (MemoryStore.keyAt entry b)).isSome := by
  intro entry hentry
  obtain ⟨⟨c, direction⟩, he, rfl⟩ := List.mem_map.mp hentry
  obtain ⟨hc, htype⟩ := hcolumns _ he
  obtain ⟨o, ho, -⟩ := (ha c hc).ranks (hb c hc) htype
  rw [keyAt_orderEntry ht hc, keyAt_orderEntry ht hc, ho]
  rfl

/-- A database has one row before another when memory does. -/
theorem before_cells (ha : t.Fits a) (hb : t.Fits b) (n m : Int) :
    SqlStore.before columns ⟨n, t.cells a⟩ ⟨m, t.cells b⟩ =
      (MemoryStore.orderVerdict (columns.map orderEntry) a b).isLE := by
  induction columns with
  | nil => rfl
  | cons e rest ih =>
    obtain ⟨⟨hc, htype⟩, hrest⟩ := List.forall_mem_cons.mp hcolumns
    obtain ⟨c, direction⟩ := e
    obtain ⟨o, ho, hle⟩ := (ha c hc).ranks (hb c hc) htype
    obtain ⟨o', ho', hge⟩ := (hb c hc).ranks (ha c hc) htype
    obtain rfl : o' = o.swap := by
      rw [SortKey.compare?_swap (c.valueIn a).sortKey, ho] at ho'
      exact (Option.some.inj ho').symm
    rw [List.map_cons, MemoryStore.orderVerdict, readEntry_orderEntry ht hc]
    simp only [SqlStore.before, SqlStore.cell_cells ht hc, hle, hge, ih hrest, keyVerdict,
      keyAt_orderEntry ht hc, ho, ho']
    cases direction <;> cases o <;> rfl

/-- Rows of a database are put in the order that their documents have in memory. -/
theorem pairwise_sortRows (hkept : ∀ r ∈ kept, ∃ row, t.Fits row ∧ r.cells = t.cells row) :
    (SqlStore.sortRows columns kept).Pairwise
      fun r q => SqlStore.before columns r q = true := by
  have hbefore {r q : SqlRow} {a b : Document} (ha : t.Fits a) (hb : t.Fits b)
      (hr : r.cells = t.cells a) (hq : q.cells = t.cells b) : SqlStore.before columns r q =
        (MemoryStore.orderVerdict (columns.map orderEntry) a b).isLE := by
    have hall := before_cells ht hcolumns ha hb r.rowId q.rowId
    rwa [← hr, ← hq] at hall
  refine pairwise_mergeSort_of_mem (fun r hr q hq p hp hrq hqp => ?_) fun r hr q hq => ?_
  · obtain ⟨a, ha, hra⟩ := hkept r hr
    obtain ⟨b, hb, hqb⟩ := hkept q hq
    obtain ⟨c, hc, hpc⟩ := hkept p hp
    rw [hbefore ha hb hra hqb] at hrq
    rw [hbefore hb hc hqb hpc] at hqp
    rw [hbefore ha hc hra hpc]
    have hproper (row : Document) (hrow : t.Fits row) := proper_keyAt ht hcolumns hrow
    refine (MemoryStore.orderVerdict_chains fun entry he => ?_).isLE_trans hrq hqp
    simp only [List.forall_mem_cons]
    exact ⟨hproper a ha entry he, hproper b hb entry he, hproper c hc entry he,
      List.forall_mem_nil _⟩
  · obtain ⟨a, ha, hra⟩ := hkept r hr
    obtain ⟨b, hb, hqb⟩ := hkept q hq
    rw [hbefore ha hb hra hqb, hbefore hb ha hqb hra, MemoryStore.orderVerdict_swap _ a b]
    exact Verdict.isLE_or_isLE_swap
      (MemoryStore.orderVerdict_isSome (compare?_keyAt_isSome ht hcolumns ha hb))

end Verdicts

/-! Rows that an order by all key columns does not tell apart. -/

section Finds

variable [Conversions] {m : MemoryStore} {s : SqlStore} {offset limit : Int}

theorem valueIn_eq_of_tied (ht : t.WellMade) (horders : t.Orders columns) (ha : t.Fits a)
    (hb : t.Fits b)
    (htied : MemoryStore.orderVerdict (columns.map orderEntry) a b = some .eq) :
    ∀ c ∈ t.keyColumns, c.valueIn a = c.valueIn b := by
  intro c hc
  obtain ⟨direction, he⟩ := horders.keys c hc
  have hkeys := MemoryStore.orderVerdict_eq_iff.mp htied _ (List.mem_map_of_mem he)
  obtain ⟨hc, hkey⟩ := List.mem_filter.mp hc
  rw [keyAt_orderEntry ht hc, keyAt_orderEntry ht hc] at hkeys
  rcases ht.keys c hc hkey with htype | htype
  · obtain ⟨n, hn, -⟩ := (ha c hc).key_int hkey htype
    obtain ⟨m, hm, -⟩ := (hb c hc).key_int hkey htype
    rw [hn, hm] at hkeys ⊢
    have hwithin : SortKey.within (.number (.int n)) (.number (.int m)) =
        some ((Quantity.ofInt n).order (.ofInt m)) := SortKey.within_numbers rfl rfl
    have horder := Option.some.inj (hwithin.symm.trans hkeys)
    have hexact := Quantity.exact.inj (Std.LawfulEqCmp.eq_of_compare horder)
    exact congrArg Value.int (Rat.intCast_inj.mp hexact)
  · obtain ⟨s, hs, -⟩ := (ha c hc).key_text hkey htype
    obtain ⟨u, hu, -⟩ := (hb c hc).key_text hkey htype
    rw [hs, hu] at hkeys ⊢
    exact congrArg Value.text (Std.LawfulEqCmp.compare_eq_iff_eq.mp (Option.some.inj hkeys))

theorem sameItems_keyOf (ht : t.WellMade) (ha : t.Fits a)
    (h : ∀ c ∈ t.keyColumns, c.valueIn a = c.valueIn b) :
    Value.sameItems (t.keyOf a) (t.keyOf b) = true := by
  have hkeys : t.keyOf a = t.keyOf b := by
    rw [Table.keyOf_eq, Table.keyOf_eq]
    exact List.map_congr_left h
  rw [← hkeys]
  refine Value.sameItems_self fun v hv => ?_
  rw [Table.keyOf_eq] at hv
  obtain ⟨c, hc, rfl⟩ := List.mem_map.mp hv
  rcases ha.key ht hc with ⟨n, hn⟩ | ⟨s, hs⟩
  · rw [hn]
    exact Value.same_int n
  · rw [hs]
    exact beq_self_eq_true s

def Table.Apart (t : Table) (rows : List Document) : Prop :=
  rows.Pairwise fun a b => Value.sameItems (t.keyOf a) (t.keyOf b) = false

theorem Table.Apart.eq_of_tied (h : t.Apart rows) (ht : t.WellMade) (horders : t.Orders columns)
    (hrows : ∀ row ∈ rows, t.Fits row) (ha : a ∈ rows) (hb : b ∈ rows)
    (htied : MemoryStore.orderVerdict (columns.map orderEntry) a b = some .eq) : a = b := by
  -- That keys are not the same is said of the earlier row and the later one; this is symmetric.
  let R (a b : Document) : Prop := ¬∀ c ∈ t.keyColumns, c.valueIn a = c.valueIn b
  have hsymm : Std.Symm R := ⟨fun a b hab hba => hab fun c hc => (hba c hc).symm⟩
  have hpairs : rows.Pairwise R := by
    refine List.Pairwise.imp_of_mem (fun {a b} ha hb hab heq => ?_) h
    exact Bool.false_ne_true (hab.symm.trans (sameItems_keyOf ht (hrows a ha) heq))
  by_contra hne
  exact hpairs.forall ha hb hne (valueIn_eq_of_tied ht horders (hrows a ha) (hrows b hb) htied)

/-- The documents of the sorted rows are in the order that they have in memory. -/
theorem Keeps.ascending_sortRows {sorted : List Document} (h : Keeps t rows kept) (ht : t.WellMade)
    (hcolumns : ∀ e ∈ columns, e.1 ∈ t.columns ∧ e.1.type.IsScalar) (hperm : sorted.Perm rows)
    (hcells : (SqlStore.sortRows columns (SqlStore.scan t columns kept)).map (·.cells) =
      sorted.map t.cells) : sorted.Pairwise fun a b =>
        (MemoryStore.orderVerdict (columns.map orderEntry) a b).isLE = true := by
  have hrows := pairwise_sortRows ht hcolumns fun r hr => by
    have hr := (SqlStore.scan_perm t columns kept).mem_iff.mp hr
    obtain ⟨row, hrow, hsame⟩ := List.mem_map.mp (h.cells.mem_iff.mp (List.mem_map_of_mem hr))
    exact ⟨row, h.fits row hrow, hsame.symm⟩
  have hpairs : ((SqlStore.sortRows columns (SqlStore.scan t columns kept)).map
      (·.cells)).Pairwise fun x y => SqlStore.before columns ⟨0, x⟩ ⟨0, y⟩ = true := by
    refine List.pairwise_map.mpr (hrows.imp fun {r q} hrq => ?_)
    rw [← hrq]
    exact SqlStore.before_congr rfl rfl
  rw [hcells, List.pairwise_map] at hpairs
  refine hpairs.imp_of_mem fun {a b} ha hb hab => ?_
  rwa [before_cells ht hcolumns (h.fits a (hperm.mem_iff.mp ha))
    (h.fits b (hperm.mem_iff.mp hb))] at hab

/-- Both stores have the rows in one order. -/
theorem Keeps.map_sortRows (h : Keeps t rows kept) (ht : t.WellMade) (horders : t.Orders columns)
    (hapart : t.Apart rows) : ∃ sorted,
      MemoryStore.ordered rows (columns.map orderEntry) = .ok sorted ∧
      IsStableSort (MemoryStore.orderVerdict (columns.map orderEntry)) rows sorted ∧
      (SqlStore.sortRows columns (SqlStore.scan t columns kept)).map (·.cells) =
        sorted.map t.cells := by
  obtain ⟨sorted, hsorted⟩ := MemoryStore.ordered_isOk fun entry he a ha b hb =>
    compare?_keyAt_isSome ht horders.scalar (h.fits a ha) (h.fits b hb) entry he
  have hstable := MemoryStore.isStableSort_ordered hsorted fun entry he row hrow =>
    proper_keyAt ht horders.scalar (h.fits row hrow) entry he
  refine ⟨sorted, hsorted, hstable, ?_⟩
  obtain ⟨order, horder, hcells⟩ :=
    h.exists_order ((List.mergeSort_perm _ _).trans (SqlStore.scan_perm t columns kept))
  have hascending := h.ascending_sortRows ht horders.scalar horder hcells
  have hsame : order = sorted := by
    refine List.Perm.eq_of_pairwise (fun a b ha hb hab hba => ?_) hascending hstable.ascending
      (horder.trans hstable.perm.symm)
    rw [MemoryStore.orderVerdict_swap _ a b] at hba
    exact hapart.eq_of_tied ht horders h.fits (horder.mem_iff.mp ha)
      (hstable.perm.mem_iff.mp hb) (Verdict.eq_of_isLE_swap hab hba)
  rw [← hsame]
  exact hcells

/-- Both stores find the same page of the rows in order. -/
theorem Keeps.find_agrees (h : Keeps t (m.rows t) kept) (hkept : s.rows t = .ok kept)
    (ht : t.WellMade) (horders : t.Orders columns) (hapart : t.Apart (m.rows t))
    (hoffset : 0 ≤ offset) (hlimit : 0 ≤ limit)
    (hfits : [limit, offset].all Cell.fitsWord = true) :
    let sel : Selection := ⟨none, columns.map orderEntry, offset, limit⟩
    ∃ sorted loaded,
      IsStableSort (MemoryStore.orderVerdict (columns.map orderEntry)) (m.rows t) sorted ∧
      m.find t sel = .ok (paged offset limit sorted) ∧ s.find t sel = .ok loaded ∧
      List.Forall₂ t.Returns (paged offset limit sorted) loaded := by
  intro sel
  obtain ⟨sorted, hsorted, hstable, hcells⟩ := h.map_sortRows ht horders hapart
  have hpage : (paged offset limit (SqlStore.sortRows columns (SqlStore.scan t columns kept))).map
      (·.cells) = (paged offset limit sorted).map t.cells := by
    rw [map_paged, hcells, map_paged]
  obtain ⟨loaded, hloaded, hshows⟩ := SqlStore.mapM_loadRow_cells ht
    (fun row hrow => h.fits row (hstable.perm.mem_iff.mp (mem_of_mem_paged hrow))) hpage
  refine ⟨sorted, loaded, hstable, MemoryStore.find_paged hsorted hoffset hlimit, ?_, hshows⟩
  have horder := SqlStore.orderOf_orderEntry ht fun e he => (horders.scalar e he).1
  rw [SqlStore.find, SqlStore.findRows_unfiltered hkept horder hfits]
  exact hloaded

variable {models : List Table} {entries : List (Table × Document)}

theorem apart_creates (hmodels : ∀ t ∈ models, t ∈ Table.all)
    (hentries : ∀ e ∈ entries, e.1 ∈ models ∧ e.1.Fits e.2) : ∀ t ∈ models,
      t.Apart (((Command.performAll MemoryStore.access (creates entries)).run .empty).2.rows t) := by
  have hsuits := suits_creates hmodels hentries
  have hnone : Ledger.Apart models [] := fun t _ => .nil
  have hnames : ∀ t ∈ models, ∀ u ∈ models, t.name = u.name → t = u :=
    fun t ht u hu => SqlStore.eq_of_name_eq (hmodels t ht) (hmodels u hu)
  intro t ht
  rw [(mirrors_empty.performAll hsuits).1 t]
  exact hnone.after hnames hsuits t ht

/-- After the same insertions both stores find the same rows in the same order, on every page of an
order by all key columns and any other columns that are no JSON: the rows sorted by all entries
together. A double that stands in a JSON column by itself comes back as its text is read. -/
theorem finds_agree (hmodels : ∀ t ∈ models, t ∈ Table.all)
    (hentries : ∀ e ∈ entries, e.1 ∈ models ∧ e.1.Fits e.2) (ht : t ∈ models)
    (horders : t.Orders columns) (hoffset : 0 ≤ offset) (hlimit : 0 ≤ limit)
    (hfits : [limit, offset].all Cell.fitsWord = true) :
    let cs := .setup models :: creates entries
    let m := ((Command.performAll MemoryStore.access cs).run .empty).2
    let s := ((Command.performAll SqlStore.access cs).run .empty).2
    let sel : Selection := ⟨none, columns.map orderEntry, offset, limit⟩
    ∃ sorted loaded,
      IsStableSort (MemoryStore.orderVerdict (columns.map orderEntry)) (m.rows t) sorted ∧
      m.find t sel = .ok (paged offset limit sorted) ∧ s.find t sel = .ok loaded ∧
      List.Forall₂ t.Returns (paged offset limit sorted) loaded := by
  intro cs m s
  obtain ⟨-, halike⟩ := (alike_setup models).performAll hmodels hentries
  obtain ⟨kept, hkept, hkeeps⟩ := halike t ht
  exact hkeeps.find_agrees hkept (Table.wellMade (hmodels t ht)) horders
    (apart_creates hmodels hentries t ht) hoffset hlimit hfits

end Finds

def event (id : Int) (moment : Option DateTime) : Document :=
  [("id", .int id), ("at", moment.elim .null .datetime)]

theorem fits_event {id : Int} {moment : Option DateTime} (hid : Cell.fitsWord id = true)
    (hmoment : ∀ t ∈ moment, t.IsNaive) : Table.events.Fits (event id moment) := by
  simp only [Table.Fits, Table.events, List.forall_mem_cons]
  refine ⟨.inl (.int hid), .inr ⟨rfl, rfl, rfl⟩, ?_, .inr ⟨rfl, rfl, rfl⟩, .inr ⟨rfl, rfl, rfl⟩,
    List.forall_mem_nil _⟩
  cases moment with
  | none => exact .inr ⟨rfl, rfl, rfl⟩
  | some t => exact .inl (.datetime (hmoment t rfl))

def threeEvents : List Document :=
  [event 3 none, event 1 (some leapMorning),
    event 2 (some ⟨⟨1999, 12, 31⟩, 23, 0, 0, 0, none⟩)]

def latestFirst : List (Column × Direction) :=
  [(⟨"at", .datetime, false, true, some .null⟩, .descending),
    (⟨"id", .int, true, false, none⟩, .ascending)]

theorem finds_agree_threeEvents :
    let cs := .setup [.events] :: creates (threeEvents.map fun row => (.events, row))
    let m := ((Command.performAll MemoryStore.access cs).run .empty).2
    let s := ((Command.performAll SqlStore.access cs).run .empty).2
    let sel : Selection := ⟨none, ["-at", "id"], 1, 2⟩
    m.rows .events = threeEvents ∧ ∃ sorted loaded,
      IsStableSort (MemoryStore.orderVerdict ["-at", "id"]) threeEvents sorted ∧
      m.find .events sel = .ok (paged 1 2 sorted) ∧ s.find .events sel = .ok loaded ∧
      List.Forall₂ Table.events.Returns (paged 1 2 sorted) loaded := by
  intro cs m s
  have hmodels : ∀ t ∈ [Table.events], t ∈ Table.all := by simp [Table.all]
  have hfits : ∀ row ∈ threeEvents, Table.events.Fits row := by
    have hsooner : DateTime.IsNaive ⟨⟨1999, 12, 31⟩, 23, 0, 0, 0, none⟩ :=
      ⟨by decide, by decide, by decide, by decide, by decide, rfl⟩
    simp only [threeEvents, List.forall_mem_cons]
    exact ⟨fits_event (by decide) (by simp),
      fits_event (by decide) (by simpa using isNaive_leapMorning),
      fits_event (by decide) (by simpa using hsooner), List.forall_mem_nil _⟩
  have hentries : ∀ e ∈ threeEvents.map fun row => (Table.events, row),
      e.1 ∈ [Table.events] ∧ e.1.Fits e.2 := by
    intro e he
    obtain ⟨row, hrow, rfl⟩ := List.mem_map.mp he
    exact ⟨List.mem_singleton_self _, hfits row hrow⟩
  have horders : Table.events.Orders latestFirst := by
    constructor
    · simp [latestFirst, Table.events, ColumnType.IsScalar]
    · simp [latestFirst, Table.events, Table.keyColumns]
  have hagree := finds_agree hmodels hentries (List.mem_singleton_self _) horders
    (by decide : (0 : Int) ≤ 1) (by decide : (0 : Int) ≤ 2) (by decide)
  exact ⟨rfl, hagree⟩

theorem not_finds_agree_exactly : ¬∀ (models : List Table) (entries : List (Table × Document))
    (t : Table) (columns : List (Column × Direction)) (offset limit : Int),
    (∀ t ∈ models, t ∈ Table.all) → (∀ e ∈ entries, e.1 ∈ models ∧ e.1.Fits e.2) → t ∈ models →
    t.Orders columns → 0 ≤ offset → 0 ≤ limit → [limit, offset].all Cell.fitsWord = true →
    let cs := .setup models :: creates entries
    let m := ((Command.performAll MemoryStore.access cs).run .empty).2
    let s := ((Command.performAll SqlStore.access cs).run .empty).2
    let sel : Selection := ⟨none, columns.map orderEntry, offset, limit⟩
    ∃ found loaded, m.find t sel = .ok found ∧ s.find t sel = .ok loaded ∧
      List.Forall₂ t.Shows found loaded := by
  intro h
  let byId : List (Column × Direction) := [(⟨"id", .int, true, false, none⟩, .ascending)]
  have hmodels : ∀ t ∈ [Table.people], t ∈ Table.all := by simp [Table.all]
  have hentries : ∀ e ∈ [(Table.people, loneRow)], e.1 ∈ [Table.people] ∧ e.1.Fits e.2 := by
    simpa using fits_loneRow
  have horders : Table.people.Orders byId := by
    constructor
    · simp [byId, Table.people, ColumnType.IsScalar]
    · simp [byId, Table.people, Table.keyColumns]
  obtain ⟨found, loaded, hfound, hloaded, hshows⟩ := h _ _ .people byId 0 0 hmodels hentries
    (List.mem_singleton_self _) horders le_rfl le_rfl (by decide)
  obtain ⟨hmemory, hdiffers⟩ := find_loneRow ⟨none, ["id"], 0, 0⟩ (by simp)
  obtain rfl := Except.ok.inj (hmemory.symm.trans hfound)
  exact hdiffers loaded hloaded hshows

end DocGrid

import DocGrid.Proofs.Store.Groups
import DocGrid.Proofs.Store.Insertion
import Mathlib.Data.List.Nodup

/-! The rows that a database selects for a filter of comparisons are those of which the filter
holds. -/

namespace DocGrid

namespace SqlStore

open Table

/-- All rows of which a filter holds, in the order of their numbers. -/
def selectionOf (f : Filter) : Selection :=
  ⟨some f, ["id"], 0, 0⟩

section Reads

variable [Conversions]

theorem selected_eq {s : SqlStore} {t : Table} {c : Condition} {kept : List SqlRow}
    (hs : s.rows t = .ok kept) (ha : ∀ a ∈ c.arguments, ∃ cell, a.cell? = .ok cell)
    {p : SqlRow → Bool} (hp : ∀ r ∈ kept, c.selects r = .ok (p r)) :
    s.selected t c [0, 0] = .ok (kept.filter p) := by
  have hconvert : ∀ a ∈ c.arguments, ∃ v, a.type.convert a.value = .ok v := by
    intro a hmem
    obtain ⟨cell, hcell⟩ := ha a hmem
    cases hv : a.type.convert a.value with
    | ok v => exact ⟨v, rfl⟩
    | error e =>
      rw [Argument.cell?, hv] at hcell
      cases hcell
  obtain ⟨vs, hvs⟩ := Result.mapM_exists hconvert
  obtain ⟨cells, hcells⟩ := Result.mapM_exists ha
  have hfits : [0, 0].all Cell.fitsWord = true := by decide
  simp only [selected, hvs, hs, hcells, hfits, Result.ok_bind]
  exact Result.filterM_of_ok hp

theorem find_eq {s : SqlStore} {f : Filter} {c : Condition} {kept : List SqlRow}
    (hc : Condition.ofFilter items f = .ok c) (hs : s.rows items = .ok kept)
    (ha : ∀ a ∈ c.arguments, ∃ cell, a.cell? = .ok cell)
    {p : SqlRow → Bool} (hp : ∀ r ∈ kept, c.selects r = .ok (p r)) :
    ∃ sorted : List SqlRow, sorted.Perm (kept.filter p) ∧
      s.find items (selectionOf f) = sorted.mapM (loadRow items) := by
  let order : List (Column × Direction) := [(⟨"id", .int, true, true, some .null⟩, .ascending)]
  have horder : orderOf items ["id"] = .ok order := rfl
  have hscan : scan items order (kept.filter p) = kept.filter p := rfl
  refine ⟨sortRows order (kept.filter p), List.mergeSort_perm _ _, ?_⟩
  have hrows : s.findRows items (selectionOf f) = .ok (sortRows order (kept.filter p)) := by
    simp only [findRows, selectionOf, conditionOf, hc, horder, selected_eq hs ha hp, hscan,
      Result.ok_bind]
    rfl
  rw [find, hrows]
  rfl

theorem selects_eq {c : Condition} {r : SqlRow} (h : c.Answers r) :
    ∃ b, c.selects r = .ok b ∧ (b = true ↔ c.IsTrue r) := by
  obtain ⟨known, hk⟩ := h
  refine ⟨known == some true, ?_, ?_⟩
  · simp [Condition.selects, hk]
  · rw [Condition.isTrue_iff hk, beq_iff_eq]

theorem map_numbers_perm {rows : List Document} {kept : List SqlRow} {p : SqlRow → Bool}
    {q : Document → Bool} (hrows : ∀ row ∈ rows, items.Admits row)
    (hperm : kept.Perm (rows.map items.keptRow))
    (hpq : ∀ row ∈ rows, p (items.keptRow row) = q row) :
    ((kept.filter p).map fun r => some (Value.int r.rowId)).Perm
      ((rows.filter q).map (Document.get? "id")) := by
  have hfilter : (rows.map items.keptRow).filter p = (rows.filter q).map items.keptRow := by
    rw [List.filter_map]
    exact congrArg _ (List.filter_congr hpq)
  have hmap : ((rows.filter q).map items.keptRow).map (fun r => some (Value.int r.rowId)) =
      (rows.filter q).map (Document.get? "id") := by
    rw [List.map_map]
    exact List.map_congr_left fun row hrow => (get?_id (hrows row (List.mem_filter.mp hrow).1)).symm
  rw [← hmap, ← hfilter]
  exact (hperm.filter p).map _

theorem mapM_loadRow {rows : List Document} {sorted : List SqlRow}
    (hrows : ∀ row ∈ rows, items.Admits row)
    (hsorted : ∀ r ∈ sorted, ∃ row ∈ rows, r = items.keptRow row) :
    ∃ found, sorted.mapM (loadRow items) = .ok found ∧
      found.map (Document.get? "id") = sorted.map fun r => some (Value.int r.rowId) := by
  have hload : ∀ r ∈ sorted, ∃ doc, loadRow items r = .ok doc ∧
      Document.get? "id" doc = some (Value.int r.rowId) := by
    intro r hr
    obtain ⟨row, hrow, rfl⟩ := hsorted r hr
    exact loadRow_keptRow (hrows row hrow)
  obtain ⟨found, hfound, hall⟩ := Result.mapM_forall hload
  refine ⟨found, hfound, ?_⟩
  clear hfound hload hsorted
  induction hall with
  | nil => rfl
  | cons hdoc _ ih => rw [List.map_cons, List.map_cons, hdoc, ih]

/-- On typed rows with different numbers, the rows selected for a filter of comparisons are those of
which the filter holds. The limits of a database on the depth of a condition and on the number of
its arguments are taken not to be reached. -/
theorem find_perm_evaluate {rows : List Document} {f : Filter}
    (hrows : ∀ row ∈ rows, items.Admits row) (hnd : (rows.map (Document.get? "id")).Nodup)
    (hf : f.Compares items rows) :
    ∃ s added found, (empty.setup items).insertAll items rows = .ok (s, added) ∧
      s.find items (selectionOf f) = .ok found ∧
      (∀ row ∈ rows, ∃ b, f.evaluate (.mapping row) = .ok b) ∧
      (found.map (Document.get? "id")).Perm
        ((rows.filter fun row => f.evaluate (.mapping row) matches .ok true).map
          (Document.get? "id")) := by
  have hids : (rows.map numberOf).map (fun n => some (Value.int n)) =
      rows.map (Document.get? "id") := by
    rw [List.map_map]
    exact List.map_congr_left fun row hrow => (get?_id (hrows row hrow)).symm
  have hnumbers : (rows.map numberOf).Nodup := List.Nodup.of_map _ (hids ▸ hnd)
  obtain ⟨s, added, kept, hinsert, hkept, hperm⟩ := insertAll_eq hrows hnumbers
  obtain ⟨c, hc, hfaithful⟩ := hf.faithful hrows items_plain
  have hagrees : ∀ row ∈ rows, Agrees (.mapping row) (items.keptRow row) f c := fun row hrow =>
    hfaithful.agrees row hrow _ (keptAs_keptRow row)
  have hmem : ∀ r ∈ kept, ∃ row ∈ rows, r = items.keptRow row := fun r hr => by
    obtain ⟨row, hrow, rfl⟩ := List.mem_map.mp (hperm.mem_iff.mp hr)
    exact ⟨row, hrow, rfl⟩
  -- The database selects by `p`, which is the filter on the documents that the rows come from.
  let p : SqlRow → Bool := fun r => c.selects r matches .ok true
  have hp : ∀ r ∈ kept, c.selects r = .ok (p r) := by
    intro r hr
    obtain ⟨row, hrow, rfl⟩ := hmem r hr
    obtain ⟨b, hb, -⟩ := selects_eq (hagrees row hrow).answers
    cases b <;> simp [p, hb]
  have hpq : ∀ row ∈ rows, p (items.keptRow row) =
      (f.evaluate (.mapping row) matches .ok true) := by
    intro row hrow
    obtain ⟨hanswers, ⟨b, hb⟩, hiff⟩ := hagrees row hrow
    obtain ⟨b', hb', htrue⟩ := selects_eq hanswers
    have heq : b' = true ↔ b = true := by
      rw [htrue, hiff, hb, Except.ok.injEq]
    rw [hb]
    cases b <;> cases b' <;> simp [p, hb'] at heq ⊢
  obtain ⟨sorted, hsorted, hfind⟩ := find_eq hc hkept hfaithful.arguments hp
  have hsources : ∀ r ∈ sorted, ∃ row ∈ rows, r = items.keptRow row := fun r hr =>
    hmem r (List.mem_filter.mp (hsorted.mem_iff.mp hr)).1
  obtain ⟨found, hfound, hnumbers⟩ := mapM_loadRow hrows hsources
  refine ⟨s, added, found, hinsert, hfind.trans hfound, ?_, ?_⟩
  · exact fun row hrow => (hagrees row hrow).decides
  · rw [hnumbers]
    exact (hsorted.map _).trans (map_numbers_perm hrows hperm hpq)

end Reads

def sampleRows : List Document :=
  [itemRow 1 "Ann" 30 (Binary64.zero true) true none,
    itemRow 2 "Bob" 9 (Binary64.infinity false) false (some "admin")]

def sampleFilter : Filter :=
  .any [.all [.comparison "age" .greater (.text "10"), .equals "active" (.text " TRUE")],
    .all [.comparison "score" .notAmong (.list (["-0", "1e3"].map .text)),
      .comparison "name.first" .notEqual (.text "Bob")],
    .any []]

theorem reads_samples : ColumnType.int.Reads ["10"] ∧ ColumnType.bool.Reads [" TRUE"] ∧
    ColumnType.float.Reads ["-0", "1e3"] := by
  have hten : Reading.int? "10" = some 10 := by decide +kernel
  have hint : castText .int "10" = .int 10 := by
    simp only [castText, numberOf?, hten]
    rfl
  have htruth : truthOf? " TRUE" = some true := by decide +kernel
  have hbool : castText .bool " TRUE" = .bool true := by
    simp only [castText, htruth]
    rfl
  have hzero : Reading.float? "-0" = some (Binary64.zero true) := by decide +kernel
  have hthousand : Reading.float? "1e3" = some (Binary64.ofInt 1000) := by decide +kernel
  have hcast {s : String} {x : Binary64} (h : Reading.float? s = some x) :
      castText .float s = .float x := by
    simp only [castText, h]
    rfl
  refine ⟨.inl ?_, .inl ?_, .inl ?_⟩
  · simpa [ColumnType.target, hint] using ColumnType.Holds.int (by decide)
  · simpa [ColumnType.target, hbool] using ColumnType.Holds.bool true
  · simp only [List.forall_mem_cons, ColumnType.target, hcast hzero, hcast hthousand]
    exact ⟨.float (by decide), .float (by decide +kernel), by simp⟩

theorem sampleFilter_compares : sampleFilter.Compares items sampleRows := by
  obtain ⟨hage, hactive, hscore⟩ := reads_samples
  refine .any ?_
  simp only [List.forall_mem_cons, List.not_mem_nil, false_implies, implies_true, and_true]
  refine ⟨.all ?_, .all ?_, .any (by simp)⟩
  · simp only [List.forall_mem_cons, List.not_mem_nil, false_implies, implies_true, and_true]
    refine ⟨.comparison (by simp) fun c hc => ?_, .equals fun c hc => ?_⟩
    · cases hc
      exact ⟨fun _ => hage, by simp, by simp⟩
    · cases hc
      exact ⟨fun _ => hactive, by simp, by simp⟩
  · simp only [List.forall_mem_cons, List.not_mem_nil, false_implies, implies_true, and_true]
    refine ⟨.comparisonOfMany (.inr rfl) fun c hc => ?_, .comparison (by simp) fun c hc => ?_⟩
    · cases hc
      refine ⟨fun _ => hscore, by simp, fun _ => ?_⟩
      simp [sampleRows, itemRow, Value.float]
    · cases hc

theorem find_perm_evaluate_samples :
    ∃ s added found, (empty.setup items).insertAll items sampleRows = .ok (s, added) ∧
      s.find items (selectionOf sampleFilter) = .ok found ∧
      (∀ row ∈ sampleRows, ∃ b, sampleFilter.evaluate (.mapping row) = .ok b) ∧
      (found.map (Document.get? "id")).Perm
        ((sampleRows.filter fun row => sampleFilter.evaluate (.mapping row) matches .ok true).map
          (Document.get? "id")) := by
  refine find_perm_evaluate ?_ ?_ sampleFilter_compares
  · simp only [sampleRows, List.forall_mem_cons, List.not_mem_nil, false_implies, implies_true,
      and_true]
    exact ⟨admits_itemRow (by decide) (by decide) (by decide) _ _ _,
      admits_itemRow (by decide) (by decide) (by decide) _ _ _⟩
  · simp [sampleRows, itemRow, Value.int]

end SqlStore

end DocGrid

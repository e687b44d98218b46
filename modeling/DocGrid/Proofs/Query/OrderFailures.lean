import DocGrid.Proofs.Order.Preorder
import DocGrid.Proofs.Query.ValueCounts
import DocGrid.Proofs.Store.RowOrder

/-! Reads that put values in order. They fail where the order comes down to points in time of two
kinds, and only there. -/

namespace DocGrid

namespace Value

/-- Two of the values have no order between them. -/
def Unordered (vs : List Value) : Prop :=
  ∃ v ∈ vs, ∃ w ∈ vs, v.Clash w

theorem comparable_iff {vs : List Value} (h : ∀ v ∈ vs, SortKey.Proper v.numbers) :
    (∀ v ∈ vs, ∀ w ∈ vs, (SortKey.compare? v.sortKey w.sortKey).isSome) ↔ ¬ Unordered vs := by
  simp only [Unordered, not_exists, not_and]
  refine forall₂_congr fun v hv => forall₂_congr fun w hw => ?_
  rw [← compare?_eq_none_iff (h v hv) (h w hw)]
  exact Option.isSome_iff_ne_none

end Value

namespace Distinct

variable {vs : List Value} {counts : List ValueCount}

/-- Each occurrence stands where the value is that it is counted with. -/
theorem comparable_of_counts (hproper : ∀ v ∈ vs, SortKey.Proper v.numbers)
    (htally : IsTally vs counts) (h : ∀ c ∈ counts, ∀ d ∈ counts,
      (SortKey.compare? c.value.sortKey d.value.sortKey).isSome) :
    ∀ v ∈ vs, ∀ w ∈ vs, (SortKey.compare? v.sortKey w.sortKey).isSome := by
  intro v hv w hw
  obtain ⟨c, hc, hcv⟩ := htally.covered v hv
  obtain ⟨d, hd, hdw⟩ := htally.covered w hw
  have hcp := hproper _ (htally.occurs c hc)
  have hdp := hproper _ (htally.occurs d hd)
  have hleft := (Value.consistent_sortKey hcp (hproper v hv) (hproper w hw)).same
    ((Value.sameGroup_iff _ _ hcp (hproper v hv)).mp hcv)
  have hright := (Value.consistent_sortKey hdp (hproper w hw) hcp).same
    ((Value.sameGroup_iff _ _ hdp (hproper w hw)).mp hdw)
  have hcounts := h d hd c hc
  rwa [hright, SortKey.compare?_swap c.value.sortKey, Option.isSome_map, hleft] at hcounts

theorem sort_counts_refused (h : ¬ ∀ c ∈ counts, ∀ d ∈ counts,
    (SortKey.compare? c.value.sortKey d.value.sortKey).isSome) :
    Stage.sort (.mapping [("value", .int 1)]) (counts.map record) = .error .wrongKind := by
  change Stage.sortOne "value" false (counts.map record) = _
  unfold Stage.sortOne
  split
  · next sorted hsort =>
    have hrecords := comparable_of_sortByKey? hsort
    simp only [List.forall_mem_map] at hrecords
    exact absurd hrecords h
  · rfl

end Distinct

namespace MemoryStore

open Distinct

variable {s : MemoryStore} {t : Table} {rows : List Document}

/-- What a row has at the path of an entry of an order, null where there is nothing. -/
def valueAt (entry : String) (row : Document) : Value :=
  (row.resolve (SortSpec.readEntry entry).1).getD .null

theorem proper_valueAt {row : Document} (h : SortKey.Proper (Value.mapping row).numbers)
    (entry : String) : SortKey.Proper (valueAt entry row).numbers := by
  unfold valueAt
  cases hv : row.resolve (SortSpec.readEntry entry).1 with
  | none => exact List.forall_mem_nil _
  | some v => exact fun n hn => h n (Value.numbers_follow hv hn)

theorem proper_occurrences (h : ∀ row ∈ rows, SortKey.Proper (Value.mapping row).numbers)
    (field : String) : ∀ v ∈ occurrences rows field, SortKey.Proper v.numbers := by
  intro v hv
  obtain ⟨u, hu, hv⟩ := List.mem_flatMap.mp hv
  obtain ⟨row, hrow, hu⟩ := List.mem_filterMap.mp hu
  exact fun n hn => h row hrow n (Value.numbers_follow hu (Value.numbers_flattened hv hn))

/-- A read cuts its window out of the sorted rows. -/
theorem find_of_matching {sel : Selection} (h : s.matching t sel.filter = .ok rows) :
    ∃ cut : List Document → List Document,
      s.find t sel = (ordered rows sel.orderBy).map cut := by
  rw [find, h]
  exact ⟨_, rfl⟩

theorem find_isOk_iff (sel : Selection) (h : s.matching t sel.filter = .ok rows)
    (hproper : ∀ row ∈ rows, SortKey.Proper (Value.mapping row).numbers) :
    ((∃ found, s.find t sel = .ok found) ↔
      ∀ entry ∈ sel.orderBy, ¬ Value.Unordered (rows.map (valueAt entry))) ∧
    ((∃ entry ∈ sel.orderBy, Value.Unordered (rows.map (valueAt entry))) →
      s.find t sel = .error .wrongKind) := by
  obtain ⟨cut, hfind⟩ := find_of_matching h
  have hsorts : (∃ sorted, ordered rows sel.orderBy = .ok sorted) ↔
      ∀ entry ∈ sel.orderBy, ¬ Value.Unordered (rows.map (valueAt entry)) := by
    rw [ordered_isOk_iff]
    refine forall₂_congr fun entry _ => ?_
    rw [← Value.comparable_iff (List.forall_mem_map.mpr fun row hrow =>
      proper_valueAt (hproper row hrow) entry)]
    simp only [List.forall_mem_map]
    rfl
  rw [hfind]
  cases hsorted : ordered rows sel.orderBy with
  | ok sorted =>
    have hnone := hsorts.mp ⟨sorted, hsorted⟩
    exact ⟨⟨fun _ => hnone, fun _ => ⟨_, rfl⟩⟩, fun ⟨entry, hentry, hrows⟩ =>
      absurd hrows (hnone entry hentry)⟩
  | error e =>
    obtain rfl := eq_wrongKind_of_ordered hsorted
    rw [← hsorts, hsorted]
    exact ⟨by simp, fun _ => rfl⟩

theorem valueCounts_isOk_iff (field : String)
    (hproper : ∀ row ∈ s.rows t, SortKey.Proper (Value.mapping row).numbers) :
    ((∃ counts, (access.toReader.valueCounts t field).run s = (.ok counts, s)) ↔
      ¬ Value.Unordered (occurrences (s.rows t) field)) ∧
    (Value.Unordered (occurrences (s.rows t) field) →
      (access.toReader.valueCounts t field).run s = (.error .wrongKind, s)) := by
  have hvalues := proper_occurrences hproper field
  have hrefused (h : Value.Unordered (occurrences (s.rows t) field)) :
      (access.toReader.valueCounts t field).run s = (.error .wrongKind, s) := by
    have hcounts := sort_counts_refused fun hcomparable =>
      (Value.comparable_iff hvalues).mp
        (comparable_of_counts hvalues (isTally_countAll hvalues) hcomparable) h
    have haggregate : s.aggregate t (.list (pipeline field)) = .error .wrongKind := by
      change Except.map _ (Pipeline.runStages (pipeline field) (s.rows t)) = _
      rw [runStages_pipeline, hcounts]
      rfl
    change ((s.aggregate t (.list (pipeline field))).bind fun vs => vs.mapM ValueCount.ofValue,
      s) = _
    rw [haggregate]
    rfl
  refine ⟨⟨fun ⟨counts, hcounts⟩ h => ?_, fun h => ?_⟩, hrefused⟩
  · cases (hrefused h).symm.trans hcounts
  · obtain ⟨counts, hsort, htally, -⟩ := exists_tally hvalues ((Value.comparable_iff hvalues).mpr h)
    exact ⟨counts, valueCounts_of_sort hsort fun c hc => htally.one_le_count hvalues hc⟩

theorem subset_of_matching {filter : Option Filter} (h : s.matching t filter = .ok rows) :
    rows ⊆ s.rows t := by
  cases filter with
  | none =>
    obtain rfl := Except.ok.inj h
    exact List.Subset.refl _
  | some f =>
    rw [Result.filterM_eq h]
    exact List.filter_sublist.subset

theorem sorted_reads_isOk_iff (s : MemoryStore) (t : Table)
    (hproper : ∀ row ∈ s.rows t, SortKey.Proper (Value.mapping row).numbers) :
    (∀ sel rows, s.matching t sel.filter = .ok rows →
      ((∃ found, s.find t sel = .ok found) ↔
        ∀ entry ∈ sel.orderBy, ¬ Value.Unordered (rows.map (valueAt entry))) ∧
      ((∃ entry ∈ sel.orderBy, Value.Unordered (rows.map (valueAt entry))) →
        s.find t sel = .error .wrongKind)) ∧
    (∀ field,
      ((∃ counts, (access.toReader.valueCounts t field).run s = (.ok counts, s)) ↔
        ¬ Value.Unordered (occurrences (s.rows t) field)) ∧
      (Value.Unordered (occurrences (s.rows t) field) →
        (access.toReader.valueCounts t field).run s = (.error .wrongKind, s))) := by
  refine ⟨fun sel rows hrows => ?_, fun field => valueCounts_isOk_iff field hproper⟩
  exact find_isOk_iff sel hrows fun row hrow => hproper row (subset_of_matching hrows hrow)

def twoEvents : MemoryStore :=
  ⟨[("events",
    [[("id", .int 1), ("at", .datetime ⟨⟨2024, 1, 2⟩, 3, 4, 5, 0, none⟩)],
      [("id", .int 2), ("at", .datetime ⟨⟨2024, 1, 2⟩, 3, 4, 5, 0, some 0⟩)]])]⟩

theorem unordered_twoEvents : Value.Unordered
    [.datetime ⟨⟨2024, 1, 2⟩, 3, 4, 5, 0, none⟩, .datetime ⟨⟨2024, 1, 2⟩, 3, 4, 5, 0, some 0⟩] :=
  ⟨_, List.mem_cons_self, _, List.mem_cons_of_mem _ List.mem_cons_self, _, _, .here _ _, by decide⟩

theorem sorted_reads_isOk_iff_twoEvents :
    (∀ row ∈ twoEvents.rows Table.events, SortKey.Proper (Value.mapping row).numbers) ∧
      (∃ found, twoEvents.find Table.events ⟨none, ["-id"], 0, 0⟩ = .ok found) ∧
      twoEvents.find Table.events ⟨none, ["-id", "at"], 0, 0⟩ = .error .wrongKind ∧
      (∃ counts, (access.toReader.valueCounts Table.events "id").run twoEvents =
        (.ok counts, twoEvents)) ∧
      (access.toReader.valueCounts Table.events "at").run twoEvents =
        (.error .wrongKind, twoEvents) := by
  have hproper : ∀ row ∈ twoEvents.rows Table.events,
      SortKey.Proper (Value.mapping row).numbers := by decide
  have hids : ¬ Value.Unordered [.int 1, .int 2] := by
    rw [← Value.comparable_iff (by decide)]
    decide +kernel
  obtain ⟨hfind, hcounts⟩ := sorted_reads_isOk_iff twoEvents Table.events hproper
  refine ⟨hproper, ?_, ?_, ?_, ?_⟩
  · refine (hfind ⟨none, ["-id"], 0, 0⟩ _ rfl).1.mpr fun entry hentry => ?_
    obtain rfl := List.mem_singleton.mp hentry
    exact hids
  · exact (hfind ⟨none, ["-id", "at"], 0, 0⟩ _ rfl).2 ⟨"at", by simp, unordered_twoEvents⟩
  · exact (hcounts "id").1.mpr hids
  · exact (hcounts "at").2 unordered_twoEvents

theorem not_sorted_find_isOk : ¬ ∀ (s : MemoryStore) (t : Table) (order : List String),
    (∀ row ∈ s.rows t, SortKey.Proper (Value.mapping row).numbers) →
    ∃ found, s.find t ⟨none, order, 0, 0⟩ = .ok found := by
  intro hall
  obtain ⟨found, hfound⟩ := hall twoEvents Table.events ["at"] (by decide)
  have hrefused := (find_isOk_iff (s := twoEvents) (t := Table.events) ⟨none, ["at"], 0, 0⟩ rfl
    (by decide)).2 ⟨"at", by simp, unordered_twoEvents⟩
  cases hrefused.symm.trans hfound

end MemoryStore

end DocGrid

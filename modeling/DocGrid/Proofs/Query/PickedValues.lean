import DocGrid.Proofs.Filter.OrderOperators
import DocGrid.Proofs.Query.OrderFailures

/-! The distinct values of a field as conditions on it. Counting takes apart lists inside of lists, a
condition looks only at the items of the list in a field. So a text that was counted selects the rows
in which it is the value or one of the items, and those in which it was found deeper are left out
unless something else there has its meaning. -/

namespace DocGrid

/-- The value is no text, but equal to what a text is read as beside it. -/
def Value.Means (v : Value) (text : String) : Prop :=
  v.text? = none ∧ v.same (castText (.ofValue v) text) = true

theorem equalsScalar_text_iff (v : Value) (text : String) :
    equalsScalar v (.text text) = true ↔ v = .text text ∨ v.Means text := by
  cases v with
  | text s =>
    change (s == text) = true ↔ _
    simp [Value.Means, Value.text?]
  | _ => exact ⟨fun h => .inr ⟨rfl, h⟩, fun h => (h.resolve_left (by simp)).2⟩

/-- Null has no items, and is equal to no text. -/
theorem equalsOperand_text_iff (v : Value) (text : String) :
    equalsOperand v (.text text) = true ↔
      ∃ item ∈ v.unpacked, item = .text text ∨ item.Means text := by
  rw [equalsOperand_candidates rfl, List.any_eq_true]
  simp only [equalsScalar_text_iff]
  have hnull : ¬ (Value.null = .text text ∨ Value.null.Means text) := by
    rintro (h | ⟨-, h⟩)
    · cases h
    · cases h
  cases v with
  | null => simpa [Value.candidates, Value.unpacked] using hnull
  | _ => rfl

namespace MemoryStore

/-- What a condition on a field looks at in a row: the value of the field, or the items of its
list. -/
def fieldItems (field : String) (row : Document) : List Value :=
  (row.resolve field).toList.flatMap Value.unpacked

/-- The rows with a value equal to a text. -/
def picked (field text : String) : Selection :=
  ⟨some (.equals field (.text text)), [], 0, 0⟩

variable {s : MemoryStore} {t : Table} {field text : String}

theorem equals_fieldItems_iff (row : Document) :
    equalsOperand ((row.resolve field).getD .null) (.text text) = true ↔
      ∃ item ∈ fieldItems field row, item = .text text ∨ item.Means text := by
  rw [equalsOperand_text_iff, fieldItems]
  cases row.resolve field with
  | none => simp [Value.unpacked]
  | some v => simp

theorem find_picked (s : MemoryStore) (t : Table) (field text : String) :
    s.find t (picked field text) = .ok ((s.rows t).filter fun row =>
      equalsOperand ((row.resolve field).getD .null) (.text text)) := by
  have hmatching : s.matching t (some (.equals field (.text text))) =
      .ok ((s.rows t).filter fun row =>
        equalsOperand ((row.resolve field).getD .null) (.text text)) :=
    Result.filterM_of_ok fun row _ => rfl
  simp [find, picked, hmatching, ordered]

theorem mem_picked_iff {rows : List Document} (h : s.find t (picked field text) = .ok rows)
    (row : Document) : row ∈ rows ↔ row ∈ s.rows t ∧
      ∃ item ∈ fieldItems field row, item = .text text ∨ item.Means text := by
  obtain rfl := Except.ok.inj ((find_picked s t field text).symm.trans h)
  rw [List.mem_filter, equals_fieldItems_iff]

theorem picked_ne_nil_iff {rows : List Document} (h : s.find t (picked field text) = .ok rows) :
    rows ≠ [] ↔
      ∃ item ∈ (s.rows t).flatMap (fieldItems field), item = .text text ∨ item.Means text := by
  constructor
  · intro hne
    obtain ⟨row, hmem⟩ := List.exists_mem_of_ne_nil rows hne
    obtain ⟨hrow, item, hitem, hmeaning⟩ := (mem_picked_iff h row).mp hmem
    exact ⟨item, List.mem_flatMap.mpr ⟨row, hrow, hitem⟩, hmeaning⟩
  · rintro ⟨item, hmem, hmeaning⟩
    obtain ⟨row, hrow, hitem⟩ := List.mem_flatMap.mp hmem
    exact List.ne_nil_of_mem ((mem_picked_iff h row).mpr ⟨hrow, item, hitem, hmeaning⟩)

theorem valueCounts_tally {aware : Bool} (field : String)
    (h : ∀ row ∈ s.rows t, (Value.mapping row).Orderly aware) :
    ∃ counts, (access.toReader.valueCounts t field).run s = (.ok counts, s) ∧
      Distinct.IsTally (Distinct.occurrences (s.rows t) field) counts := by
  have horderly : ∀ v ∈ Distinct.occurrences (s.rows t) field, v.Orderly aware := by
    intro v hv
    obtain ⟨u, hu, hv⟩ := List.mem_flatMap.mp hv
    obtain ⟨row, hrow, hu⟩ := List.mem_filterMap.mp hu
    exact ((h row hrow).follow hu).flattened hv
  have hproper : ∀ v ∈ Distinct.occurrences (s.rows t) field, SortKey.Proper v.numbers :=
    fun v hv => (horderly v hv).proper
  obtain ⟨counts, hsort, htally, -⟩ := Distinct.exists_tally hproper fun v hv w hw =>
    (horderly v hv).compare?_isSome (horderly w hw)
  exact ⟨counts, valueCounts_of_sort hsort fun c hc => htally.one_le_count hproper hc, htally⟩

/-- Counting takes five more lists apart than a condition does. -/
theorem occurrences_eq (rows : List Document) (field : String) :
    Distinct.occurrences rows field =
      (rows.flatMap (fieldItems field)).flatMap (Value.flattened 5) := by
  have hrow (row : Document) : (row.resolve field).toList.flatMap (Value.flattened 6) =
      (fieldItems field row).flatMap (Value.flattened 5) := by
    rw [fieldItems, List.flatMap_assoc]
    exact congrArg (List.flatMap · _) (funext (Value.flattened_succ 5))
  change (rows.filterMap fun row => row.resolve field).flatMap (Value.flattened 6) = _
  rw [List.flatMap_assoc]
  induction rows with
  | nil => rfl
  | cons row rows ih =>
    rw [List.flatMap_cons, ← ih, ← hrow]
    cases hv : row.resolve field with
    | none => simp [hv]
    | some v => simp [hv]

/-- A text that occurs is a value or an item, or stands in a list among the items. -/
theorem text_occurs {rows : List Document}
    (h : .text text ∈ Distinct.occurrences rows field) :
    .text text ∈ rows.flatMap (fieldItems field) ∨
      ∃ items, .list items ∈ rows.flatMap (fieldItems field) ∧
        .text text ∈ items.flatMap (Value.flattened 4) := by
  rw [occurrences_eq] at h
  obtain ⟨item, hitem, htext⟩ := List.mem_flatMap.mp h
  cases item with
  | list items => exact .inr ⟨items, hitem, htext⟩
  | null => cases htext
  | _ => exact .inl (List.mem_singleton.mp htext ▸ hitem)

/-- A counted text selects exactly the rows in which the value or an item has its meaning. There is
such a row, unless the text was found in lists inside of lists only. -/
theorem valueCounts_picked {aware : Bool} (s : MemoryStore) (t : Table) (field : String)
    (h : ∀ row ∈ s.rows t, (Value.mapping row).Orderly aware) :
    ∃ counts, (access.toReader.valueCounts t field).run s = (.ok counts, s) ∧
      ∀ c ∈ counts, ∀ text, c.value = .text text →
        ∃ rows, (access.find t (picked field text)).run s = (.ok rows, s) ∧
          (∀ row, row ∈ rows ↔ row ∈ s.rows t ∧
            ∃ item ∈ fieldItems field row, item = .text text ∨ item.Means text) ∧
          (rows ≠ [] ∨ .text text ∉ (s.rows t).flatMap (fieldItems field) ∧
            ∃ items, .list items ∈ (s.rows t).flatMap (fieldItems field) ∧
              .text text ∈ items.flatMap (Value.flattened 4)) := by
  obtain ⟨counts, hcounts, htally⟩ := valueCounts_tally field h
  refine ⟨counts, hcounts, fun c hc text hvalue => ?_⟩
  have hfind := find_picked s t field text
  refine ⟨_, congrArg (·, s) hfind, mem_picked_iff hfind, ?_⟩
  by_cases hitem : .text text ∈ (s.rows t).flatMap (fieldItems field)
  · exact .inl ((picked_ne_nil_iff hfind).mpr ⟨_, hitem, .inl rfl⟩)
  · have htext : .text text ∈ Distinct.occurrences (s.rows t) field := hvalue ▸ htally.occurs c hc
    exact .inr ⟨hitem, (text_occurs htext).resolve_left hitem⟩

/-- A text in a list, one two lists deep that also means a number, and one that is a value. -/
theorem valueCounts_picked_mixed :
    let rows : List Document := [[("tags", .list [.text "a", .list [.text "1"]])],
      [("tags", .int 1)], [("tags", .text "b")], [("tags", .null)], [("name", .text "a")]]
    (∀ row ∈ rows, (Value.mapping row).Orderly false) ∧
      ∃ counts, (access.toReader.valueCounts Table.people "tags").run ⟨[("people", rows)]⟩ =
          (.ok counts, ⟨[("people", rows)]⟩) ∧
        ∀ c ∈ counts, ∀ text, c.value = .text text →
          ∃ found, (access.find Table.people (picked "tags" text)).run ⟨[("people", rows)]⟩ =
              (.ok found, ⟨[("people", rows)]⟩) ∧
            (∀ row, row ∈ found ↔ row ∈ rows ∧
              ∃ item ∈ fieldItems "tags" row, item = .text text ∨ item.Means text) ∧
            (found ≠ [] ∨ .text text ∉ rows.flatMap (fieldItems "tags") ∧
              ∃ items, .list items ∈ rows.flatMap (fieldItems "tags") ∧
                .text text ∈ items.flatMap (Value.flattened 4)) := by
  intro rows
  have horderly : ∀ row ∈ rows, (Value.mapping row).Orderly false := by decide
  exact ⟨horderly, valueCounts_picked ⟨[("people", rows)]⟩ Table.people "tags" horderly⟩

/-- One text in a list inside of a list is counted, but no row is equal to it. -/
theorem not_valueCounts_picked : ¬ ∀ (s : MemoryStore) (t : Table) (field : String),
    (∀ row ∈ s.rows t, (Value.mapping row).Orderly false) →
    ∀ counts, (access.toReader.valueCounts t field).run s = (.ok counts, s) →
      ∀ c ∈ counts, ∀ text, c.value = .text text →
        ∃ rows, (access.find t (picked field text)).run s = (.ok rows, s) ∧ rows ≠ [] := by
  intro hall
  let s : MemoryStore := ⟨[("people", [[("tags", .list [.list [.text "a"]])]])]⟩
  have horderly : ∀ row ∈ s.rows Table.people, (Value.mapping row).Orderly false := by decide
  have hfind : (access.find Table.people (picked "tags" "a")).run s = (.ok [], s) := by rfl
  obtain ⟨counts, hcounts, htally⟩ := valueCounts_tally "tags" horderly
  obtain ⟨c, hc, -⟩ := htally.covered (.text "a") List.mem_cons_self
  have hvalue : c.value = .text "a" := List.mem_singleton.mp (htally.occurs c hc)
  obtain ⟨rows, hrows, hne⟩ := hall s Table.people "tags" horderly counts hcounts c hc "a" hvalue
  rw [hfind] at hrows
  exact hne (Except.ok.inj (congrArg Prod.fst hrows)).symm

end MemoryStore

end DocGrid

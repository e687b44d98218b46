import DocGrid.Proofs.Json.RoundTrip
import DocGrid.Proofs.Query.ValueCounts
import DocGrid.Proofs.Store.RowOrder

/-! Sorting by several keys, when rows are read from memory and in a stage of a pipeline. Both sort
stably by one key after the other, so that the first key that tells two rows apart decides. -/

namespace DocGrid

namespace SortSpec

/-- The mapping that a sort stage takes. -/
def stageEntries (spec : SortSpec) : Document :=
  Document.ofPairs (spec.map fun e => (e.1, .int e.2.sign))

/-- The key of what a row has at a path, which is null where there is nothing. -/
def keyOf (path : String) (row : Document) : SortKey :=
  ((row.resolve path).getD .null).sortKey

/-- No key tells the rows apart. -/
def Ties (spec : SortSpec) (a b : Document) : Prop :=
  ∀ e ∈ spec, SortKey.compare? (keyOf e.1 a) (keyOf e.1 b) = some .eq

instance (spec : SortSpec) (a b : Document) : Decidable (Ties spec a b) :=
  inferInstanceAs (Decidable (∀ e ∈ spec, _))

/-- One key puts a row before another, in its direction. -/
def Puts (e : String × Direction) (a b : Document) : Prop :=
  match e.2 with
  | .ascending => SortKey.compare? (keyOf e.1 a) (keyOf e.1 b) = some .lt
  | .descending => SortKey.compare? (keyOf e.1 a) (keyOf e.1 b) = some .gt

/-- The rows in the order of their keys. Of any two the first key that tells them apart decides, and
rows that no key tells apart stand as they stood. -/
structure Sorts (spec : SortSpec) (rows sorted : List Document) : Prop where
  perm : sorted.Perm rows
  decides : sorted.Pairwise fun a b => ∀ before e after, spec = before ++ e :: after →
    Ties before a b → ¬ Ties [e] a b → Puts e a b
  stable : ∀ row ∈ rows, sorted.filter (fun other => Ties spec row other) =
    rows.filter fun other => Ties spec row other

variable {spec : SortSpec} {rows sorted : List Document} {a b : Document}

theorem ties_cons {e : String × Direction} :
    Ties (e :: spec) a b ↔ Ties [e] a b ∧ Ties spec a b := by
  simp [Ties]

theorem keyVerdict_eq_iff_ties {e : String × Direction} :
    keyVerdict (keyOf e.1) (e.2 == .descending) a b = some .eq ↔ Ties [e] a b := by
  simp [Ties]

theorem puts_of_keyVerdict {e : String × Direction}
    (h : keyVerdict (keyOf e.1) (e.2 == .descending) a b = some .lt) : Puts e a b := by
  obtain ⟨path, direction⟩ := e
  cases direction with
  | ascending => exact h
  | descending =>
    have hlt : SortKey.compare? (keyOf path b) (keyOf path a) = some .lt := h
    change SortKey.compare? (keyOf path a) (keyOf path b) = some .gt
    rw [SortKey.compare?_swap (keyOf path b), hlt]
    rfl

@[simp] theorem isDescending_sign (direction : Direction) :
    Stage.isDescending (.int direction.sign) = .ok (direction == .descending) := by
  cases direction <;> rfl

section Plain

variable (hplain : ∀ e ∈ spec, e.1.toList.head? ≠ some '-')

include hplain

theorem keyAt_entryText {e : String × Direction} (he : e ∈ spec) :
    MemoryStore.keyAt (entryText e) = keyOf e.1 := by
  funext row
  rw [MemoryStore.keyAt, readEntry_entryText (hplain e he), keyOf]

/-- The two ways to sort make the same passes, whether they fail or not. -/
theorem sortEntries_eq_ordered : Stage.sortEntries rows (spec.map fun e => (e.1, .int e.2.sign)) =
    MemoryStore.ordered rows spec.orderBy := by
  induction spec with
  | nil => rfl
  | cons e rest ih =>
    obtain ⟨hfirst, hrest⟩ := List.forall_mem_cons.mp hplain
    rw [orderBy, List.map_cons, List.map_cons, Stage.sortEntries, ih hrest, orderBy,
      MemoryStore.ordered, readEntry_entryText hfirst, isDescending_sign]
    cases MemoryStore.ordered rows (rest.map entryText) with
    | error f => rfl
    | ok tied =>
      change Stage.sortOne e.1 (e.2 == .descending) tied = _
      rw [Stage.sortOne]
      rfl

theorem ties_iff_verdict :
    MemoryStore.orderVerdict spec.orderBy a b = some .eq ↔ Ties spec a b := by
  rw [MemoryStore.orderVerdict_eq_iff, orderBy, List.forall_mem_map]
  constructor
  · intro h e he
    have hkey := h e he
    rwa [keyAt_entryText hplain he] at hkey
  · intro h e he
    rw [keyAt_entryText hplain he]
    exact h e he

theorem orderVerdict_of_cons {e : String × Direction} {rest : SortSpec} (hspec : spec = e :: rest) :
    MemoryStore.orderVerdict spec.orderBy a b =
      (keyVerdict (keyOf e.1) (e.2 == .descending) a b).next
        (MemoryStore.orderVerdict rest.orderBy a b) := by
  have he : e ∈ spec := by simp [hspec]
  have hkey := keyAt_entryText hplain he
  have hread := readEntry_entryText (hplain e he) e.2
  rw [hspec, orderBy, List.map_cons, MemoryStore.orderVerdict, hkey, hread]
  rfl

/-- Where an order has one row first or does not tell the two apart, the first key that does tell
them apart has it first. -/
theorem puts_of_isLE (h : (MemoryStore.orderVerdict spec.orderBy a b).isLE = true)
    {before after : SortSpec} {e : String × Direction} (hspec : spec = before ++ e :: after)
    (hties : Ties before a b) (hdiffers : ¬ Ties [e] a b) : Puts e a b := by
  induction before generalizing spec with
  | nil =>
    rw [orderVerdict_of_cons hplain hspec] at h
    have hne : keyVerdict (keyOf e.1) (e.2 == .descending) a b ≠ some .eq :=
      fun heq => hdiffers (keyVerdict_eq_iff_ties.mp heq)
    rw [Verdict.next_of_ne hne] at h
    exact puts_of_keyVerdict ((Verdict.isLE_iff.mp h).resolve_right hne)
  | cons first before ih =>
    obtain ⟨hfirst, hbefore⟩ := ties_cons.mp hties
    rw [orderVerdict_of_cons hplain hspec, keyVerdict_eq_iff_ties.mpr hfirst] at h
    exact ih (fun e he => hplain e (hspec ▸ List.mem_cons_of_mem first he)) h rfl hbefore

theorem sorts_of_isStableSort
    (h : IsStableSort (MemoryStore.orderVerdict spec.orderBy) rows sorted) :
    spec.Sorts rows sorted := by
  have hties (row other : Document) :
      (MemoryStore.orderVerdict spec.orderBy row other == some .eq) =
        decide (Ties spec row other) := by
    rw [Bool.eq_iff_iff, beq_iff_eq, decide_eq_true_eq]
    exact ties_iff_verdict hplain
  refine ⟨h.perm, h.ascending.imp fun hle before e after => puts_of_isLE hplain hle, ?_⟩
  intro row hrow
  have hstable := h.stable row hrow
  simpa only [hties] using hstable

end Plain

theorem orderly_resolved {aware : Bool} {path : String} {row : Document}
    (h : (Value.mapping row).Orderly aware) :
    ((row.resolve path).getD .null).Orderly aware := by
  cases hv : row.resolve path with
  | none => exact ⟨by simp [Value.numbers, SortKey.Proper], by simp [Value.times, SortKey.OfKind]⟩
  | some v => exact h.follow hv

theorem sorts_find_and_stage {aware : Bool} (s : MemoryStore) (t : Table)
    (hrows : ∀ row ∈ s.rows t, (Value.mapping row).Orderly aware)
    (hpaths : (spec.map (·.1)).Nodup) (hplain : ∀ e ∈ spec, e.1.toList.head? ≠ some '-') :
    ∃ sorted, s.find t ⟨none, spec.orderBy, 0, 0⟩ = .ok sorted ∧
      Pipeline.run [Distinct.stage "$sort" (.mapping spec.stageEntries)] (s.rows t) = .ok sorted ∧
      spec.Sorts (s.rows t) sorted := by
  have hcomparable : ∀ entry ∈ spec.orderBy, ∀ a ∈ s.rows t, ∀ b ∈ s.rows t,
      (SortKey.compare? (MemoryStore.keyAt entry a) (MemoryStore.keyAt entry b)).isSome :=
    fun entry _ a ha b hb =>
      (orderly_resolved (hrows a ha)).compare?_isSome (orderly_resolved (hrows b hb))
  have hproper : ∀ entry ∈ spec.orderBy, ∀ row ∈ s.rows t,
      SortKey.Proper (MemoryStore.keyAt entry row).numbers :=
    fun entry _ row hrow => (orderly_resolved (hrows row hrow)).proper_sortKey
  obtain ⟨sorted, hsorted⟩ := MemoryStore.ordered_isOk hcomparable
  have hstable := MemoryStore.isStableSort_ordered hsorted hproper
  have hstage : Stage.run "$sort" (.mapping spec.stageEntries) (s.rows t) = .ok sorted := by
    have hkeys : (Document.keys (spec.map fun e => (e.1, Value.int e.2.sign))).Nodup := by
      rw [Document.keys, List.map_map]
      exact hpaths
    rw [stageEntries, Document.ofPairs_eq hkeys, ← hsorted, ← sortEntries_eq_ordered hplain]
    rfl
  refine ⟨sorted, ?_, ?_, sorts_of_isStableSort hplain hstable⟩
  · simp [MemoryStore.find, MemoryStore.matching, hsorted]
  · exact Distinct.runStages_cons "$sort" hstage []

theorem sorts_find_and_stage_mixed :
    let rows : List Document :=
      [[("id", .int 1), ("tag", .text "b")], [("id", .int 2), ("tag", .bool true)],
        [("id", .int 3)], [("id", .int 4), ("tag", .text "b")],
        [("id", .int 5), ("tag", .text "b"), ("at", .mapping [("day", .int 2)])]]
    let spec : SortSpec := [("tag", .descending), ("at.day", .ascending)]
    spec.orderBy = ["-tag", "at.day"] ∧
      spec.stageEntries = [("tag", .int (-1)), ("at.day", .int 1)] ∧
      ∃ sorted, MemoryStore.find ⟨[("people", rows)]⟩ Table.people ⟨none, spec.orderBy, 0, 0⟩ =
          .ok sorted ∧
        Pipeline.run [Distinct.stage "$sort" (.mapping spec.stageEntries)] rows = .ok sorted ∧
        spec.Sorts rows sorted := by
  intro rows spec
  have horderly : ∀ row ∈ rows, (Value.mapping row).Orderly false := by decide
  exact ⟨rfl, rfl, sorts_find_and_stage ⟨[("people", rows)]⟩ Table.people horderly
    (by decide) (by decide)⟩

end SortSpec

end DocGrid

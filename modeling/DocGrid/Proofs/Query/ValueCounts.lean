import DocGrid.Proofs.Order.StableSort
import DocGrid.Proofs.Pipeline.Paths
import DocGrid.Proofs.Query.Tally
import DocGrid.Proofs.Results
import DocGrid.Query.Reads
import DocGrid.Store.Memory

/-! The distinct values of a field. The stages of the pipeline take the lists apart, count the
values that remain and put the counts in order. -/

namespace DocGrid

namespace Value

/-- The items of a list, nothing for null, and otherwise the value itself. -/
def unpacked : Value → List Value
  | null => []
  | list items => items
  | v => [v]

/-- What remains of a value when lists in it are taken apart, up to a depth. -/
def flattened : Nat → Value → List Value
  | 0, v => [v]
  | _ + 1, null => []
  | depth + 1, list items => items.flatMap (flattened depth)
  | _ + 1, v => [v]

@[simp] theorem flattened_succ (depth : Nat) (v : Value) :
    v.flattened (depth + 1) = v.unpacked.flatMap (flattened depth) := by
  cases v <;> cases depth <;> simp [flattened, unpacked]

/-- What the items of a list have from the list, all that remains of a value has from the value. -/
theorem forall_flattened {P : Value → Prop} (hitem : ∀ items v, P (list items) → v ∈ items → P v)
    {v w : Value} (h : P v) {depth : Nat} (hw : w ∈ v.flattened depth) : P w := by
  induction depth generalizing v with
  | zero =>
    obtain rfl := List.mem_singleton.mp hw
    exact h
  | succ depth ih =>
    rw [flattened_succ, List.mem_flatMap] at hw
    obtain ⟨u, hu, hw⟩ := hw
    refine ih ?_ hw
    cases v with
    | null => cases hu
    | list items => exact hitem items u h hu
    | _ =>
      obtain rfl := List.mem_singleton.mp hu
      exact h

theorem Orderly.flattened {aware : Bool} {v w : Value} (h : v.Orderly aware) {depth : Nat}
    (hw : w ∈ v.flattened depth) : w.Orderly aware :=
  forall_flattened (fun _ _ hlist hv => hlist.item hv) h hw

theorem numbers_flattened {v w : Value} {depth : Nat} (hw : w ∈ v.flattened depth) :
    w.numbers ⊆ v.numbers :=
  forall_flattened (P := fun u => u.numbers ⊆ v.numbers)
    (fun _ _ hlist hu => List.Subset.trans (numbers_item hu) hlist) (List.Subset.refl _) hw

end Value

theorem Document.resolve_field (doc : Document) : doc.resolve "field" = doc.get? "field" :=
  resolve_of_notMem (by decide) doc

@[simp]
theorem fieldPath?_dollar (path : String) : fieldPath? (.text ("$" ++ path)) = some path := by
  have hchars : ("$" ++ path).toList = '$' :: path.toList := by simp
  simp only [fieldPath?, hchars, String.ofList_toList]

namespace Distinct

/-- The values that are found at a path, with the lists in them taken apart. -/
def occurrences (rows : List Document) (field : String) : List Value :=
  (rows.filterMap fun row => row.resolve field).flatMap (Value.flattened depth)

@[simp] theorem runStage_stage (name : String) (spec : Value) (docs : List Document) :
    Pipeline.runStage (stage name spec) docs = Stage.run name spec docs := rfl

theorem runStages_cons (name : String) {spec : Value} {docs outs : List Document}
    (h : Stage.run name spec docs = .ok outs) (rest : List Value) :
    Pipeline.runStages (stage name spec :: rest) docs = Pipeline.runStages rest outs := by
  rw [Pipeline.runStages, runStage_stage, h]
  rfl

/-- The values that documents have under the name that the pipeline gives the field. -/
def fieldValues (docs : List Document) : List Value :=
  docs.filterMap fun doc => doc.get? "field"

/-! Taking over the field. -/

/-- A document keeps its key next to the field. -/
theorem projectOne_field (field : String) (doc : Document) :
    ∃ out, Stage.projectOne (.mapping [("field", .text ("$" ++ field))]) doc = .ok out ∧
      out.get? "field" = doc.resolve field := by
  have hentries (kept : Document) (hkept : kept.get? "field" = none) :
      ∃ out, Stage.projectEntries doc [("field", .text ("$" ++ field))] kept = .ok out ∧
        out.get? "field" = doc.resolve field := by
    cases hv : doc.resolve field with
    | none =>
      refine ⟨kept, ?_, hkept⟩
      simp [Stage.projectEntries, Stage.projected, hv]
    | some v =>
      refine ⟨kept.put "field" v, ?_, by simp⟩
      simp [Stage.projectEntries, Stage.projected, hv]
  unfold Stage.projectOne
  cases doc.get? "_id" with
  | none => exact hentries [] rfl
  | some v => exact hentries [("_id", v)] rfl

theorem fieldValues_project (field : String) (docs : List Document) :
    ∃ outs, Stage.project (.mapping [("field", .text ("$" ++ field))]) docs = .ok outs ∧
      fieldValues outs = docs.filterMap fun doc => doc.resolve field := by
  obtain ⟨outs, hrun, houts⟩ := Result.mapM_forall fun (doc : Document) (_ : doc ∈ docs) =>
    projectOne_field field doc
  refine ⟨outs, hrun, ?_⟩
  clear hrun
  induction houts with
  | nil => rfl
  | cons h _ ih => simp only [fieldValues, List.filterMap_cons, h] at ih ⊢; rw [ih]

/-! Taking lists apart. -/

/-- The documents after some stages that take the field apart. -/
def unwound : Nat → List Document → List Document
  | 0, docs => docs
  | n + 1, docs => unwound n (docs.flatMap (Stage.unwindOne "field" false))

theorem unwind_field (docs : List Document) :
    Stage.unwind (.text "$field") docs = .ok (docs.flatMap (Stage.unwindOne "field" false)) := by
  rfl

theorem runStages_unwind (n : Nat) (rest : List Value) (docs : List Document) :
    Pipeline.runStages (List.replicate n (stage "$unwind" (.text "$field")) ++ rest) docs =
      Pipeline.runStages rest (unwound n docs) := by
  induction n generalizing docs with
  | zero => rfl
  | succ n ih =>
    rw [List.replicate_succ, List.cons_append, runStages_cons "$unwind" (unwind_field docs)]
    exact ih _

theorem unwindOne_field (doc : Document) : Stage.unwindOne "field" false doc =
    match doc.get? "field" with
    | none | some .null | some (.list []) => []
    | some (.list items) => items.map (doc.put "field")
    | some _ => [doc] := by
  simp only [Stage.unwindOne, Document.resolve_field]
  rfl

theorem fieldValues_unwindOne (doc : Document) : fieldValues (Stage.unwindOne "field" false doc) =
    (doc.get? "field").toList.flatMap Value.unpacked := by
  have hput (items : List Value) : fieldValues (items.map (doc.put "field")) = items := by
    simp [fieldValues, List.filterMap_map]
  have hkept (v : Value) (h : doc.get? "field" = some v) : fieldValues [doc] = [v] := by
    simp [fieldValues, h]
  rw [unwindOne_field]
  cases h : doc.get? "field" with
  | none => rfl
  | some v =>
    cases v with
    | list items =>
      cases items with
      | nil => rfl
      | cons item items => simpa [Value.unpacked] using hput (item :: items)
    | null => rfl
    | _ => simpa [Value.unpacked] using hkept _ h

theorem fieldValues_unwound (n : Nat) (docs : List Document) :
    fieldValues (unwound n docs) = (fieldValues docs).flatMap (Value.flattened n) := by
  have hone (docs : List Document) :
      fieldValues (docs.flatMap (Stage.unwindOne "field" false)) =
        (fieldValues docs).flatMap Value.unpacked := by
    induction docs with
    | nil => rfl
    | cons doc rest ih =>
      have hone := fieldValues_unwindOne doc
      simp only [fieldValues] at hone ih ⊢
      rw [List.flatMap_cons, List.filterMap_append, hone, ih, List.filterMap_cons]
      cases doc.get? "field" <;> simp
  induction n generalizing docs with
  | zero => simp [unwound, Value.flattened]
  | succ n ih =>
    have hflattened : Value.flattened (n + 1) =
        fun v => v.unpacked.flatMap (Value.flattened n) := funext (Value.flattened_succ n)
    rw [unwound, ih, hone, List.flatMap_assoc, hflattened]

/-- Documents without the field do not survive. -/
theorem get?_of_mem_unwindOne {doc out : Document}
    (hout : out ∈ Stage.unwindOne "field" false doc) : (out.get? "field").isSome := by
  rw [unwindOne_field] at hout
  split at hout
  · cases hout
  · cases hout
  · cases hout
  · obtain ⟨item, -, rfl⟩ := List.mem_map.mp hout
    simp
  · next v h =>
    obtain rfl := List.mem_singleton.mp hout
    simp [h]

theorem get?_of_mem_unwound {n : Nat} {docs : List Document} {doc : Document}
    (hdoc : doc ∈ unwound (n + 1) docs) : (doc.get? "field").isSome := by
  induction n generalizing docs with
  | zero =>
    obtain ⟨_, -, hdoc⟩ := List.mem_flatMap.mp hdoc
    exact get?_of_mem_unwindOne hdoc
  | succ n ih => exact ih hdoc

/-! Counting. -/

def group (c : ValueCount) : Stage.Group :=
  ⟨c.value, [("count", .int c.count)]⟩

theorem place_group (v : Value) (doc : Document) (counts : List ValueCount) :
    Stage.place [("count", .int 1)] v doc (counts.map group) =
      .ok ((countOne v counts).map group) := by
  induction counts with
  | nil => rfl
  | cons c rest ih =>
    simp only [List.map_cons, Stage.place, ih, countOne]
    cases h : c.value.sameGroup v <;> simp only [group, h] <;> rfl

theorem group_field (docs : List Document) (h : ∀ doc ∈ docs, (doc.get? "field").isSome) :
    Stage.group (.mapping [("_id", .text "$field"), ("count", .mapping [("$sum", .int 1)])]) docs =
      .ok ((countAll (fieldValues docs)).map fun c =>
        [("_id", c.value), ("count", .int c.count)]) := by
  have hfold (counts : List ValueCount) : docs.foldlM
      (fun groups doc => Stage.place [("count", .int 1)]
        ((doc.expression (.text "$field")).getD .null) doc groups) (counts.map group) =
      .ok (((fieldValues docs).foldl (fun counts v => countOne v counts) counts).map group) := by
    induction docs generalizing counts with
    | nil => rfl
    | cons doc rest ih =>
      obtain ⟨v, hv⟩ := Option.isSome_iff_exists.mp (h doc (by simp))
      have hid : doc.expression (.text "$field") = some v := by
        rw [← hv]
        exact Document.resolve_field doc
      rw [List.foldlM_cons, hid, Option.getD_some, place_group]
      have hvalues : fieldValues (doc :: rest) = v :: fieldValues rest := by
        simp [fieldValues, hv]
      rw [hvalues]
      exact ih (fun d hd => h d (List.mem_cons_of_mem _ hd)) _
  refine (congrArg (Except.map (List.map Stage.Group.document)) (hfold [])).trans ?_
  rw [Result.map_ok, List.map_map]
  rfl

/-! Naming the counts and putting them in order. -/

def record (c : ValueCount) : Document :=
  [("count", .int c.count), ("value", c.value)]

theorem project_counts (counts : List ValueCount) :
    Stage.project (.mapping
      [("_id", .bool false), ("count", .text "$count"), ("value", .text "$_id")])
        (counts.map fun c => [("_id", c.value), ("count", .int c.count)]) =
      .ok (counts.map record) := by
  rw [Stage.project, List.mapM_map]
  exact Result.mapM_of_ok fun c _ => rfl

theorem sort_counts {counts : List ValueCount}
    (h : ∀ c ∈ counts, ∀ d ∈ counts,
      (SortKey.compare? c.value.sortKey d.value.sortKey).isSome)
    (hp : ∀ c ∈ counts, SortKey.Proper c.value.sortKey.numbers) :
    ∃ sorted, Stage.sort (.mapping [("value", .int 1)]) (counts.map record) =
        .ok (sorted.map record) ∧
      IsStableSort (keyVerdict (fun c => c.value.sortKey) false) counts sorted := by
  let key (doc : Document) : SortKey := ((doc.resolve "value").getD .null).sortKey
  have hrecords : ∀ a ∈ counts.map record, ∀ b ∈ counts.map record,
      (SortKey.compare? (key a) (key b)).isSome := by
    simp only [List.forall_mem_map]
    exact h
  have hsort : Stage.sort (.mapping [("value", .int 1)]) (counts.map record) =
      Stage.sortOne "value" false (counts.map record) := rfl
  refine ⟨_, ?_, isStableSort_sortByKey? (sortByKey?_of_comparable h) hp⟩
  rw [hsort, Stage.sortOne, sortByKey?_of_comparable hrecords]
  exact congrArg Except.ok (List.map_mergeSort (f := record) fun _ _ _ _ => rfl).symm

theorem ofValue_record {c : ValueCount} (h : 1 ≤ c.count) :
    ValueCount.ofValue (.mapping (record c)) = .ok c := by
  have hvalue : Check.required (record c) "value" some = .ok c.value := rfl
  have hcount : Check.required (record c) "count" ValueCount.positive? = .ok c.count := by
    change Check.read ValueCount.positive? "count" (.int c.count) = _
    simp [Check.read, ValueCount.positive?, Loose.int?, Value.int, h]
  change (ValueCount.mk <$> Check.required (record c) "value" some
    <*> Check.required (record c) "count" ValueCount.positive?).result = _
  rw [hvalue, hcount]
  rfl

/-- The pipeline puts the counts of the occurrences in order. -/
theorem runStages_pipeline (rows : List Document) (field : String) :
    Pipeline.runStages (pipeline field) rows =
      Stage.sort (.mapping [("value", .int 1)])
        ((countAll (occurrences rows field)).map record) := by
  obtain ⟨outs, hproject, hfield⟩ := fieldValues_project field rows
  have hvalues : fieldValues (unwound depth outs) = occurrences rows field := by
    rw [fieldValues_unwound, hfield, occurrences]
  have hgroup := group_field (unwound depth outs) fun doc hdoc =>
    get?_of_mem_unwound (n := 5) hdoc
  rw [hvalues] at hgroup
  rw [pipeline, List.cons_append, runStages_cons "$project" hproject, runStages_unwind,
    runStages_cons "$group" hgroup, runStages_cons "$project" (project_counts _),
    Pipeline.runStages, runStage_stage]
  exact bind_pure _

theorem exists_tally {vs : List Value} (hproper : ∀ v ∈ vs, SortKey.Proper v.numbers)
    (hcomparable : ∀ v ∈ vs, ∀ w ∈ vs, (SortKey.compare? v.sortKey w.sortKey).isSome) :
    ∃ counts, Stage.sort (.mapping [("value", .int 1)]) ((countAll vs).map record) =
        .ok (counts.map record) ∧ IsTally vs counts ∧
      counts.Pairwise fun c d => SortKey.compare? c.value.sortKey d.value.sortKey = some .lt := by
  have htally := isTally_countAll hproper
  obtain ⟨sorted, hsort, hstable⟩ := sort_counts
    (fun c hc d hd => hcomparable _ (htally.occurs c hc) _ (htally.occurs d hd)) fun c hc => by
      rw [Value.numbers_sortKey]
      exact hproper _ (htally.occurs c hc)
  have hsorted := htally.perm hstable.perm
  refine ⟨sorted, hsort, hsorted, ?_⟩
  -- Values that are apart are not tied, so that ascending is strictly ascending.
  refine (hstable.ascending.and hsorted.apart).imp_of_mem fun {c d} hc hd ⟨hle, hapart⟩ => ?_
  refine (Verdict.isLE_iff.mp hle).resolve_right fun heq => ?_
  have hsame := (Value.sameGroup_iff _ _ (hproper _ (hsorted.occurs c hc))
    (hproper _ (hsorted.occurs d hd))).mpr heq
  rw [hsame] at hapart
  cases hapart

end Distinct

namespace MemoryStore

open Distinct

theorem valueCounts_of_sort {s : MemoryStore} {t : Table} {field : String}
    {counts : List ValueCount} (hsort : Stage.sort (.mapping [("value", .int 1)])
      ((countAll (occurrences (s.rows t) field)).map record) = .ok (counts.map record))
    (hcounts : ∀ c ∈ counts, 1 ≤ c.count) :
    (access.toReader.valueCounts t field).run s = (.ok counts, s) := by
  have hreads : ((counts.map record).map Value.mapping).mapM ValueCount.ofValue = .ok counts := by
    rw [List.map_map, List.mapM_map]
    refine (Result.mapM_of_ok (g := id) fun c hc => ?_).trans (by rw [List.map_id])
    exact ofValue_record (hcounts c hc)
  have haggregate : s.aggregate t (.list (pipeline field)) =
      .ok ((counts.map record).map Value.mapping) := by
    change Except.map _ (Pipeline.runStages (pipeline field) (s.rows t)) = _
    rw [runStages_pipeline, hsort]
    rfl
  change ((s.aggregate t (.list (pipeline field))).bind fun vs => vs.mapM ValueCount.ofValue, s) = _
  rw [haggregate]
  exact congrArg (·, s) hreads

theorem valueCounts_exact {aware : Bool} (s : MemoryStore) (t : Table) (field : String)
    (h : ∀ row ∈ s.rows t, (Value.mapping row).Orderly aware) :
    ∃ counts, (access.toReader.valueCounts t field).run s = (.ok counts, s) ∧
      (counts.Pairwise fun c d => SortKey.compare? c.value.sortKey d.value.sortKey = some .lt) ∧
      (∀ c ∈ counts, 1 ≤ c.count ∧ c.value ∈ occurrences (s.rows t) field ∧
        c.count = (occurrences (s.rows t) field).countP fun v => c.value.sameGroup v) ∧
      (∀ v ∈ occurrences (s.rows t) field, ∃! c, c ∈ counts ∧ c.value.sameGroup v = true) ∧
      (counts.map (·.count)).sum = (occurrences (s.rows t) field).length := by
  have horderly : ∀ v ∈ occurrences (s.rows t) field, v.Orderly aware := by
    intro v hv
    obtain ⟨u, hu, hv⟩ := List.mem_flatMap.mp hv
    obtain ⟨row, hrow, hu⟩ := List.mem_filterMap.mp hu
    exact ((h row hrow).follow hu).flattened hv
  have hproper : ∀ v ∈ occurrences (s.rows t) field, SortKey.Proper v.numbers :=
    fun v hv => (horderly v hv).proper
  obtain ⟨counts, hsort, htally, hascending⟩ := exists_tally hproper fun v hv w hw =>
    (horderly v hv).compare?_isSome (horderly w hw)
  exact ⟨counts, valueCounts_of_sort hsort fun c hc => htally.one_le_count hproper hc, hascending,
    fun c hc => ⟨htally.one_le_count hproper hc, htally.occurs c hc, htally.counted c hc⟩,
    fun v hv => htally.existsUnique hproper hv, htally.total⟩

theorem valueCounts_exact_nested :
    let rows : List Document :=
      [[("tags", .list [.list [.text "b", .text "a"], .null, .text "a"])], [("tags", .text "b")],
        [("tags", .list [])], [("tags", .mapping [("a", .int 1)])], [("name", .text "a")]]
    let values : List Value :=
      [.text "b", .text "a", .text "a", .text "b", .mapping [("a", .int 1)]]
    occurrences rows "tags" = values ∧ (∀ row ∈ rows, (Value.mapping row).Orderly false) ∧
      ∃ counts, (access.toReader.valueCounts Table.people "tags").run ⟨[("people", rows)]⟩ =
          (.ok counts, ⟨[("people", rows)]⟩) ∧
        (counts.Pairwise fun c d =>
          SortKey.compare? c.value.sortKey d.value.sortKey = some .lt) ∧
        (∀ c ∈ counts, 1 ≤ c.count ∧ c.value ∈ values ∧
          c.count = values.countP fun v => c.value.sameGroup v) ∧
        (∀ v ∈ values, ∃! c, c ∈ counts ∧ c.value.sameGroup v = true) ∧
        (counts.map (·.count)).sum = values.length := by
  intro rows values
  have horderly : ∀ row ∈ rows, (Value.mapping row).Orderly false := by decide
  exact ⟨rfl, horderly, valueCounts_exact ⟨[("people", rows)]⟩ Table.people "tags" horderly⟩

end MemoryStore

end DocGrid

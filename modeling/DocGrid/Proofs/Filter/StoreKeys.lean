import DocGrid.Filter.StoreQuery
import DocGrid.Proofs.Terms.Compile

/-! The keys of the store query of a filter text. Apart from the operators of its fixed form they
are the fields that the text names, and a name is taken over as it is, whatever it starts with. -/

namespace DocGrid

namespace Value

mutual

def allKeys : Value → List String
  | .list items => keysOfItems items
  | .mapping entries => keysOfEntries entries
  | _ => []

def keysOfItems : List Value → List String
  | [] => []
  | v :: rest => allKeys v ++ keysOfItems rest

def keysOfEntries : List (String × Value) → List String
  | [] => []
  | (key, v) :: rest => key :: (allKeys v ++ keysOfEntries rest)

end

@[simp]
theorem keysOfItems_eq (items : List Value) : keysOfItems items = items.flatMap allKeys := by
  induction items with
  | nil => rfl
  | cons v rest ih => simp [keysOfItems, ih]

end Value

/-- The keys that a document store takes for operators. -/
def IsOperatorKey (key : String) : Prop :=
  key.toList.head? = some '$'

namespace Filter

inductive IsFieldQuery : Value → Prop
  | text (value : String) : IsFieldQuery (.text value)
  | pattern (text : String) : IsFieldQuery (.mapping [("$regex", .text text)])
  | patternIgnoringCase (text : String) :
      IsFieldQuery (.mapping [("$regex", .text text), ("$options", .text "i")])
  | comparison (op : Operator) (value : String) :
      IsFieldQuery (.mapping [("$" ++ op.name, .text value)])
  | comparisonOfMany (op : Operator) (values : List String) :
      IsFieldQuery (.mapping [("$" ++ op.name, .list (values.map .text))])

def groupedQuery (groups : List (List (String × Value))) : Document :=
  [("$or", .list (groups.map fun group =>
    .mapping [("$and", .list (group.map fun entry => .mapping [entry]))]))]

def operatorKeys : List String :=
  ["$or", "$and", "$regex", "$options"] ++ Operator.all.map fun op => "$" ++ op.name

/-- The fields of the clauses of a text that state a condition, in their order. -/
def namedFields (terms : String) : List String :=
  ((clauseRows terms).flatten.filter fun c => c.leaf?.isSome).map (·.field)

@[simp] theorem toQueries_eq (filters : List Filter) :
    toQueries filters = filters.map fun f => .mapping f.toQuery := by
  induction filters with
  | nil => rfl
  | cons f rest ih => simp [toQueries, ih]

theorem operandOf_value (first : String) (more : List String) :
    (Clause.operandOf (first :: more)).value = .text first ∨
      (Clause.operandOf (first :: more)).value = .list ((first :: more).map .text) := by
  cases more with
  | nil => exact .inl rfl
  | cons second more =>
    refine .inr ?_
    simp [Clause.operandOf, Operand.value, Item.value]

theorem toQuery_leaf {c : Clause} {f : Filter} (hs : c.Shape) (h : c.leaf? = some f) :
    ∃ v, f.toQuery = [(c.field, v)] ∧ IsFieldQuery v := by
  cases hs.hasLeaf h with
  | equals field value _ => exact ⟨_, rfl, .text value⟩
  | wholePattern field value _ => exact ⟨_, rfl, .patternIgnoringCase _⟩
  | contains field value flags _ =>
    -- The flag only adds options to the query of the pattern.
    cases flags == some Clause.ignoreCaseFlag with
    | false => exact ⟨_, rfl, .pattern value⟩
    | true => exact ⟨_, rfl, .patternIgnoringCase value⟩
  | compare field op first more =>
    refine ⟨_, rfl, ?_⟩
    rcases operandOf_value first more with he | he
    · rw [he]
      exact .comparison op first
    · rw [he]
      exact .comparisonOfMany op (first :: more)

section Row

variable {row : List Clause} (hs : ∀ c ∈ row, c.Shape)

include hs

theorem toQueries_row : toQueries (row.filterMap Clause.leaf?) =
    ((row.filterMap Clause.leaf?).flatMap toQuery).map fun entry => .mapping [entry] := by
  rw [toQueries_eq, List.map_flatMap, ← List.flatMap_singleton' (List.map _ _), List.flatMap_map]
  refine List.flatMap_congr fun f hf => ?_
  obtain ⟨c, hc, hl⟩ := List.mem_filterMap.mp hf
  obtain ⟨v, hv, -⟩ := toQuery_leaf (hs c hc) hl
  simp [hv]

theorem keys_row : ((row.filterMap Clause.leaf?).flatMap toQuery).map (·.1) =
    (row.filter fun c => c.leaf?.isSome).map (·.field) := by
  induction row with
  | nil => rfl
  | cons c row ih =>
    have hi := ih fun d hd => hs d (List.mem_cons_of_mem _ hd)
    cases hl : c.leaf? with
    | none => simpa [hl] using hi
    | some f =>
      obtain ⟨v, hv, -⟩ := toQuery_leaf (hs c (by simp)) hl
      simpa [hl, hv] using hi

theorem isFieldQuery_row :
    ∀ entry ∈ (row.filterMap Clause.leaf?).flatMap toQuery, IsFieldQuery entry.2 := by
  intro entry he
  obtain ⟨f, hf, he⟩ := List.mem_flatMap.mp he
  obtain ⟨c, hc, hl⟩ := List.mem_filterMap.mp hf
  obtain ⟨v, hv, hq⟩ := toQuery_leaf (hs c hc) hl
  rw [hv] at he
  obtain rfl := List.mem_singleton.mp he
  exact hq

end Row

theorem shape_of_mem_clauseRows {terms : String} {row : List Clause}
    (hrow : row ∈ clauseRows terms) : ∀ c ∈ row, c.Shape := by
  intro c hc
  obtain ⟨field, -, hr⟩ := regular_of_mem_clauseRows hrow hc
  exact hr.shape

theorem isFieldName_namedFields {terms name : String} (h : name ∈ namedFields terms) :
    IsFieldName name := by
  obtain ⟨c, hc, rfl⟩ := List.mem_map.mp h
  obtain ⟨row, hrow, hc⟩ := List.mem_flatten.mp (List.mem_filter.mp hc).1
  obtain ⟨field, hf, hr⟩ := regular_of_mem_clauseRows hrow hc
  exact hr.field_eq ▸ hf

theorem allKeys_fieldQuery {v : Value} (h : IsFieldQuery v) :
    ∀ key ∈ v.allKeys, key ∈ operatorKeys := by
  have hname (op : Operator) : "$" ++ op.name ∈ operatorKeys := by
    cases op <;> decide
  have htexts (values : List String) : Value.keysOfItems (values.map .text) = [] := by
    simp [Value.allKeys]
  intro key hk
  cases h with
  | text value => cases hk
  | pattern text =>
    obtain rfl : key = "$regex" := by simpa [Value.allKeys, Value.keysOfEntries] using hk
    decide
  | patternIgnoringCase text =>
    obtain rfl | rfl : key = "$regex" ∨ key = "$options" := by
      simpa [Value.allKeys, Value.keysOfEntries] using hk
    · decide
    · decide
  | comparison op value =>
    obtain rfl : key = "$" ++ op.name := by simpa [Value.allKeys, Value.keysOfEntries] using hk
    exact hname op
  | comparisonOfMany op values =>
    obtain rfl : key = "$" ++ op.name := by
      simpa [Value.allKeys, Value.keysOfEntries, htexts] using hk
    exact hname op

theorem allKeys_groupedQuery {groups : List (List (String × Value))}
    (h : ∀ group ∈ groups, ∀ entry ∈ group, IsFieldQuery entry.2) :
    ∀ key ∈ (Value.mapping (groupedQuery groups)).allKeys,
      key ∈ operatorKeys ∨ key ∈ groups.flatten.map (·.1) := by
  intro key hk
  simp only [groupedQuery, Value.allKeys, Value.keysOfEntries, Value.keysOfItems_eq,
    List.append_nil, List.mem_cons, List.mem_flatMap, List.mem_map] at hk
  rcases hk with rfl | ⟨v, ⟨group, hg, rfl⟩, hk⟩
  · exact .inl (by decide)
  · simp only [Value.allKeys, Value.keysOfEntries, Value.keysOfItems_eq, List.append_nil,
      List.mem_cons, List.mem_flatMap, List.mem_map] at hk
    rcases hk with rfl | ⟨v, ⟨entry, he, rfl⟩, hk⟩
    · exact .inl (by decide)
    · obtain ⟨name, v⟩ := entry
      simp only [Value.allKeys, Value.keysOfEntries, List.append_nil, List.mem_cons] at hk
      rcases hk with rfl | hk
      · exact .inr (List.mem_map.mpr ⟨_, List.mem_flatten.mpr ⟨group, hg, he⟩, rfl⟩)
      · exact .inl (allKeys_fieldQuery (h group hg _ he) key hk)

def entryRows (terms : String) : List (List (String × Value)) :=
  (conditionRows terms).map fun leaves => leaves.flatMap toQuery

theorem entryRows_keys (terms : String) :
    (entryRows terms).flatten.map (·.1) = namedFields terms := by
  have hs : ∀ c ∈ (clauseRows terms).flatten, c.Shape := fun c hc => by
    obtain ⟨row, hrow, hc⟩ := List.mem_flatten.mp hc
    exact shape_of_mem_clauseRows hrow c hc
  have hflat : (entryRows terms).flatten = (conditionRows terms).flatten.flatMap toQuery := by
    simp only [entryRows, List.flatMap_def, List.map_flatten, List.flatten_flatten, List.map_map]
    rfl
  rw [hflat, conditionRows_flatten, keys_row hs, namedFields]

theorem mem_entryRows {terms : String} {group : List (String × Value)}
    (h : group ∈ entryRows terms) : group ≠ [] ∧ ∀ entry ∈ group, IsFieldQuery entry.2 := by
  obtain ⟨leaves, hl, rfl⟩ := List.mem_map.mp h
  obtain ⟨hne, row, hrow, rfl⟩ := mem_conditionRows hl
  have hs := shape_of_mem_clauseRows hrow
  refine ⟨?_, isFieldQuery_row hs⟩
  obtain ⟨f, hf⟩ := List.exists_mem_of_ne_nil _ hne
  obtain ⟨c, hc, hcl⟩ := List.mem_filterMap.mp hf
  obtain ⟨v, hv, -⟩ := toQuery_leaf (hs c hc) hcl
  exact List.ne_nil_of_mem (List.mem_flatMap.mpr ⟨f, hf, hv ▸ List.mem_singleton.mpr rfl⟩)

theorem toQuery_eq_groupedQuery (terms : String) :
    (any ((conditionRows terms).map .all)).toQuery = groupedQuery (entryRows terms) := by
  have hgroups : toQueries ((conditionRows terms).map .all) = (entryRows terms).map fun group =>
      .mapping [("$and", .list (group.map fun entry => .mapping [entry]))] := by
    rw [toQueries_eq, entryRows, List.map_map, List.map_map]
    refine List.map_congr_left fun leaves hl => ?_
    obtain ⟨-, row, hrow, rfl⟩ := mem_conditionRows hl
    simp only [Function.comp_apply, toQuery, toQueries_row (shape_of_mem_clauseRows hrow)]
  rw [toQuery, hgroups, groupedQuery]

/-- The query of a filter text has a fixed form around the fields that the text names. -/
theorem toQuery_ofTerms {terms : String} {f : Filter} (h : ofTerms terms = .ok (some f)) :
    ∃ groups : List (List (String × Value)), groups ≠ [] ∧ f.toQuery = groupedQuery groups ∧
      (∀ group ∈ groups, group ≠ [] ∧ ∀ entry ∈ group, IsFieldQuery entry.2) ∧
      groups.flatten.map (·.1) = namedFields terms ∧
      (∀ name ∈ namedFields terms, IsFieldName name) ∧
      ∀ key ∈ (Value.mapping f.toQuery).allKeys,
        key ∈ operatorKeys ∨ key ∈ namedFields terms := by
  obtain ⟨hne, rfl⟩ := eq_any_of_ofTerms h
  refine ⟨entryRows terms, by simpa [entryRows] using hne, toQuery_eq_groupedQuery terms,
    fun group hg => mem_entryRows hg, entryRows_keys terms, fun _ => isFieldName_namedFields, ?_⟩
  intro key hk
  rw [toQuery_eq_groupedQuery] at hk
  rw [← entryRows_keys]
  exact allKeys_groupedQuery (fun group hg => (mem_entryRows hg).2) key hk

theorem toQuery_ofTerms_dollar_field :
    ∃ groups : List (List (String × Value)), groups ≠ [] ∧
      (any [all [.comparison "$where" .equal (.text "1")]]).toQuery = groupedQuery groups ∧
      (∀ group ∈ groups, group ≠ [] ∧ ∀ entry ∈ group, IsFieldQuery entry.2) ∧
      groups.flatten.map (·.1) = namedFields "$where(eq:1)" ∧
      (∀ name ∈ namedFields "$where(eq:1)", IsFieldName name) ∧
      ∀ key ∈ (Value.mapping
        (any [all [.comparison "$where" .equal (.text "1")]]).toQuery).allKeys,
        key ∈ operatorKeys ∨ key ∈ namedFields "$where(eq:1)" :=
  toQuery_ofTerms (by rfl)

/-- A field may be named like an operator, and then stands where one could stand. -/
theorem not_only_operatorKeys :
    ¬∀ terms f, ofTerms terms = .ok (some f) →
      ∀ key ∈ (Value.mapping f.toQuery).allKeys, IsOperatorKey key → key ∈ operatorKeys := by
  intro h
  have hf : ofTerms "$where(eq:1)" =
      .ok (some (any [all [.comparison "$where" .equal (.text "1")]])) := by rfl
  have hkey : "$where" ∈ (Value.mapping
      (any [all [.comparison "$where" .equal (.text "1")]]).toQuery).allKeys := by decide
  have hdollar : IsOperatorKey "$where" := by
    show "$where".toList.head? = some '$'
    decide
  exact absurd (h _ _ hf "$where" hkey hdollar) (by decide)

end Filter

end DocGrid

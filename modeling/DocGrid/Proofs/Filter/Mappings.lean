import DocGrid.Filter.Model
import Mathlib.Data.List.Basic

/-! Filters as mappings. A mapping that names the kind of a filter and has the fields of that kind
is read as the filter, whatever else is in it and in which order. -/

namespace DocGrid

@[simp] theorem Item.ofValue?_value (i : Item) : Item.ofValue? i.value = some i := by
  cases i <;> rfl

@[simp] theorem Operand.ofValue?_value (operand : Operand) :
    Operand.ofValue? operand.value = some operand := by
  cases operand with
  | item i => cases i <;> rfl
  | list items =>
    have hitems : Loose.allOf Item.ofValue? (items.map Item.value) = some items := by
      induction items with
      | nil => rfl
      | cons i rest ih =>
        rw [List.map_cons, Loose.allOf, Item.ofValue?_value, ih]
        rfl
    simp only [Operand.value, Operand.ofValue?, hitems, Option.map_some]
  | _ => rfl

theorem Operator.ofName?_name (op : Operator) : Operator.ofName? op.name = some op := by
  cases op <;> decide

namespace Filter

/-- A mapping that names the kind of a filter and has its fields. -/
inductive Describes : Value → Filter → Prop
  | equals {doc : Document} {field : String} {operand : Operand}
      (kind : doc.get? "type" = some (.text "equals"))
      (field_eq : doc.get? "field" = some (.text field))
      (value_eq : doc.get? "value" = some operand.value) :
      Describes (.mapping doc) (.equals field operand)
  | pattern {doc : Document} {field text : String} {ignoreCase : Bool}
      (kind : doc.get? "type" = some (.text "pattern"))
      (field_eq : doc.get? "field" = some (.text field))
      (pattern_eq : doc.get? "pattern" = some (.text text))
      (case_eq : doc.get? "case_insensitive" = some (.bool ignoreCase)) :
      Describes (.mapping doc) (.pattern field text ignoreCase)
  | comparison {doc : Document} {field : String} {op : Operator} {operand : Operand}
      (kind : doc.get? "type" = some (.text "comparison"))
      (field_eq : doc.get? "field" = some (.text field))
      (op_eq : doc.get? "op" = some (.text op.name))
      (value_eq : doc.get? "value" = some operand.value) :
      Describes (.mapping doc) (.comparison field op operand)
  | search {doc : Document} {terms : String} {options : Document}
      (kind : doc.get? "type" = some (.text "text"))
      (search_eq : doc.get? "search" = some (.text terms))
      (options_eq : doc.get? "options" = some (.mapping options)) :
      Describes (.mapping doc) (.search terms options)
  | all {doc : Document} {values : List Value} {filters : List Filter}
      (kind : doc.get? "type" = some (.text "and"))
      (filters_eq : doc.get? "filters" = some (.list values))
      (length_eq : values.length = filters.length)
      (parts : ∀ e ∈ values.zip filters, Describes e.1 e.2) :
      Describes (.mapping doc) (.all filters)
  | any {doc : Document} {values : List Value} {filters : List Filter}
      (kind : doc.get? "type" = some (.text "or"))
      (filters_eq : doc.get? "filters" = some (.list values))
      (length_eq : values.length = filters.length)
      (parts : ∀ e ∈ values.zip filters, Describes e.1 e.2) :
      Describes (.mapping doc) (.any filters)

/-! Reading a mapping that names its kind: only the candidate of that kind is left. -/

variable {doc : Document} {kind : String} {f : Filter}

theorem leaf?_of_kind (h : doc.get? "type" = some (.text kind)) (names : List String) :
    leaf? doc kind names (.ok f) = some ⟨f, countOf doc ("type" :: names)⟩ := by
  simp [leaf?, h, Value.text?]

theorem leaf?_of_other_kind {other : String} (h : doc.get? "type" = some (.text other))
    (hne : other ≠ kind) (names : List String) (check : Check Filter) :
    leaf? doc kind names check = none := by
  simp [leaf?, h, Value.text?, hne]

@[simp] theorem better_none (a : Option Candidate) : better a none = a := by
  cases a <;> rfl

@[simp] theorem none_better (b : Option Candidate) : better none b = b := by
  cases b <;> rfl

theorem partsIn?_eq (doc : Document) : partsIn? doc = (doc.get? "filters").bind parts? := by
  induction doc with
  | nil => rfl
  | cons e rest ih =>
    obtain ⟨k, v⟩ := e
    rw [partsIn?, Document.get?, ih]
    split <;> rfl

theorem branchOf_of_leaf_kind (h : doc.get? "type" = some (.text kind)) (hand : kind ≠ "and")
    (hor : kind ≠ "or") (parts : List Candidate) : branchOf doc parts = none := by
  simp only [branchOf, leaf?_of_other_kind h hand, leaf?_of_other_kind h hor]
  rfl

/-- A mapping that names a kind without parts and passes the check of that kind. -/
theorem candidate?_leaf (h : doc.get? "type" = some (.text kind))
    (hcheck : kind = "equals" ∧ checkEquals doc = .ok f ∨
      kind = "pattern" ∧ checkPattern doc = .ok f ∨
      kind = "comparison" ∧ checkComparison doc = .ok f ∨
      kind = "text" ∧ checkSearch doc = .ok f) :
    ∃ n, candidate? (.mapping doc) = some ⟨f, n⟩ := by
  have hleaf : ∃ n, leafOf doc = some ⟨f, n⟩ := by
    rcases hcheck with ⟨rfl, hc⟩ | ⟨rfl, hc⟩ | ⟨rfl, hc⟩ | ⟨rfl, hc⟩ <;>
      simp only [leafOf, hc, leaf?_of_kind h, ne_eq, String.reduceEq, not_false_eq_true,
        leaf?_of_other_kind h, better_none, none_better] <;>
      exact ⟨_, rfl⟩
  have hbranch : (partsIn? doc).bind (branchOf doc) = none := by
    cases partsIn? doc with
    | none => rfl
    | some parts =>
      refine branchOf_of_leaf_kind h ?_ ?_ parts <;>
        rcases hcheck with ⟨rfl, -⟩ | ⟨rfl, -⟩ | ⟨rfl, -⟩ | ⟨rfl, -⟩ <;> decide
  obtain ⟨n, hn⟩ := hleaf
  exact ⟨n, by rw [candidate?, hbranch, hn, better_none]⟩

theorem candidates?_eq {values : List Value} {filters : List Filter}
    (hlength : values.length = filters.length)
    (h : ∀ e ∈ values.zip filters, ∃ n, candidate? e.1 = some ⟨e.2, n⟩) :
    ∃ parts, candidates? values = some parts ∧ parts.map (·.filter) = filters := by
  induction values generalizing filters with
  | nil =>
    obtain rfl := List.length_eq_zero_iff.mp hlength.symm
    exact ⟨[], rfl, rfl⟩
  | cons v rest ih =>
    obtain ⟨f, more, rfl⟩ := List.exists_cons_of_length_eq_add_one hlength.symm
    rw [List.zip_cons_cons, List.forall_mem_cons] at h
    obtain ⟨⟨n, hv⟩, hrest⟩ := h
    obtain ⟨parts, hparts, hfilters⟩ := ih (Nat.succ.inj hlength) hrest
    refine ⟨⟨f, n⟩ :: parts, ?_, by rw [List.map_cons, hfilters]⟩
    rw [candidates?, hv, hparts]

/-- A mapping with parts is one of the two kinds that have parts. -/
theorem candidate?_branch {values : List Value} {filters : List Filter}
    (hkind : kind = "and" ∧ f = .all filters ∨ kind = "or" ∧ f = .any filters)
    (h : doc.get? "type" = some (.text kind)) (hvalues : doc.get? "filters" = some (.list values))
    (hlength : values.length = filters.length)
    (hparts : ∀ e ∈ values.zip filters, ∃ n, candidate? e.1 = some ⟨e.2, n⟩) :
    ∃ n, candidate? (.mapping doc) = some ⟨f, n⟩ := by
  obtain ⟨parts, hcandidates, hfilters⟩ := candidates?_eq hlength hparts
  have hin : partsIn? doc = some parts := by
    rw [partsIn?_eq, hvalues]
    exact hcandidates
  have hleaf : leafOf doc = none := by
    rcases hkind with ⟨rfl, -⟩ | ⟨rfl, -⟩ <;> simp [leafOf, leaf?_of_other_kind h, better]
  rw [candidate?, hleaf, none_better, hin, Option.bind_some]
  rcases hkind with ⟨rfl, rfl⟩ | ⟨rfl, rfl⟩ <;>
    simp only [branchOf, leaf?_of_kind h, ne_eq, String.reduceEq, not_false_eq_true,
      leaf?_of_other_kind h, hfilters] <;>
    exact ⟨_, rfl⟩

/-- Every mapping that describes a filter is read as it. -/
theorem Describes.candidate?_eq {v : Value} (h : Describes v f) :
    ∃ n, candidate? v = some ⟨f, n⟩ := by
  induction h with
  | @equals doc field operand kind field_eq value_eq =>
    have hcheck : checkEquals doc = .ok (.equals field operand) := by
      simp only [checkEquals, Check.required, field_eq, value_eq, Check.read,
        Operand.ofValue?_value]
      rfl
    exact candidate?_leaf kind (.inl ⟨rfl, hcheck⟩)
  | @pattern doc field text ignoreCase kind field_eq pattern_eq case_eq =>
    have hcheck : checkPattern doc = .ok (.pattern field text ignoreCase) := by
      simp only [checkPattern, Check.required, Check.optional, field_eq, pattern_eq, case_eq,
        Check.read]
      rfl
    exact candidate?_leaf kind (.inr (.inl ⟨rfl, hcheck⟩))
  | @comparison doc field op operand kind field_eq op_eq value_eq =>
    have hop : operator? (.text op.name) = some op := Operator.ofName?_name op
    have hcheck : checkComparison doc = .ok (.comparison field op operand) := by
      simp only [checkComparison, Check.required, field_eq, op_eq, value_eq, Check.read, hop,
        Operand.ofValue?_value]
      rfl
    exact candidate?_leaf kind (.inr (.inr (.inl ⟨rfl, hcheck⟩)))
  | @search doc terms options kind search_eq options_eq =>
    have hcheck : checkSearch doc = .ok (.search terms options) := by
      simp only [checkSearch, Check.required, Check.optional, search_eq, options_eq, Check.read]
      rfl
    exact candidate?_leaf kind (.inr (.inr (.inr ⟨rfl, hcheck⟩)))
  | all kind filters_eq length_eq _ ih =>
    exact candidate?_branch (.inl ⟨rfl, rfl⟩) kind filters_eq length_eq ih
  | any kind filters_eq length_eq _ ih =>
    exact candidate?_branch (.inr ⟨rfl, rfl⟩) kind filters_eq length_eq ih

/-! Filters as mappings describe themselves. -/

theorem length_toValues (filters : List Filter) : (toValues filters).length = filters.length := by
  induction filters with
  | nil => rfl
  | cons f rest ih => rw [toValues, List.length_cons, List.length_cons, ih]

mutual

theorem describes_toValue (f : Filter) : Describes f.toValue f := by
  cases f with
  | equals field operand => exact .equals rfl rfl rfl
  | pattern field text ignoreCase => exact .pattern rfl rfl rfl rfl
  | comparison field op operand => exact .comparison rfl rfl rfl rfl
  | search terms options => exact .search rfl rfl rfl
  | all filters => exact .all rfl rfl (length_toValues filters) (describes_toValues filters)
  | any filters => exact .any rfl rfl (length_toValues filters) (describes_toValues filters)

theorem describes_toValues (filters : List Filter) :
    ∀ e ∈ (toValues filters).zip filters, Describes e.1 e.2 := by
  cases filters with
  | nil => simp
  | cons f rest =>
    rw [toValues, List.zip_cons_cons, List.forall_mem_cons]
    exact ⟨describes_toValue f, describes_toValues rest⟩

end

/-- A filter comes back from its mapping with all parts, kinds and values as they were. -/
theorem ofValue?_toValue (f : Filter) : ofValue? f.toValue = some f := by
  obtain ⟨n, hn⟩ := (describes_toValue f).candidate?_eq
  rw [ofValue?, hn, Option.map_some]

example : (all [equals "a" (.bool true), any []]).toValue =
    .mapping [("type", .text "and"), ("filters", .list
      [.mapping [("type", .text "equals"), ("field", .text "a"), ("value", .bool true)],
        .mapping [("type", .text "or"), ("filters", .list [])]])] := rfl

end Filter
end DocGrid

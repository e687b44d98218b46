import DocGrid.Proofs.Filter.KeyOrder
import DocGrid.Proofs.Filter.Mappings
import DocGrid.Proofs.Filter.ReorderedParts
import DocGrid.Proofs.Filter.StoreKeys
import DocGrid.Proofs.Terms.Fragments

/-! Filters told apart by their store queries. Two filters have one query, up to the order of its
keys, exactly if they agree node by node. Only searches that have an option named like the text of
the query agree with others: the option takes the place of the terms. -/

namespace DocGrid

theorem Operator.name_injective {op op' : Operator} (h : op.name = op'.name) : op = op' := by
  have hread := congrArg Operator.ofName? h
  rwa [Operator.ofName?_name, Operator.ofName?_name, Option.some.injEq] at hread

namespace Operand

theorem value_injective {operand operand' : Operand} (h : operand.value = operand'.value) :
    operand = operand' := by
  have hread := congrArg Operand.ofValue? h
  rwa [Operand.ofValue?_value, Operand.ofValue?_value, Option.some.injEq] at hread

theorem items_of_reordered {items : List Item} {vs : List Value}
    (h : List.Forall₂ Value.Reordered (items.map Item.value) vs) : items.map Item.value = vs := by
  induction items generalizing vs with
  | nil =>
    cases h with
    | nil => rfl
  | cons i items ih =>
    cases h with
    | cons hi hitems =>
      have hscalar : i.value.isComposite = false := by cases i <;> rfl
      rw [List.map_cons, hi.eq_of_not_composite hscalar, ih hitems]

/-- There are no mappings in an operand, so that nothing is reordered. -/
theorem eq_of_reordered {operand : Operand} {v : Value} (h : operand.value.Reordered v) :
    operand.value = v := by
  cases operand with
  | list items =>
    obtain ⟨vs, rfl, hitems⟩ := h.exists_list
    exact congrArg Value.list (items_of_reordered hitems)
  | item i => exact h.eq_of_not_composite (by cases i <;> rfl)
  | _ => exact h.eq_of_not_composite rfl

theorem value_ne_mapping (operand : Operand) (entries : Document) :
    operand.value ≠ .mapping entries := by
  cases operand with
  | item i => cases i <;> exact nofun
  | _ => exact nofun

end Operand

namespace Filter

/-- Two filters that are the same node by node, with searches that are alike in some sense. -/
inductive Agree (alike : String → Document → String → Document → Prop) : Filter → Filter → Prop
  | equals (field : String) (operand : Operand) :
      Agree alike (equals field operand) (equals field operand)
  | pattern (field text : String) (ignoreCase : Bool) :
      Agree alike (pattern field text ignoreCase) (pattern field text ignoreCase)
  | comparison (field : String) (op : Operator) (operand : Operand) :
      Agree alike (comparison field op operand) (comparison field op operand)
  | search {terms terms' : String} {options options' : Document}
      (h : alike terms options terms' options') :
      Agree alike (search terms options) (search terms' options')
  | all {fs gs : List Filter} (h : List.Forall₂ (Agree alike) fs gs) : Agree alike (all fs) (all gs)
  | any {fs gs : List Filter} (h : List.Forall₂ (Agree alike) fs gs) : Agree alike (any fs) (any gs)

/-- No field is named like an operator. -/
def PlainFields (leaves : List Filter) : Prop :=
  ∀ leaf ∈ leaves, ∀ field, leaf.field? = some field → ¬ IsOperatorKey field

/-! A query has one key, which says what kind of node it is for, and a body. -/

def queryKey : Filter → String
  | equals field _ => field
  | pattern field _ _ => field
  | comparison field _ _ => field
  | search .. => "$text"
  | all _ => "$and"
  | any _ => "$or"

def queryBody : Filter → Value
  | equals _ operand => operand.value
  | pattern _ text ignoreCase => patternQuery text ignoreCase
  | comparison _ op operand => .mapping [("$" ++ op.name, operand.value)]
  | search terms options => .mapping (Document.putAll [("$search", .text terms)] options)
  | all filters => .list (toQueries filters)
  | any filters => .list (toQueries filters)

theorem toQuery_eq (f : Filter) : f.toQuery = [(f.queryKey, f.queryBody)] := by
  cases f <;> rfl

variable {s t : Filter}

theorem toQuery_reordered : (Value.mapping s.toQuery).Reordered (.mapping t.toQuery) ↔
    s.queryKey = t.queryKey ∧ s.queryBody.Reordered t.queryBody := by
  rw [toQuery_eq, toQuery_eq, Value.Reordered.mapping_single_iff]

theorem queryKey_eq_field {field : String} (h : s.field? = some field) : s.queryKey = field := by
  cases s with
  | equals _ _ | pattern _ _ _ | comparison _ _ _ => exact Option.some.inj h
  | _ => cases h

theorem isOperatorKey_queryKey (h : s.field? = none) : IsOperatorKey s.queryKey := by
  cases s with
  | search _ _ =>
    show "$text".toList.head? = some '$'
    decide
  | all _ =>
    show "$and".toList.head? = some '$'
    decide
  | any _ =>
    show "$or".toList.head? = some '$'
    decide
  | _ => cases h

theorem PlainFields.not_isOperatorKey (h : PlainFields s.leaves) {field : String}
    (hfield : s.field? = some field) : ¬ IsOperatorKey s.queryKey := by
  have hmem : s ∈ s.leaves := by
    cases s with
    | all _ | any _ => cases hfield
    | _ => exact List.mem_cons_self
  rw [queryKey_eq_field hfield]
  exact h s hmem field hfield

theorem field?_congr (hs : PlainFields s.leaves) (ht : PlainFields t.leaves)
    (hkey : s.queryKey = t.queryKey) : s.field? = t.field? := by
  cases hsf : s.field? with
  | none =>
    cases htf : t.field? with
    | none => rfl
    | some field => exact absurd (hkey ▸ isOperatorKey_queryKey hsf) (ht.not_isOperatorKey htf)
  | some field =>
    cases htf : t.field? with
    | none => exact absurd (hkey ▸ isOperatorKey_queryKey htf) (hs.not_isOperatorKey hsf)
    | some field' => rw [← queryKey_eq_field hsf, ← queryKey_eq_field htf, hkey]

/-! Conditions on fields are told apart by their bodies. -/

theorem eq_of_patternQuery {text text' : String} {ignoreCase ignoreCase' : Bool}
    (h : (patternQuery text ignoreCase).Reordered (patternQuery text' ignoreCase')) :
    text = text' ∧ ignoreCase = ignoreCase' := by
  have hnot (b : Bool) : "$regex" ∉ Document.keys (if b then [("$options", .text "i")] else []) := by
    cases b <;> decide
  obtain ⟨htext, hoptions⟩ := (Value.Reordered.mapping_cons_iff (hnot _) (hnot _)).mp h
  have hlength := hoptions.entries.keys.length_eq
  refine ⟨Value.text.inj (htext.eq_of_not_composite rfl), ?_⟩
  cases ignoreCase <;> cases ignoreCase' <;> first | rfl | cases hlength

theorem regex_notMem_operator (op : Operator) : "$regex" ∉ ["$" ++ op.name] := by
  cases op <;> decide

theorem eq_of_queryBody {field : String} (hs : s.field? = some field) (ht : t.field? = some field)
    (h : s.queryBody.Reordered t.queryBody) : s = t := by
  -- An equality asks for no mapping, and only a pattern has the key of patterns.
  cases s with
  | equals _ operand =>
    obtain rfl := Option.some.inj hs
    have hbody := Operand.eq_of_reordered h
    cases t with
    | equals _ operand' =>
      obtain rfl := Option.some.inj ht
      rw [Operand.value_injective hbody]
    | pattern _ _ _ | comparison _ _ _ => exact absurd hbody (operand.value_ne_mapping _)
    | _ => cases ht
  | pattern _ text ignoreCase =>
    obtain rfl := Option.some.inj hs
    obtain ⟨entries, hbody, -⟩ := h.exists_mapping
    cases t with
    | equals _ operand' => exact absurd hbody (operand'.value_ne_mapping _)
    | pattern _ text' ignoreCase' =>
      obtain rfl := Option.some.inj ht
      obtain ⟨rfl, rfl⟩ := eq_of_patternQuery h
      rfl
    | comparison _ op operand =>
      have hregex := h.entries.keys.mem_iff.mp List.mem_cons_self
      exact absurd hregex (regex_notMem_operator op)
    | _ => cases ht
  | comparison _ op operand =>
    obtain rfl := Option.some.inj hs
    obtain ⟨entries, hbody, -⟩ := h.exists_mapping
    cases t with
    | equals _ operand' => exact absurd hbody (operand'.value_ne_mapping _)
    | pattern _ text ignoreCase =>
      have hregex := h.entries.keys.mem_iff.mpr List.mem_cons_self
      exact absurd hregex (regex_notMem_operator op)
    | comparison _ op' operand' =>
      obtain rfl := Option.some.inj ht
      obtain ⟨hname, hvalue⟩ := Value.Reordered.mapping_single_iff.mp h
      obtain rfl := Operator.name_injective ((String.append_right_inj _).mp hname)
      obtain rfl := Operand.value_injective (Operand.eq_of_reordered hvalue)
      rfl
    | _ => cases ht
  | _ => cases hs

/-! Searches. -/

/-- What a query has as the text to search for. -/
def searchedText (terms : String) (options : Document) : Value :=
  (options.get? "$search").getD (.text terms)

/-- The searched texts and the other options are the same, up to the order of keys. -/
def SentAlike (terms : String) (options : Document) (terms' : String) (options' : Document) :
    Prop :=
  (searchedText terms options).Reordered (searchedText terms' options') ∧
    (Value.mapping (options.without "$search")).Reordered (.mapping (options'.without "$search"))

/-- The terms are the same, and so are the options, up to the order of keys. -/
def SameSearch (terms : String) (options : Document) (terms' : String) (options' : Document) :
    Prop :=
  terms = terms' ∧ (Value.mapping options).Reordered (.mapping options')

section Searches

variable {terms terms' : String} {options options' : Document}

theorem queryBody_search (h : options.keys.Nodup) : (search terms options).queryBody =
    .mapping (("$search", searchedText terms options) :: options.without "$search") := by
  have hkeys : (Document.keys ([] ++ options)).Nodup := h
  exact congrArg Value.mapping (Document.putAll_cons hkeys List.not_mem_nil)

theorem search_reordered_iff (h : options.keys.Nodup) (h' : options'.keys.Nodup) :
    (search terms options).queryBody.Reordered (search terms' options').queryBody ↔
      SentAlike terms options terms' options' := by
  rw [queryBody_search h, queryBody_search h', SentAlike, Value.Reordered.mapping_cons_iff
    (options.notMem_keys_without _) (options'.notMem_keys_without _)]

theorem sentAlike_iff (h : "$search" ∉ options.keys) (h' : "$search" ∉ options'.keys) :
    SentAlike terms options terms' options' ↔ SameSearch terms options terms' options' := by
  rw [SentAlike, SameSearch, searchedText, searchedText, Document.get?_of_notMem h,
    Document.get?_of_notMem h', Document.without_of_notMem h, Document.without_of_notMem h']
  refine and_congr_left fun _ => ⟨fun heq => ?_, fun heq => ?_⟩
  · exact Value.text.inj (heq.eq_of_not_composite rfl)
  · rw [heq]
    exact .refl

end Searches

/-! Filters. The key of a query tells a node from those of other kinds, except for conditions on one
field, and its parts are compared in their order. -/

/-- The queries of searches among the leaves are the same exactly if the searches are alike. -/
def SearchesBy (alike : String → Document → String → Document → Prop) (fs gs : List Filter) :
    Prop :=
  ∀ terms options terms' options', search terms options ∈ fs → search terms' options' ∈ gs →
    ((search terms options).queryBody.Reordered (search terms' options').queryBody ↔
      alike terms options terms' options')

variable {alike : String → Document → String → Document → Prop}

theorem condition_reordered_iff {field : String} (hfield : s.field? = some field)
    (hs : PlainFields s.leaves) (ht : PlainFields t.leaves) :
    (Value.mapping s.toQuery).Reordered (.mapping t.toQuery) ↔ s.Agree alike t := by
  rw [toQuery_reordered]
  constructor
  · rintro ⟨hkey, hbody⟩
    obtain rfl := eq_of_queryBody hfield ((field?_congr hs ht hkey).symm.trans hfield) hbody
    cases s with
    | equals field operand => exact .equals field operand
    | pattern field text ignoreCase => exact .pattern field text ignoreCase
    | comparison field op operand => exact .comparison field op operand
    | _ => cases hfield
  · intro hagree
    cases hagree with
    | search _ | all _ | any _ => cases hfield
    | _ => exact ⟨rfl, .refl⟩

mutual

theorem toQuery_reordered_iff : ∀ s t : Filter, PlainFields s.leaves → PlainFields t.leaves →
    SearchesBy alike s.leaves t.leaves →
    ((Value.mapping s.toQuery).Reordered (.mapping t.toQuery) ↔ s.Agree alike t)
  | equals .., _, hs, ht, _ => condition_reordered_iff rfl hs ht
  | pattern .., _, hs, ht, _ => condition_reordered_iff rfl hs ht
  | comparison .., _, hs, ht, _ => condition_reordered_iff rfl hs ht
  | search terms options, t, hs, ht, h => by
    rw [toQuery_reordered]
    constructor
    · rintro ⟨hkey, hbody⟩
      have hfield := field?_congr hs ht hkey
      cases t with
      | search terms' options' =>
        exact .search ((h _ _ _ _ List.mem_cons_self List.mem_cons_self).mp hbody)
      | all _ | any _ => exact absurd hkey (by simp [queryKey])
      | _ => cases hfield
    · intro hagree
      cases hagree with
      | search halike =>
        exact ⟨rfl, (h _ _ _ _ List.mem_cons_self List.mem_cons_self).mpr halike⟩
  | all fs, t, hs, ht, h => by
    rw [toQuery_reordered]
    constructor
    · rintro ⟨hkey, hbody⟩
      have hfield := field?_congr hs ht hkey
      cases t with
      | all gs =>
        have hparts := toQueries_reordered_iff fs gs hs ht h
        exact .all (hparts.mp (Value.Reordered.list_iff.mp hbody))
      | search _ _ | any _ => exact absurd hkey (by simp [queryKey])
      | _ => cases hfield
    · intro hagree
      cases hagree with
      | all hagree =>
        have hparts := toQueries_reordered_iff fs _ hs ht h
        exact ⟨rfl, Value.Reordered.list_iff.mpr (hparts.mpr hagree)⟩
  | any fs, t, hs, ht, h => by
    rw [toQuery_reordered]
    constructor
    · rintro ⟨hkey, hbody⟩
      have hfield := field?_congr hs ht hkey
      cases t with
      | any gs =>
        have hparts := toQueries_reordered_iff fs gs hs ht h
        exact .any (hparts.mp (Value.Reordered.list_iff.mp hbody))
      | search _ _ | all _ => exact absurd hkey (by simp [queryKey])
      | _ => cases hfield
    · intro hagree
      cases hagree with
      | any hagree =>
        have hparts := toQueries_reordered_iff fs _ hs ht h
        exact ⟨rfl, Value.Reordered.list_iff.mpr (hparts.mpr hagree)⟩

theorem toQueries_reordered_iff : ∀ fs gs : List Filter, PlainFields (leavesOf fs) →
    PlainFields (leavesOf gs) → SearchesBy alike (leavesOf fs) (leavesOf gs) →
    (List.Forall₂ Value.Reordered (toQueries fs) (toQueries gs) ↔
      List.Forall₂ (Agree alike) fs gs)
  | [], [], _, _, _ => iff_of_true .nil .nil
  | [], _ :: _, _, _, _ => iff_of_false nofun nofun
  | _ :: _, [], _, _, _ => iff_of_false nofun nofun
  | f :: fs, g :: gs, hs, ht, h => by
    obtain ⟨hf, hfs⟩ := List.forall_mem_append.mp hs
    obtain ⟨hg, hgs⟩ := List.forall_mem_append.mp ht
    rw [toQueries, toQueries, List.forall₂_cons, List.forall₂_cons]
    refine and_congr (toQuery_reordered_iff f g hf hg ?_) (toQueries_reordered_iff fs gs hfs hgs ?_)
    · intro terms options terms' options' hmem hmem'
      exact h _ _ _ _ (List.mem_append_left _ hmem) (List.mem_append_left _ hmem')
    · intro terms options terms' options' hmem hmem'
      exact h _ _ _ _ (List.mem_append_right _ hmem) (List.mem_append_right _ hmem')

end

/-- Filters have one query exactly if they agree up to what is sent of their searches, and without
options named like the text of a query exactly if they are the same. -/
theorem toQuery_same_iff (hfields : PlainFields (s.leaves ++ t.leaves))
    (hoptions : ∀ terms options, search terms options ∈ s.leaves ++ t.leaves →
      options.keys.Nodup) :
    ((Value.mapping s.toQuery).Reordered (.mapping t.toQuery) ↔ s.Agree SentAlike t) ∧
      ((∀ terms options, search terms options ∈ s.leaves ++ t.leaves →
          "$search" ∉ options.keys) →
        ((Value.mapping s.toQuery).Reordered (.mapping t.toQuery) ↔ s.Agree SameSearch t)) := by
  obtain ⟨hs, ht⟩ := List.forall_mem_append.mp hfields
  have hsent : SearchesBy SentAlike s.leaves t.leaves := by
    intro terms options terms' options' hmem hmem'
    exact search_reordered_iff (hoptions _ _ (List.mem_append_left _ hmem))
      (hoptions _ _ (List.mem_append_right _ hmem'))
  refine ⟨toQuery_reordered_iff s t hs ht hsent, fun hsearch => ?_⟩
  apply toQuery_reordered_iff s t hs ht
  intro terms options terms' options' hmem hmem'
  rw [hsent _ _ _ _ hmem hmem']
  exact sentAlike_iff (hsearch _ _ (List.mem_append_left _ hmem))
    (hsearch _ _ (List.mem_append_right _ hmem'))

/-- Two options in one order and in the other, next to a condition on a field. -/
theorem toQuery_same_iff_languages :
    let options : Document := [("$language", .text "en"), ("$caseSensitive", .bool true)]
    let s : Filter := .all [.search "green tea" options, .any [.comparison "age" .among
      (.list [.int 1, .text "1"])]]
    let t : Filter := .all [.search "green tea" options.reverse, .any [.comparison "age" .among
      (.list [.int 1, .text "1"])]]
    PlainFields (s.leaves ++ t.leaves) ∧
      (∀ terms options, search terms options ∈ s.leaves ++ t.leaves →
        options.keys.Nodup ∧ "$search" ∉ options.keys) ∧
      s.Agree SameSearch t ∧ (Value.mapping s.toQuery).Reordered (.mapping t.toQuery) := by
  intro options s t
  have hage : ¬ IsOperatorKey "age" := by
    show ¬ "age".toList.head? = some '$'
    decide
  have hfields : PlainFields (s.leaves ++ t.leaves) := by
    simpa [PlainFields, s, t, leaves, leavesOf, field?] using hage
  have hoptions : ∀ terms options, search terms options ∈ s.leaves ++ t.leaves →
      options.keys.Nodup ∧ "$search" ∉ options.keys := by
    intro terms options' hmem
    obtain ⟨-, rfl⟩ | ⟨-, rfl⟩ : terms = "green tea" ∧ options' = options ∨
        terms = "green tea" ∧ options' = options.reverse := by
      simpa [s, t, leaves, leavesOf] using hmem
    · decide
    · decide
  have hreordered : (Value.mapping options).Reordered (.mapping options.reverse) :=
    .single (.keys (by decide) (List.reverse_perm options).symm)
  have hagree : s.Agree SameSearch t :=
    .all (.cons (.search ⟨rfl, hreordered⟩)
      (.cons (.any (.cons (.comparison ..) .nil)) .nil))
  have hsame := toQuery_same_iff hfields fun terms options h => (hoptions terms options h).1
  exact ⟨hfields, hoptions, hagree, (hsame.2 fun _ _ h => (hoptions _ _ h).2).mpr hagree⟩

/-- An option named like the text of a query takes the place of the terms. -/
theorem not_toQuery_same : ¬ ∀ s t : Filter, PlainFields (s.leaves ++ t.leaves) →
    (∀ terms options, search terms options ∈ s.leaves ++ t.leaves → options.keys.Nodup) →
    (Value.mapping s.toQuery).Reordered (.mapping t.toQuery) → s.Agree SameSearch t := by
  intro hall
  have hagree := hall (search "a" [("$search", .text "b")]) (search "b" []) ?_ ?_ .refl
  · cases hagree with
    | search h => exact absurd h.1 (by decide)
  · simp [PlainFields, leaves, field?]
  · intro terms options hmem
    obtain ⟨-, rfl⟩ | ⟨-, rfl⟩ := by simpa [leaves] using hmem
    · decide
    · decide

end Filter

end DocGrid

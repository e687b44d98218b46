import DocGrid.Proofs.Terms.Compile

/-! Filters as texts. The filters of texts are exactly the well formed ones, and a well formed
filter is read back from the text it is written as. -/

namespace DocGrid

def IsArgument (s : String) : Prop :=
  IsPiece s ∧ ')' ∉ s.toList

def Operand.texts : Operand → List String
  | .item (.text s) => [s]
  | .list items => items.filterMap fun i => i.value.text?
  | _ => []

namespace Filter

inductive IsLeaf : Filter → Prop
  | equals {field value : String} (hf : IsFieldName field) (hv : IsArgument value) :
      IsLeaf (.equals field (.text value))
  | pattern {field text : String} {ignoreCase : Bool} {p : Pattern} (hf : IsFieldName field)
      (ht : IsArgument text) (hp : Pattern.ofText? text = .ok p) :
      IsLeaf (.pattern field text ignoreCase)
  | comparison {field value : String} {op : Operator} (hf : IsFieldName field)
      (hv : IsArgument value) : IsLeaf (.comparison field op (.text value))
  | comparisonOfMany {field : String} {op : Operator} {values : List String}
      (hf : IsFieldName field) (hv : ∀ v ∈ values, IsArgument v) (hlen : 2 ≤ values.length) :
      IsLeaf (.comparison field op (.list (values.map .text)))

/-- One or more groups, each of one or more conditions. -/
inductive WellFormed : Filter → Prop
  | mk {groups : List (List Filter)} (hne : groups ≠ []) (hg : ∀ leaves ∈ groups, leaves ≠ [])
      (hl : ∀ leaves ∈ groups, ∀ leaf ∈ leaves, leaf.IsLeaf) : WellFormed (.any (groups.map .all))

def writtenClause (field : String) (pieces : List String) : List Char :=
  ' ' :: field.toList ++ '(' :: Text.join [':'] (pieces.map String.toList) ++ [')']

def writtenLeaf : Filter → List Char
  | equals field value => writtenClause field ("match" :: value.texts)
  | pattern field text ignoreCase =>
    writtenClause field ("contains" :: text :: if ignoreCase then ["i"] else [])
  | comparison field op value => writtenClause field (op.name :: value.texts)
  | _ => []

def parts : Filter → List Filter
  | all filters => filters
  | any filters => filters
  | _ => []

/-- The text of a filter: commas between the conditions of a group, semicolons between groups. -/
def written (f : Filter) : String :=
  String.ofList (Text.join [';'] (f.parts.map fun group =>
    Text.join [','] (group.parts.map writtenLeaf)))

theorem isArgument_wholePattern {value : String} (h : IsArgument value) :
    IsArgument ("^" ++ value ++ "$") := by
  have htext : ("^" ++ value ++ "$").toList = '^' :: value.toList ++ ['$'] := by simp
  refine ⟨⟨?_, ?_, ?_⟩, ?_⟩
  · have ht := Text.trim_append_concat (c := '^') (d := '$') (by decide) (by decide) [] value.toList
    rw [Text.stripped_eq_self_iff, htext]
    simpa [Text.trimStart] using ht
  · rw [htext]
    simpa using h.1.noComma
  · rw [htext]
    simpa using h.1.noColon
  · rw [htext]
    simpa using h.2

theorem isLeaf_of_leaf? {c : Clause} {field : String} {f : Filter} (hf : IsFieldName field)
    (hr : c.Regular field IsArgument) (h : c.leaf? = some f) : f.IsLeaf := by
  obtain ⟨rfl, hargs, hshape⟩ := hr
  cases hshape.hasLeaf h with
  | equals field value _ => exact .equals hf (hargs value (by simp))
  | wholePattern field value hp =>
    exact .pattern hf (isArgument_wholePattern (hargs value (by simp))) hp
  | contains field value flags hp => exact .pattern hf (hargs value (by simp)) hp
  | compare field op first more =>
    cases more with
    | nil => exact .comparison hf (hargs first (by simp))
    | cons second more => exact .comparisonOfMany hf hargs (by simp)

theorem wellFormed_of_ofTerms {terms : String} {f : Filter}
    (h : ofTerms terms = .ok (some f)) : f.WellFormed := by
  obtain ⟨hne, rfl⟩ := eq_any_of_ofTerms h
  refine .mk hne (fun leaves hl => (mem_conditionRows hl).1) ?_
  intro leaves hl leaf hleaf
  obtain ⟨-, row, hrow, rfl⟩ := mem_conditionRows hl
  obtain ⟨c, hc, hcl⟩ := List.mem_filterMap.mp hleaf
  obtain ⟨field, hf, hreg⟩ := regular_of_mem_clauseRows hrow hc
  refine isLeaf_of_leaf? hf ⟨hreg.field_eq, fun a ha => ?_, hreg.shape⟩ hcl
  obtain ⟨hpiece, hopen, -⟩ := hreg.args a ha
  exact ⟨hpiece, hopen⟩

theorem pieces_join {ps : List String} (hne : ps ≠ []) (h : ∀ p ∈ ps, IsArgument p) :
    Clause.pieces (Text.join [':'] (ps.map String.toList)) = ps := by
  have hcolon : ∀ cs ∈ ps.map String.toList, ':' ∉ cs := by
    intro cs hcs
    obtain ⟨p, hp, rfl⟩ := List.mem_map.mp hcs
    exact (h p hp).1.noColon
  rw [Clause.pieces, Text.split_join (by simpa using hne) hcolon, List.map_map]
  conv_rhs => rw [← List.map_id ps]
  exact List.map_congr_left fun p hp => (h p hp).1.stripped

theorem not_mem_join {ps : List String} {c : Char} (hc : c ≠ ':')
    (h : ∀ p ∈ ps, c ∉ p.toList) : c ∉ Text.join [':'] (ps.map String.toList) := by
  intro hm
  rcases Text.mem_join hm with hm | ⟨cs, hcs, hm⟩
  · exact hc (List.mem_singleton.mp hm)
  · obtain ⟨p, hp, rfl⟩ := List.mem_map.mp hcs
    exact h p hp hm

theorem writtenClause_name_plain {field : String} (hf : IsFieldName field) :
    ∀ c ∈ ' ' :: field.toList, Token.isParenthesis c = false := by
  intro c hc
  rcases List.mem_cons.mp hc with rfl | hc
  · rfl
  · exact hf.plain c hc

section WrittenClause

variable {field name : String} {lead : List Char} {params : List String}
  (hplain : ∀ c ∈ lead, Token.isParenthesis c = false) (hne : params ≠ [])
  (h : ∀ p ∈ name :: params, IsArgument p)

include hplain hne h

theorem clauseParts_join (hlead : lead ≠ []) :
    Token.ClauseParts lead (Text.join [':'] ((name :: params).map String.toList)) := by
  refine ⟨hlead, hplain, ?_, not_mem_join (by decide) fun p hp => (h p hp).2⟩
  obtain ⟨p, more, rfl⟩ := List.exists_cons_of_ne_nil hne
  simp [Text.join]

/-- Blanks around the name of the field do not count. -/
theorem ofToken_clauseText (hf : field ≠ "") (htrim : Text.trim lead = field.toList) :
    Clause.ofToken (Token.clauseText lead (Text.join [':'] ((name :: params).map String.toList))) =
      (Clause.ofPieces? field name params).toList := by
  have hcomma : ',' ∉ Text.join [':'] ((name :: params).map String.toList) :=
    not_mem_join (by decide) fun p hp => (h p hp).1.noComma
  have hnil : field.toList.isEmpty = false := by simpa using hf
  have hshape := Clause.shape?_clauseText hplain
    (Text.join [':'] ((name :: params).map String.toList))
  rw [htrim, hnil] at hshape
  obtain ⟨p, more, rfl⟩ := List.exists_cons_of_ne_nil hne
  simp only [Clause.ofToken, hshape, Bool.false_eq_true, if_false, Text.split_of_not_mem hcomma,
    List.map_singleton, pieces_join (List.cons_ne_nil _ _) h, String.ofList_toList]
  rfl

omit hplain

theorem isClauseText_writtenClause (hf : IsFieldName field) :
    Token.IsClauseText (writtenClause field (name :: params)) :=
  ⟨' ', field.toList, _, rfl, clauseParts_join (writtenClause_name_plain hf) hne h (by simp), rfl⟩

/-- The blank in front keeps a delimiter at the start of a name from being read as one. -/
theorem ofToken_writtenClause (hf : IsFieldName field) :
    Clause.ofToken (writtenClause field (name :: params)) =
      (Clause.ofPieces? field name params).toList := by
  have htrim : Text.trim (' ' :: field.toList) = field.toList := by
    rw [Text.trim_cons_blank (by decide)]
    exact Text.stripped_eq_self_iff.mp hf.stripped
  exact ofToken_clauseText (writtenClause_name_plain hf) hne h hf.ne_empty htrim

end WrittenClause

def clauseOf : Filter → Clause
  | equals field value => ⟨field, .match, value.texts, none⟩
  | pattern field text ignoreCase =>
    ⟨field, .contains, [text], if ignoreCase then some Clause.ignoreCaseFlag else none⟩
  | comparison field op value => ⟨field, .compare op, value.texts, none⟩
  | _ => ⟨"", .match, [], none⟩

@[simp] theorem operation_ofName?_name (op : Operator) :
    Operation.ofName? op.name = some (.compare op) := by
  cases op <;> rfl

@[simp] theorem isArgument_name (op : Operator) : IsArgument op.name := by
  cases op <;> exact ⟨⟨by decide, by decide, by decide⟩, by decide⟩

@[simp] theorem texts_list (values : List String) :
    (Operand.list (values.map .text)).texts = values := by
  simp [Operand.texts, Item.value, Value.text?, List.filterMap_map]

@[simp] theorem texts_text (value : String) : (Operand.text value).texts = [value] := rfl

theorem IsLeaf.clause {f : Filter} (h : f.IsLeaf) :
    Token.IsClauseText f.writtenLeaf ∧ Clause.ofToken f.writtenLeaf = [f.clauseOf] ∧
      f.clauseOf.compile = .ok (some f) := by
  have hmatch : IsArgument "match" := ⟨⟨by decide, by decide, by decide⟩, by decide⟩
  have hcontains : IsArgument "contains" := ⟨⟨by decide, by decide, by decide⟩, by decide⟩
  have hflag : IsArgument "i" := ⟨⟨by decide, by decide, by decide⟩, by decide⟩
  cases h with
  | @equals field value hf hv =>
    have ha : ∀ p ∈ ["match", value], IsArgument p := by simp [hmatch, hv]
    simp only [writtenLeaf, clauseOf, texts_text]
    exact ⟨isClauseText_writtenClause (by simp) ha hf, ofToken_writtenClause (by simp) ha hf, rfl⟩
  | @pattern field text ignoreCase p hf ht hp =>
    have hc : Clause.patternFilter? field text ignoreCase =
        .ok (some (.pattern field text ignoreCase)) := by
      simp only [Clause.patternFilter?, hp]
    cases ignoreCase with
    | false =>
      have ha : ∀ p ∈ ["contains", text], IsArgument p := by simp [hcontains, ht]
      exact ⟨isClauseText_writtenClause (by simp) ha hf, ofToken_writtenClause (by simp) ha hf, hc⟩
    | true =>
      have ha : ∀ p ∈ ["contains", text, "i"], IsArgument p := by simp [hcontains, ht, hflag]
      exact ⟨isClauseText_writtenClause (by simp) ha hf, ofToken_writtenClause (by simp) ha hf, hc⟩
  | @comparison field value op hf hv =>
    have ha : ∀ p ∈ [op.name, value], IsArgument p := by simp [hv]
    simp only [writtenLeaf, clauseOf, texts_text]
    refine ⟨isClauseText_writtenClause (by simp) ha hf, ?_, rfl⟩
    rw [ofToken_writtenClause (by simp) ha hf]
    simp [Clause.ofPieces?]
  | @comparisonOfMany field op values hf hv hlen =>
    have ha : ∀ p ∈ op.name :: values, IsArgument p := by
      simpa using hv
    have hne : values ≠ [] := by
      rintro rfl
      simp at hlen
    obtain ⟨first, rest, rfl⟩ := List.exists_cons_of_ne_nil hne
    have hrest : rest ≠ [] := by
      rintro rfl
      simp at hlen
    obtain ⟨second, more, rfl⟩ := List.exists_cons_of_ne_nil hrest
    simp only [writtenLeaf, clauseOf, texts_list]
    refine ⟨isClauseText_writtenClause hne ha hf, ?_, rfl⟩
    rw [ofToken_writtenClause hne ha hf]
    simp [Clause.ofPieces?]

theorem clauseRows_written {groups : List (List Filter)}
    (hg : ∀ leaves ∈ groups, leaves ≠ []) (hl : ∀ leaves ∈ groups, ∀ leaf ∈ leaves, leaf.IsLeaf) :
    clauseRows (any (groups.map .all)).written = groups.map (·.map clauseOf) := by
  have htexts : (any (groups.map .all)).written.toList =
      Token.rowsText (groups.map (·.map writtenLeaf)) := by
    simp [written, parts, Token.rowsText, Function.comp_def]
  have hrows : textRows (Token.rowsText (groups.map (·.map writtenLeaf))) =
      groups.map (·.map writtenLeaf) := by
    apply Token.groups_rowsText
    · simpa using hg
    · intro row hrow text htext
      obtain ⟨leaves, hleaves, rfl⟩ := List.mem_map.mp hrow
      obtain ⟨leaf, hleaf, rfl⟩ := List.mem_map.mp htext
      exact (hl leaves hleaves leaf hleaf).clause.1
  rw [clauseRows_eq, htexts, hrows, List.map_map]
  refine List.map_congr_left fun leaves hleaves => ?_
  simp only [Function.comp_apply, List.flatMap_map]
  rw [List.map_eq_flatMap]
  exact List.flatMap_congr fun leaf hleaf => (hl leaves hleaves leaf hleaf).clause.2.1

theorem filterMap_clauseOf {leaves : List Filter} (h : ∀ leaf ∈ leaves, leaf.IsLeaf) :
    (leaves.map clauseOf).filterMap Clause.leaf? = leaves := by
  induction leaves with
  | nil => rfl
  | cons leaf leaves ih =>
    have hleaf := Clause.leaf?_of_compile (h leaf (by simp)).clause.2.2
    have hi := ih fun x hx => h x (List.mem_cons_of_mem _ hx)
    simp only [List.map_cons, List.filterMap_cons, hleaf, hi]

theorem ofTerms_written {f : Filter} (h : f.WellFormed) : ofTerms f.written = .ok (some f) := by
  obtain ⟨hne, hg, hl⟩ := h
  rename_i groups
  refine ofTerms_eq_ok_iff.mpr ⟨?_, ?_⟩
  · rw [clauseRows_written hg hl]
    intro row hrow c hc
    obtain ⟨leaves, hleaves, rfl⟩ := List.mem_map.mp hrow
    obtain ⟨leaf, hleaf, rfl⟩ := List.mem_map.mp hc
    exact ⟨some leaf, (hl leaves hleaves leaf hleaf).clause.2.2⟩
  · have hleaves : (groups.map (·.map clauseOf)).map (·.filterMap Clause.leaf?) = groups := by
      rw [List.map_map]
      conv_rhs => rw [← List.map_id groups]
      exact List.map_congr_left fun leaves hm => filterMap_clauseOf (hl leaves hm)
    have hkept : groups.filter (fun leaves => !leaves.isEmpty) = groups := by
      apply List.filter_eq_self.mpr
      simpa using hg
    rw [conditionRows, clauseRows_written hg hl, hleaves, hkept]
    simp [ofConditions, hne]

/-- The filters of texts are the well formed ones, and each is the filter of its written form. -/
theorem ofTerms_written_round_trip :
    (∀ terms f, ofTerms terms = .ok (some f) → f.WellFormed) ∧
    (∀ f, f.WellFormed → ofTerms f.written = .ok (some f)) ∧
    ∀ terms f, ofTerms terms = .ok (some f) → ofTerms f.written = ofTerms terms :=
  ⟨fun _ _ => wellFormed_of_ofTerms, fun _ => ofTerms_written,
    fun _ _ h => (ofTerms_written (wellFormed_of_ofTerms h)).trans h.symm⟩

theorem ofTerms_written_mixed_groups :
    ofTerms (any [all [.equals ",a;b" (.text "(x"),
        .comparison ",a;b" .among (.list [.text "1", .text "2"])],
      all [.comparison "c" .greaterEqual (.text "4")]]).written =
      ofTerms " ,a;b( match : (x , in:1 : 2);; c(nope:3,gte: 4)" := by
  obtain ⟨-, -, htext⟩ := ofTerms_written_round_trip
  refine htext _ _ ?_
  rfl

end Filter

end DocGrid

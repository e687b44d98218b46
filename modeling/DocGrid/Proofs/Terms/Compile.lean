import DocGrid.Proofs.Results
import DocGrid.Proofs.Terms.Clauses
import DocGrid.Terms.Compile

/-! What a filter text compiles to, in terms of its clauses: the conditions of those that have
one, row by row. It compiles exactly when each of its clauses does. -/

namespace DocGrid

namespace Clause

def Compiles (c : Clause) : Prop :=
  ∃ result, c.compile = .ok result

def leaf? (c : Clause) : Option Filter :=
  match c.compile with
  | .ok result => result
  | .error _ => none

theorem leaf?_of_compile {c : Clause} {result : Option Filter} (h : c.compile = .ok result) :
    c.leaf? = result := by
  simp only [leaf?, h]

theorem compile_of_leaf? {c : Clause} {f : Filter} (h : c.leaf? = some f) :
    c.compile = .ok (some f) := by
  unfold leaf? at h
  split at h
  · next hc => rw [hc, h]
  · cases h

def pattern? (c : Clause) : Option String :=
  match c.operation, c.args with
  | .match, a :: _ => if c.flags = some ignoreCaseFlag then some ("^" ++ a ++ "$") else none
  | .contains, a :: _ => some a
  | _, _ => none

/-- The field is filled in only to build the condition. -/
theorem patternFilter?_cases (field pattern : String) (ignoreCase : Bool) :
    (∃ p, Pattern.ofText? pattern = .ok p ∧
      patternFilter? field pattern ignoreCase = .ok (some (.pattern field pattern ignoreCase))) ∨
    (Pattern.ofText? pattern = .error .malformed ∧
      patternFilter? field pattern ignoreCase = .ok none) ∨
    ∃ problem, problem ≠ .malformed ∧ Pattern.ofText? pattern = .error problem ∧
      patternFilter? field pattern ignoreCase = .error (.ofPattern problem) := by
  cases h : Pattern.ofText? pattern with
  | ok p => exact .inl ⟨p, rfl, by simp [patternFilter?, h]⟩
  | error problem =>
    cases problem with
    | malformed => exact .inr (.inl ⟨rfl, by simp [patternFilter?, h]⟩)
    | _ => exact .inr (.inr ⟨_, by simp, rfl, by simp [patternFilter?, h]⟩)

theorem patternFilter?_eq_some {field pattern : String} {ignoreCase : Bool} {f : Filter}
    (h : patternFilter? field pattern ignoreCase = .ok (some f)) :
    ∃ p, Pattern.ofText? pattern = .ok p ∧ f = .pattern field pattern ignoreCase := by
  rcases patternFilter?_cases field pattern ignoreCase with
    ⟨p, hp, hf⟩ | ⟨-, hf⟩ | ⟨problem, -, -, hf⟩
  · exact ⟨p, hp, Option.some.inj (Except.ok.inj (h.symm.trans hf))⟩
  · cases hf.symm.trans h
  · cases hf.symm.trans h

inductive Form : Clause → Prop
  | equals (field value : String) (flags : Option String) (h : flags ≠ some ignoreCaseFlag) :
      Form ⟨field, .match, [value], flags⟩
  | wholePattern (field value : String) : Form ⟨field, .match, [value], some ignoreCaseFlag⟩
  | contains (field value : String) (flags : Option String) :
      Form ⟨field, .contains, [value], flags⟩
  | compare (field : String) (op : Operator) (first : String) (more : List String) :
      Form ⟨field, .compare op, first :: more, none⟩

theorem Shape.form {c : Clause} (h : c.Shape) : c.Form := by
  obtain ⟨field, operation, args, flags⟩ := c
  cases operation with
  | compare op =>
    simp only [Shape, Operation.isComparison, if_true] at h
    obtain ⟨first, more, rfl⟩ := List.exists_cons_of_ne_nil h.1
    exact h.2 ▸ .compare field op first more
  | «match» =>
    obtain ⟨value, rfl⟩ := by simpa [Shape, Operation.isComparison] using h
    by_cases hf : flags = some ignoreCaseFlag
    · exact hf ▸ .wholePattern field value
    · exact .equals field value flags hf
  | contains =>
    obtain ⟨value, rfl⟩ := by simpa [Shape, Operation.isComparison] using h
    exact .contains field value flags

theorem compile_equals {flags : Option String} (h : flags ≠ some ignoreCaseFlag)
    (field value : String) :
    (⟨field, .match, [value], flags⟩ : Clause).compile =
      .ok (some (.equals field (.text value))) := by
  have hf : (flags == some ignoreCaseFlag) = false := by simpa using h
  simp only [compile, hf]
  rfl

theorem compile_wholePattern (field value : String) :
    (⟨field, .match, [value], some ignoreCaseFlag⟩ : Clause).compile =
      patternFilter? field ("^" ++ value ++ "$") true := by
  simp only [compile, beq_self_eq_true]
  rfl

theorem compile_contains (field value : String) (flags : Option String) :
    (⟨field, .contains, [value], flags⟩ : Clause).compile =
      patternFilter? field value (flags == some ignoreCaseFlag) := rfl

def operandOf : List String → Operand
  | [a] => .text a
  | args => .list (args.map .text)

theorem compile_compare (field : String) (op : Operator) (first : String) (more : List String) :
    (⟨field, .compare op, first :: more, none⟩ : Clause).compile =
      .ok (some (.comparison field op (operandOf (first :: more)))) := by
  cases more <;> rfl

/-- The condition of a clause, for the clauses that have one. -/
inductive HasLeaf : Clause → Filter → Prop
  | equals (field value : String) {flags : Option String} (h : flags ≠ some ignoreCaseFlag) :
      HasLeaf ⟨field, .match, [value], flags⟩ (.equals field (.text value))
  | wholePattern (field value : String) {p : Pattern}
      (h : Pattern.ofText? ("^" ++ value ++ "$") = .ok p) :
      HasLeaf ⟨field, .match, [value], some ignoreCaseFlag⟩
        (.pattern field ("^" ++ value ++ "$") true)
  | contains (field value : String) (flags : Option String) {p : Pattern}
      (h : Pattern.ofText? value = .ok p) :
      HasLeaf ⟨field, .contains, [value], flags⟩
        (.pattern field value (flags == some ignoreCaseFlag))
  | compare (field : String) (op : Operator) (first : String) (more : List String) :
      HasLeaf ⟨field, .compare op, first :: more, none⟩
        (.comparison field op (operandOf (first :: more)))

theorem Shape.hasLeaf {c : Clause} {f : Filter} (hs : c.Shape) (h : c.leaf? = some f) :
    c.HasLeaf f := by
  have hc := compile_of_leaf? h
  cases hs.form with
  | equals field value flags hf =>
    rw [compile_equals hf] at hc
    cases hc
    exact .equals field value hf
  | wholePattern field value =>
    rw [compile_wholePattern] at hc
    obtain ⟨p, hp, rfl⟩ := patternFilter?_eq_some hc
    exact .wholePattern field value hp
  | contains field value flags =>
    rw [compile_contains] at hc
    obtain ⟨p, hp, rfl⟩ := patternFilter?_eq_some hc
    exact .contains field value flags hp
  | compare field op first more =>
    rw [compile_compare] at hc
    cases hc
    exact .compare field op first more

/-- A clause fails only when its pattern fails otherwise than by being no pattern. -/
theorem compile_eq_error_iff {c : Clause} (h : c.Shape) (e : Failure) :
    c.compile = .error e ↔ ∃ p problem, c.pattern? = some p ∧
      Pattern.ofText? p = .error problem ∧ problem ≠ .malformed ∧ e = .ofPattern problem := by
  have pattern (field p : String) (ignoreCase : Bool) :
      patternFilter? field p ignoreCase = .error e ↔ ∃ problem,
        Pattern.ofText? p = .error problem ∧ problem ≠ .malformed ∧ e = .ofPattern problem := by
    rcases patternFilter?_cases field p ignoreCase with
      ⟨q, hq, hf⟩ | ⟨hq, hf⟩ | ⟨problem, hne, hq, hf⟩
    · simp [hq, hf]
    · simp [hq, hf]
    · simp [hq, hf, hne, eq_comm]
  cases h.form with
  | equals field value flags hf => simp [compile_equals hf, pattern?, hf]
  | wholePattern field value => simp [compile_wholePattern, pattern, pattern?]
  | contains field value flags => simp [compile_contains, pattern, pattern?]
  | compare field op first more => simp [compile_compare, pattern?]

end Clause

namespace Filter

def clausesOf (group : List Token) : List Clause :=
  group.flatMap fun t => Clause.ofToken t.text

/-- The clauses of a filter text, in the groups of their tokens. -/
def clauseRows (terms : String) : List (List Clause) :=
  (Token.groups (Token.ofText terms)).map clausesOf

def textRows (cs : List Char) : List (List (List Char)) :=
  (Token.groups (Token.readFrom 0 cs)).map (·.map (·.text))

theorem clauseRows_eq (terms : String) :
    clauseRows terms = (textRows terms.toList).map (·.flatMap Clause.ofToken) := by
  rw [clauseRows, Token.groups_ofText, textRows, List.map_map]
  exact List.map_congr_left fun group _ => by simp [clausesOf, List.flatMap_map]

def conditionRows (terms : String) : List (List Filter) :=
  ((clauseRows terms).map fun row => row.filterMap Clause.leaf?).filter
    fun leaves => !leaves.isEmpty

def ofConditions (rows : List (List Filter)) : Option Filter :=
  if rows.isEmpty then none else some (.any (rows.map .all))

theorem ofClauses_eq (cs : List Clause) :
    ofClauses cs = (cs.mapM Clause.compile).map fun results => results.filterMap id := by
  induction cs with
  | nil => rfl
  | cons c cs ih =>
    rw [ofClauses, ih, List.mapM_cons]
    cases c.compile with
    | error e => rfl
    | ok result => cases cs.mapM Clause.compile <;> cases result <;> rfl

theorem ofGroups_eq (groups : List (List Token)) :
    ofGroups groups = ((groups.map clausesOf).mapM ofClauses).map fun parts =>
      (parts.filter fun leaves => !leaves.isEmpty).map .all := by
  induction groups with
  | nil => rfl
  | cons group groups ih =>
    rw [ofGroups, ih, List.map_cons, List.mapM_cons]
    change (ofClauses (clausesOf group)).bind _ = _
    cases ofClauses (clausesOf group) with
    | error e => rfl
    | ok leaves =>
      cases (groups.map clausesOf).mapM ofClauses with
      | error e => rfl
      | ok parts => cases leaves <;> rfl

theorem ofTerms_eq (terms : String) :
    ofTerms terms = ((clauseRows terms).mapM ofClauses).map fun parts =>
      ofConditions (parts.filter fun leaves => !leaves.isEmpty) := by
  rw [ofTerms, assemble, ofGroups_eq]
  change Except.bind _ _ =
    (((Token.groups (Token.ofText terms)).map clausesOf).mapM ofClauses).map _
  cases ((Token.groups (Token.ofText terms)).map clausesOf).mapM ofClauses with
  | error e => rfl
  | ok parts =>
    change Except.ok _ = Except.ok _
    simp only [List.isEmpty_map, ofConditions]

theorem ofClauses_of_compiles {cs : List Clause} (h : ∀ c ∈ cs, c.Compiles) :
    ofClauses cs = .ok (cs.filterMap Clause.leaf?) := by
  have hm : cs.mapM Clause.compile = .ok (cs.map Clause.leaf?) := Result.mapM_of_ok fun c hc => by
    obtain ⟨result, hr⟩ := h c hc
    rw [hr, Clause.leaf?_of_compile hr]
  rw [ofClauses_eq, hm]
  change Except.ok ((cs.map Clause.leaf?).filterMap id) = Except.ok _
  rw [List.filterMap_map]
  rfl

theorem compiles_of_ofClauses {cs : List Clause} {leaves : List Filter}
    (h : ofClauses cs = .ok leaves) : ∀ c ∈ cs, c.Compiles := by
  rw [ofClauses_eq] at h
  cases hm : cs.mapM Clause.compile with
  | error e =>
    rw [hm] at h
    cases h
  | ok results => exact Result.ok_of_mapM hm

/-- A text compiles when its clauses do, to the filter of their conditions. -/
theorem ofTerms_eq_ok_iff {terms : String} {result : Option Filter} :
    ofTerms terms = .ok result ↔
      (∀ row ∈ clauseRows terms, ∀ c ∈ row, c.Compiles) ∧
        result = ofConditions (conditionRows terms) := by
  have compiled (h : ∀ row ∈ clauseRows terms, ∀ c ∈ row, c.Compiles) :
      ofTerms terms = .ok (ofConditions (conditionRows terms)) := by
    have hm : (clauseRows terms).mapM ofClauses =
        .ok ((clauseRows terms).map fun row => row.filterMap Clause.leaf?) :=
      Result.mapM_of_ok fun row hrow => ofClauses_of_compiles (h row hrow)
    rw [ofTerms_eq, hm]
    rfl
  constructor
  · intro hr
    have hc : ∀ row ∈ clauseRows terms, ∀ c ∈ row, c.Compiles := by
      cases hm : (clauseRows terms).mapM ofClauses with
      | error e =>
        rw [ofTerms_eq, hm] at hr
        cases hr
      | ok parts =>
        intro row hrow
        obtain ⟨leaves, hl⟩ := Result.ok_of_mapM hm row hrow
        exact compiles_of_ofClauses hl
    exact ⟨hc, Except.ok.inj (hr.symm.trans (compiled hc))⟩
  · rintro ⟨hc, rfl⟩
    exact compiled hc

theorem eq_any_of_ofTerms {terms : String} {f : Filter} (h : ofTerms terms = .ok (some f)) :
    conditionRows terms ≠ [] ∧ f = .any ((conditionRows terms).map .all) := by
  obtain ⟨-, hr⟩ := ofTerms_eq_ok_iff.mp h
  unfold ofConditions at hr
  split at hr
  · cases hr
  · next hne => exact ⟨by simpa using hne, Option.some.inj hr⟩

theorem mem_conditionRows {terms : String} {leaves : List Filter}
    (h : leaves ∈ conditionRows terms) :
    leaves ≠ [] ∧ ∃ row ∈ clauseRows terms, leaves = row.filterMap Clause.leaf? := by
  obtain ⟨hm, hne⟩ := List.mem_filter.mp h
  obtain ⟨row, hrow, he⟩ := List.mem_map.mp hm
  exact ⟨by simpa using hne, row, hrow, he.symm⟩

theorem conditionRows_flatten (terms : String) :
    (conditionRows terms).flatten = (clauseRows terms).flatten.filterMap Clause.leaf? := by
  rw [conditionRows, List.flatten_filter_not_isEmpty, List.filterMap_flatten]

theorem ofTerms_error {terms : String} {e : Failure} (h : ofTerms terms = .error e) :
    ∃ row ∈ clauseRows terms, ∃ c ∈ row, c.compile = .error e := by
  cases hm : (clauseRows terms).mapM ofClauses with
  | ok parts =>
    rw [ofTerms_eq, hm] at h
    cases h
  | error f =>
    rw [ofTerms_eq, hm] at h
    cases h
    obtain ⟨row, hrow, hf⟩ := Result.error_of_mapM hm
    rw [ofClauses_eq] at hf
    cases hc : row.mapM Clause.compile with
    | ok results =>
      rw [hc] at hf
      cases hf
    | error d =>
      rw [hc] at hf
      cases hf
      obtain ⟨c, hmem, he⟩ := Result.error_of_mapM hc
      exact ⟨row, hrow, c, hmem, he⟩

/-- Every clause of a text is regular: its field is a field name, and its arguments are pieces
of the text that do not close a parenthesis. -/
theorem regular_of_mem_clauseRows {terms : String} {row : List Clause} {c : Clause}
    (hrow : row ∈ clauseRows terms) (hc : c ∈ row) :
    ∃ field, IsFieldName field ∧
      c.Regular field fun a => IsPiece a ∧ ')' ∉ a.toList ∧ a.toList <:+: terms.toList := by
  obtain ⟨group, hgroup, rfl⟩ := List.mem_map.mp hrow
  obtain ⟨t, ht, hc⟩ := List.mem_flatMap.mp hc
  obtain ⟨hin, name, inner, parts, htext⟩ := Token.mem_groups_ofText hgroup ht
  have hshape := Clause.shape?_clauseText parts.name_plain inner
  rw [← htext] at hshape
  split at hshape
  · simp [Clause.ofToken, hshape] at hc
  · obtain ⟨hname, harguments⟩ := Clause.shape?_eq_some hshape
    have hr := Clause.ofToken_regular hshape c hc
    refine ⟨_, hname, hr.field_eq, fun a ha => ?_, hr.shape⟩
    obtain ⟨hpiece, hinner⟩ := hr.args a ha
    exact ⟨hpiece, fun hclose => parts.inner_open (hinner.subset hclose),
      hinner.trans (harguments.trans hin)⟩

end Filter

end DocGrid

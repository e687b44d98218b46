import DocGrid.Filter.Evaluate
import DocGrid.Proofs.Pipeline.Paths
import DocGrid.Proofs.Terms.RoundTrip

/-! Filter texts of one clause. Such a text compiles as its clause does, and the condition of the
clause alone decides which documents satisfy it. -/

namespace DocGrid

/-- A text that a filter text can start with and that names the field of a clause. -/
structure Names (lead field : String) : Prop where
  plain : ∀ c ∈ lead.toList, Token.isParenthesis c = false
  starts : ∀ c ∈ lead.toList.head?, Token.isDelimiter c = false
  stripped : Text.stripped lead = field
  ne_empty : field ≠ ""

/-- Arguments with commas between them, and colons between their pieces. -/
def argumentsText (arguments : List (List String)) : List Char :=
  Text.join [','] (arguments.map fun pieces => Text.join [':'] (pieces.map String.toList))

theorem Filter.textRows_clauseText {text : List Char} (h : Token.IsClauseText text) :
    textRows text = [[text]] :=
  @Token.groups_rowsText [[text]] (by simp) (by simpa using h) 0

namespace Names

variable {lead field : String} (h : Names lead field)

include h

theorem trim_eq : Text.trim lead.toList = field.toList := by
  rw [← h.stripped, Text.stripped, String.toList_ofList]

theorem toList_ne_nil : lead.toList ≠ [] := by
  intro hnil
  have htrim := h.trim_eq
  rw [hnil] at htrim
  exact h.ne_empty (String.toList_eq_nil_iff.mp htrim.symm)

variable {arguments : List (List String)}
  (hargs : ∀ pieces ∈ arguments, pieces ≠ [] ∧ ∀ p ∈ pieces, IsArgument p)

include hargs

theorem ofToken_argumentsText (hne : arguments ≠ []) :
    Clause.ofToken (Token.clauseText lead.toList (argumentsText arguments)) =
      Clause.ofArguments field none arguments := by
  have hnil : field.toList.isEmpty = false := by simpa using h.ne_empty
  have hshape := Clause.shape?_clauseText h.plain (argumentsText arguments)
  rw [h.trim_eq, hnil] at hshape
  have hcomma : ∀ text ∈ arguments.map fun pieces => Text.join [':'] (pieces.map String.toList),
      ',' ∉ text := by
    intro text htext
    obtain ⟨pieces, hpieces, rfl⟩ := List.mem_map.mp htext
    exact Filter.not_mem_join (by decide) fun p hp => ((hargs pieces hpieces).2 p hp).1.noComma
  have hpieces : (arguments.map fun pieces => Text.join [':'] (pieces.map String.toList)).map
      Clause.pieces = arguments := by
    rw [List.map_map]
    conv_rhs => rw [← List.map_id arguments]
    exact List.map_congr_left fun pieces hp =>
      Filter.pieces_join (hargs pieces hp).1 (hargs pieces hp).2
  simp only [Clause.ofToken, hshape, Bool.false_eq_true, if_false, String.ofList_toList]
  rw [argumentsText, Text.split_join (by simpa using hne) hcomma, hpieces]

theorem isClauseText_argumentsText (hinner : argumentsText arguments ≠ []) :
    Token.IsClauseText (Token.clauseText lead.toList (argumentsText arguments)) := by
  have hopen : ')' ∉ argumentsText arguments := by
    intro hm
    rcases Text.mem_join hm with hm | ⟨text, htext, hm⟩
    · exact absurd (List.mem_singleton.mp hm) (by decide)
    · obtain ⟨pieces, hpieces, rfl⟩ := List.mem_map.mp htext
      exact Filter.not_mem_join (by decide) (fun p hp => ((hargs pieces hpieces).2 p hp).2) hm
  obtain ⟨c, rest, hlead⟩ := List.exists_cons_of_ne_nil h.toList_ne_nil
  have hplain := h.plain
  have hstart := h.starts
  rw [hlead] at hplain hstart ⊢
  exact ⟨c, rest, _, hstart c rfl, ⟨by simp, hplain, hinner, hopen⟩, rfl⟩

/-- The text of a clause compiles to the condition of the clause, if it has one. -/
theorem ofTerms_eq (hinner : argumentsText arguments ≠ []) {c : Clause}
    (hc : Clause.ofArguments field none arguments = [c]) {terms : String}
    (hterms : terms.toList = Token.clauseText lead.toList (argumentsText arguments)) :
    Filter.ofTerms terms = c.compile.map fun result => result.map fun f => .any [.all [f]] := by
  have hne : arguments ≠ [] := by
    rintro rfl
    exact hinner rfl
  have htoken := h.ofToken_argumentsText hargs hne
  have hrows : Filter.clauseRows terms = [[c]] := by
    rw [Filter.clauseRows_eq, hterms,
      Filter.textRows_clauseText (h.isClauseText_argumentsText hargs hinner)]
    simp [htoken, hc]
  rw [Filter.ofTerms_eq, hrows, List.mapM_cons, Filter.ofClauses]
  cases c.compile with
  | error e => rfl
  | ok result => cases result <;> rfl

end Names

@[simp] theorem Filter.evaluate_single (doc : Value) (f : Filter) :
    (any [all [f]]).evaluate doc = f.evaluate doc := by
  simp only [evaluate, evaluateAny, evaluateAll]
  cases f.evaluate doc with
  | error e => rfl
  | ok b => cases b <;> rfl

/-- A name without points leads to the value of that name. -/
theorem Document.resolve_single {field : String} (h : '.' ∉ field.toList) (v : Value) :
    Document.resolve [(field, v)] field = some v := by
  rw [Document.resolve, resolve_of_notMem h]
  simp

end DocGrid

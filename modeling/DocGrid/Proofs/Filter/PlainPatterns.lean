import DocGrid.Proofs.Pattern.Plain
import DocGrid.Proofs.Terms.SingleClauses

/-! Clauses that look for a text. A text without signs of patterns is found where it occurs, and a
match that ignores case finds what the same match finds with case, unless the text is read as a
pattern that does not match itself. -/

namespace DocGrid

/-- The texts that an argument and a pattern take as they stand. -/
structure IsPlainText (s : String) : Prop where
  stripped : Text.stripped s = s
  plain : ∀ c ∈ s.toList, c ∉ [',', ':', '.'] ++ Pattern.signs

theorem IsPlainText.isArgument {s : String} (h : IsPlainText s) : IsArgument s :=
  ⟨⟨h.stripped, fun hm => h.plain _ hm (by simp), fun hm => h.plain _ hm (by simp)⟩,
    fun hm => h.plain _ hm (by simp [Pattern.signs, Pattern.structureChars])⟩

namespace Filter

section Clause

variable {lead field value : String} (h : Names lead field) (hvalue : IsArgument value)

include h hvalue

theorem ofTerms_match : ofTerms (lead ++ "(match:" ++ value ++ ")") =
    .ok (some (any [all [.equals field (.text value)]])) := by
  have hname : IsArgument "match" := ⟨⟨by decide, by decide, by decide⟩, by decide⟩
  have hargs : ∀ pieces ∈ [["match", value]], pieces ≠ [] ∧ ∀ p ∈ pieces, IsArgument p := by
    simp [hname, hvalue]
  rw [h.ofTerms_eq hargs (by simp [argumentsText, Text.join]) rfl
    (by simp [argumentsText, Text.join, Token.clauseText])]
  rfl

theorem ofTerms_matchIgnoringCase : ofTerms (lead ++ "(match:" ++ value ++ ",i)") =
    (Clause.patternFilter? field ("^" ++ value ++ "$") true).map
      fun result => result.map fun f => any [all [f]] := by
  have hname : IsArgument "match" := ⟨⟨by decide, by decide, by decide⟩, by decide⟩
  have hflag : IsArgument "i" := ⟨⟨by decide, by decide, by decide⟩, by decide⟩
  have hargs : ∀ pieces ∈ [["match", value], ["i"]], pieces ≠ [] ∧ ∀ p ∈ pieces, IsArgument p := by
    simp [hname, hvalue, hflag]
  rw [h.ofTerms_eq hargs (by simp [argumentsText, Text.join]) rfl
    (by simp [argumentsText, Text.join, Token.clauseText]), ← Clause.compile_wholePattern]
  rfl

theorem ofTerms_contains : ofTerms (lead ++ "(contains:" ++ value ++ ")") =
    (Clause.patternFilter? field value false).map
      fun result => result.map fun f => any [all [f]] := by
  have hname : IsArgument "contains" := ⟨⟨by decide, by decide, by decide⟩, by decide⟩
  have hargs : ∀ pieces ∈ [["contains", value]], pieces ≠ [] ∧ ∀ p ∈ pieces, IsArgument p := by
    simp [hname, hvalue]
  rw [h.ofTerms_eq hargs (by simp [argumentsText, Text.join]) rfl
    (by simp [argumentsText, Text.join, Token.clauseText])]
  rfl

end Clause

theorem evaluate_pattern {doc : Document} {field text : String} {v : Value} {p : Pattern}
    (hp : Pattern.ofText? text = .ok p) (hv : doc.resolve field = some v) (ignoreCase : Bool) :
    (pattern field text ignoreCase).evaluate (.mapping doc) =
      .ok (v.candidates.any fun c => c.text?.any fun s => p.root.search ignoreCase s.toList) := by
  have hresolve : (Value.mapping doc).resolve field = some v := hv
  simp only [evaluate, patternHolds, hresolve, hp]

theorem patternFilter?_of_ok {text : String} {p : Pattern} (hp : Pattern.ofText? text = .ok p)
    (field : String) (ignoreCase : Bool) : Clause.patternFilter? field text ignoreCase =
      .ok (some (.pattern field text ignoreCase)) := by
  simp only [Clause.patternFilter?, hp]

theorem evaluate_contains {lead field value : String} (h : Names lead field)
    (hpoint : '.' ∉ field.toList) (hvalue : IsPlainText value) :
    ∃ f, ofTerms (lead ++ "(contains:" ++ value ++ ")") = .ok (some f) ∧
      (∀ x : String, ∃ found, f.evaluate (.mapping [(field, .text x)]) = .ok found ∧
        (found = true ↔ value.toList <:+: x.toList)) ∧
      ∀ items : List Value, ∃ found, f.evaluate (.mapping [(field, .list items)]) = .ok found ∧
        (found = true ↔ ∃ x, Value.text x ∈ items ∧ value.toList <:+: x.toList) := by
  obtain ⟨p, hp, hspells⟩ := Pattern.ofText?_plain fun c hc hm =>
    hvalue.plain c hc (List.mem_append_right _ hm)
  have hpoints : '.' ∉ value.toList := fun hm => hvalue.plain _ hm (by simp)
  have hsearch (x : String) :
      p.root.search false x.toList = true ↔ value.toList <:+: x.toList := by
    simp only [hspells, Pattern.spells_iff_eq hpoints]
    exact ⟨fun ⟨ds, hin, hds⟩ => hds ▸ hin, fun hin => ⟨_, hin, rfl⟩⟩
  refine ⟨_, by rw [ofTerms_contains h hvalue.isArgument, patternFilter?_of_ok hp]; rfl, ?_, ?_⟩
  · intro x
    refine ⟨_, by rw [evaluate_single, evaluate_pattern hp (Document.resolve_single hpoint _)], ?_⟩
    simp [Value.candidates, Value.text?, hsearch]
  · intro items
    refine ⟨_, by rw [evaluate_single, evaluate_pattern hp (Document.resolve_single hpoint _)], ?_⟩
    simp only [Value.candidates, List.any_eq_true, Option.any_eq_true, hsearch]
    constructor
    · rintro ⟨v, hv, x, hx, hin⟩
      cases v with
      | text s =>
        obtain rfl : s = x := Option.some.inj hx
        exact ⟨s, hv, hin⟩
      | _ => cases hx
    · rintro ⟨x, hx, hin⟩
      exact ⟨.text x, hx, x, rfl, hin⟩

theorem evaluate_contains_spaced :
    ∃ f, ofTerms " tags(contains:q; r]-)" = .ok (some f) ∧
      (∀ x : String, ∃ found, f.evaluate (.mapping [("tags", .text x)]) = .ok found ∧
        (found = true ↔ "q; r]-".toList <:+: x.toList)) ∧
      ∀ items : List Value, ∃ found, f.evaluate (.mapping [("tags", .list items)]) = .ok found ∧
        (found = true ↔ ∃ x, Value.text x ∈ items ∧ "q; r]-".toList <:+: x.toList) := by
  have hname : Names " tags" "tags" := ⟨by simp [Token.isParenthesis], by simp [Token.isDelimiter],
    by decide, by decide⟩
  have hvalue : IsPlainText "q; r]-" := ⟨by decide, by simp [Pattern.signs, Pattern.structureChars]⟩
  have hcontains := evaluate_contains hname (by decide) hvalue
  rwa [show " tags" ++ "(contains:" ++ "q; r]-" ++ ")" = " tags(contains:q; r]-)" by decide]
    at hcontains

/-! Matches that ignore case. -/

theorem evaluate_equals_text {doc : Document} {field value x : String}
    (hx : doc.resolve field = some (.text x)) :
    (any [all [.equals field (.text value)]]).evaluate (.mapping doc) = .ok (x == value) := by
  have hresolve : (Value.mapping doc).resolve field = some (.text x) := hx
  rw [evaluate_single, evaluate, hresolve]
  rfl

section IgnoringCase

variable {lead field value : String} (h : Names lead field) (hvalue : IsArgument value)

include h hvalue

/-- Between the signs for both ends a text without other signs is always a pattern. It matches the
texts that are spelled like it, up to a line break at the end. -/
theorem evaluate_matchIgnoringCase
    (hplain : ∀ c ∈ value.toList, c ∉ Pattern.signs) :
    ∃ f, ofTerms (lead ++ "(match:" ++ value ++ ",i)") = .ok (some f) ∧
      ∀ (doc : Document) (x : String), doc.resolve field = some (.text x) →
        ∃ found, f.evaluate (.mapping doc) = .ok found ∧
          (found = true ↔ Pattern.Spells true value.toList x.toList ∨
            ∃ line, x.toList = line ++ ['\n'] ∧ Pattern.Spells true value.toList line) := by
  obtain ⟨p, hp, hsearch⟩ := Pattern.ofText?_whole hplain
  refine ⟨_, by rw [ofTerms_matchIgnoringCase h hvalue, patternFilter?_of_ok hp]; rfl, ?_⟩
  intro doc x hx
  refine ⟨_, by rw [evaluate_single, evaluate_pattern hp hx], ?_⟩
  simp only [Value.candidates, Value.text?, List.any_cons, List.any_nil, Bool.or_false,
    Option.any_some, hsearch]

/-- A match that ignores case keeps what the match with case finds exactly if the text, read as a
pattern, matches itself, as every text without signs but points does. -/
theorem matchIgnoringCase_widens :
    ∃ exact, ofTerms (lead ++ "(match:" ++ value ++ ")") = .ok (some exact) ∧
      (∀ loose, ofTerms (lead ++ "(match:" ++ value ++ ",i)") = .ok (some loose) →
        ∃ p, Pattern.ofText? ("^" ++ value ++ "$") = .ok p ∧
          ∀ (doc : Document) (x : String), doc.resolve field = some (.text x) →
            exact.evaluate (.mapping doc) = .ok true →
              loose.evaluate (.mapping doc) = .ok (p.root.search true value.toList)) ∧
      ((∀ c ∈ value.toList, c ∉ Pattern.signs) →
        ∃ loose, ofTerms (lead ++ "(match:" ++ value ++ ",i)") = .ok (some loose) ∧
          ∀ (doc : Document) (x : String), doc.resolve field = some (.text x) →
            exact.evaluate (.mapping doc) = .ok true →
              loose.evaluate (.mapping doc) = .ok true) := by
  have hfound {doc : Document} {x : String} (hx : doc.resolve field = some (.text x))
      (hexact : (any [all [.equals field (.text value)]]).evaluate (.mapping doc) = .ok true) :
      x = value := by
    rw [evaluate_equals_text hx] at hexact
    simpa using Except.ok.inj hexact
  refine ⟨_, ofTerms_match h hvalue, fun loose hloose => ?_, fun hplain => ?_⟩
  · rw [ofTerms_matchIgnoringCase h hvalue] at hloose
    rcases Clause.patternFilter?_cases field ("^" ++ value ++ "$") true with
      ⟨p, hp, hfilter⟩ | ⟨-, hfilter⟩ | ⟨problem, -, -, hfilter⟩
    · rw [hfilter] at hloose
      obtain rfl := Option.some.inj (Except.ok.inj hloose)
      refine ⟨p, hp, fun doc x hx hexact => ?_⟩
      obtain rfl := hfound hx hexact
      rw [evaluate_single, evaluate_pattern hp hx]
      simp [Value.candidates, Value.text?]
    · rw [hfilter] at hloose
      cases hloose
    · rw [hfilter] at hloose
      cases hloose
  · obtain ⟨loose, hloose, hspells⟩ := evaluate_matchIgnoringCase h hvalue hplain
    refine ⟨loose, hloose, fun doc x hx hexact => ?_⟩
    obtain rfl := hfound hx hexact
    obtain ⟨found, hevaluate, hiff⟩ := hspells doc x hx
    rw [hevaluate, hiff.mpr (.inl (Pattern.spells_self true _))]

end IgnoringCase

theorem matchIgnoringCase_widens_pointed :
    ∃ exact loose, ofTerms "who(match:Mr. X)" = .ok (some exact) ∧
      ofTerms "who(match:Mr. X,i)" = .ok (some loose) ∧
      loose.evaluate (.mapping [("who", .text "Mr. X")]) = .ok true := by
  have hname : Names "who" "who" := ⟨by simp [Token.isParenthesis], by simp [Token.isDelimiter],
    by decide, by decide⟩
  have hvalue : IsArgument "Mr. X" := ⟨⟨by decide, by decide, by decide⟩, by decide⟩
  have hwhole : "who" ++ "(match:" ++ "Mr. X" ++ ")" = "who(match:Mr. X)" := by decide
  have hflag : "who" ++ "(match:" ++ "Mr. X" ++ ",i)" = "who(match:Mr. X,i)" := by decide
  obtain ⟨exact, hexact, -, hplain⟩ := matchIgnoringCase_widens hname hvalue
  obtain ⟨loose, hloose, hwidens⟩ := hplain (by simp [Pattern.signs, Pattern.structureChars])
  refine ⟨exact, loose, hwhole ▸ hexact, hflag ▸ hloose, ?_⟩
  refine hwidens _ "Mr. X" (Document.resolve_single (by decide) _) ?_
  obtain rfl := Option.some.inj (Except.ok.inj (hexact.symm.trans (ofTerms_match hname hvalue)))
  rw [evaluate_equals_text (Document.resolve_single (by decide) _), beq_self_eq_true]

/-- A quantifier makes of the text a pattern that does not match it. -/
theorem not_matchIgnoringCase_widens : ¬ ∀ (lead field value : String) (exact loose : Filter)
    (doc : Document) (x : String), Names lead field → IsArgument value →
    ofTerms (lead ++ "(match:" ++ value ++ ")") = .ok (some exact) →
    ofTerms (lead ++ "(match:" ++ value ++ ",i)") = .ok (some loose) →
    doc.resolve field = some (.text x) → exact.evaluate (.mapping doc) = .ok true →
      loose.evaluate (.mapping doc) = .ok true := by
  intro h
  have hname : Names "a" "a" := ⟨by simp [Token.isParenthesis], by simp [Token.isDelimiter],
    by decide, by decide⟩
  have hvalue : IsArgument "x+" := ⟨⟨by decide, by decide, by decide⟩, by decide⟩
  have hsearch : ((Pattern.ofText? "^x+$").toOption.map fun p =>
      p.root.search true "x+".toList) = some false := by decide +kernel
  have htext : "^" ++ "x+" ++ "$" = "^x+$" := by decide
  cases hp : Pattern.ofText? "^x+$" with
  | error problem =>
    rw [hp] at hsearch
    cases hsearch
  | ok p =>
    have hmissed : p.root.search true "x+".toList = false := by
      rw [hp] at hsearch
      exact Option.some.inj hsearch
    have hloose := ofTerms_matchIgnoringCase hname hvalue
    rw [htext, patternFilter?_of_ok hp] at hloose
    have hx : Document.resolve [("a", .text "x+")] "a" = some (.text "x+") :=
      Document.resolve_single (by decide) _
    have hwide := h "a" "a" "x+" _ _ _ "x+" hname hvalue (ofTerms_match hname hvalue) hloose hx
      (by rw [evaluate_equals_text hx, beq_self_eq_true])
    rw [evaluate_single, evaluate_pattern hp hx] at hwide
    simp only [Value.candidates, Value.text?, List.any_cons, List.any_nil, Bool.or_false,
      Option.any_some, hmissed] at hwide
    cases hwide

end Filter

end DocGrid

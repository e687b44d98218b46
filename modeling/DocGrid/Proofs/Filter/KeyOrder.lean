import DocGrid.Proofs.Filter.JoinedTexts
import DocGrid.Proofs.Filter.Reorderings

/-! Filters do not depend on the order of the keys of a document. Only a search does, and only where
a phrase runs from one text of the document into the next: which text is the next one depends on the
order of the keys. -/

namespace DocGrid

/-- A term is found in a document, but in none of its texts. -/
def TextSearch.RunsAcross (options : Document) (doc : Value) (term : List Char) : Prop :=
  Straddles (isCaseSensitive options) doc.texts term

namespace Filter

open TextSearch (RunsAcross)

def hasParts : Filter → Bool
  | all _ => true
  | any _ => true
  | _ => false

mutual

def leaves : Filter → List Filter
  | all filters => leavesOf filters
  | any filters => leavesOf filters
  | f => [f]

def leavesOf : List Filter → List Filter
  | [] => []
  | f :: rest => leaves f ++ leavesOf rest

end

section Leaves

variable {v w : Value}

mutual

/-- Documents that no leaf tells apart are told apart by no filter. -/
theorem evaluate_congr : ∀ f : Filter,
    (∀ leaf ∈ f.leaves, leaf.hasParts = false → leaf.evaluate v = leaf.evaluate w) →
    f.evaluate v = f.evaluate w
  | equals .., h => h _ List.mem_cons_self rfl
  | pattern .., h => h _ List.mem_cons_self rfl
  | comparison .., h => h _ List.mem_cons_self rfl
  | search .., h => h _ List.mem_cons_self rfl
  | all filters, h => evaluateAll_congr filters h
  | any filters, h => evaluateAny_congr filters h

theorem evaluateAll_congr : ∀ fs : List Filter,
    (∀ leaf ∈ leavesOf fs, leaf.hasParts = false → leaf.evaluate v = leaf.evaluate w) →
    evaluateAll v fs = evaluateAll w fs
  | [], _ => rfl
  | f :: rest, h => by
    have hf := evaluate_congr f fun leaf hleaf => h leaf (List.mem_append_left _ hleaf)
    have hrest := evaluateAll_congr rest fun leaf hleaf => h leaf (List.mem_append_right _ hleaf)
    rw [evaluateAll, evaluateAll, hf, hrest]

theorem evaluateAny_congr : ∀ fs : List Filter,
    (∀ leaf ∈ leavesOf fs, leaf.hasParts = false → leaf.evaluate v = leaf.evaluate w) →
    evaluateAny v fs = evaluateAny w fs
  | [], _ => rfl
  | f :: rest, h => by
    have hf := evaluate_congr f fun leaf hleaf => h leaf (List.mem_append_left _ hleaf)
    have hrest := evaluateAny_congr rest fun leaf hleaf => h leaf (List.mem_append_right _ hleaf)
    rw [evaluateAny, evaluateAny, hf, hrest]

end

end Leaves

section Reordered

variable {v w : Value} (h : v.Reordered w)

include h

theorem evaluate_leaf_reordered {leaf : Filter} (hleaf : leaf.hasParts = false)
    (hsearch : ∀ terms options, leaf = search terms options →
      leaf.evaluate v = leaf.evaluate w) : leaf.evaluate v = leaf.evaluate w := by
  cases leaf with
  | equals field operand =>
    have hequal : ∀ a b, Value.Reorders a b → equalsOperand a operand = equalsOperand b operand :=
      fun a b hab => hab.equalsOperand_eq operand
    exact congrArg Except.ok
      (h.resolve_eq (g := fun found => equalsOperand (found.getD .null) operand) hequal field)
  | pattern field text ignoreCase =>
    exact h.resolve_eq (g := (patternHolds · text ignoreCase))
      (fun a b hab => hab.patternHolds_eq text ignoreCase) field
  | comparison field op operand =>
    exact h.resolve_eq (g := (comparisonHolds · op operand))
      (fun a b hab => hab.comparisonHolds_eq op operand) field
  | search terms options => exact hsearch terms options rfl
  | _ => cases hleaf

theorem evaluate_search_reordered {terms : String} {options : Document}
    (hphrases : ∀ t ∈ SearchTerm.ofText terms, ' ' ∈ t.text →
      (RunsAcross options v t.text ↔ RunsAcross options w t.text)) :
    (search terms options).evaluate v = (search terms options).evaluate w := by
  rw [evaluate, evaluate, TextSearch.holds_eq, TextSearch.holds_eq]
  refine congrArg Except.ok (TextSearch.matchesTerms_congr fun t ht => ?_)
  exact TextSearch.finds_perm (SearchTerm.text_ne_nil ht) h.texts_perm (hphrases t ht)

/-- A search for one phrase tells documents apart exactly if the phrase runs across the texts of
one of them only. -/
theorem evaluate_phrase_reordered {terms : String} {term : List Char}
    (hterms : SearchTerm.ofText terms = [⟨false, term⟩]) (options : Document) :
    (search terms options).evaluate v = (search terms options).evaluate w ↔
      (RunsAcross options v term ↔ RunsAcross options w term) := by
  have hne : term ≠ [] := SearchTerm.text_ne_nil (hterms ▸ List.mem_cons_self)
  have hholds (doc : Value) : TextSearch.holds terms options doc =
      TextSearch.finds (TextSearch.isCaseSensitive options) doc.texts term := by
    rw [TextSearch.holds_eq, hterms]
    simp [TextSearch.matchesTerms, SearchTerm.wanted, SearchTerm.unwanted]
  rw [evaluate, evaluate, Except.ok.injEq, hholds, hholds]
  constructor
  · intro hsame
    have hinside : ∀ {s}, s ∈ v.texts ↔ s ∈ w.texts := h.texts_perm.mem_iff
    simp only [RunsAcross, TextSearch.Straddles, hsame, hinside]
  · exact fun hphrase => TextSearch.finds_perm hne h.texts_perm fun _ => hphrase

/-- The order of keys makes no difference to a filter, except for phrases that run from one text
into the next. -/
theorem evaluate_reordered :
    (∀ f : Filter, (∀ terms options, search terms options ∈ f.leaves →
        ∀ t ∈ SearchTerm.ofText terms, ' ' ∈ t.text →
          (RunsAcross options v t.text ↔ RunsAcross options w t.text)) →
      f.evaluate v = f.evaluate w) ∧
    ∀ terms options term, SearchTerm.ofText terms = [⟨false, term⟩] →
      ((search terms options).evaluate v = (search terms options).evaluate w ↔
        (RunsAcross options v term ↔ RunsAcross options w term)) := by
  refine ⟨fun f hphrases => ?_, fun terms options term hterms =>
    evaluate_phrase_reordered h hterms options⟩
  apply evaluate_congr f
  intro leaf hmem hleaf
  apply evaluate_leaf_reordered h hleaf
  rintro terms options rfl
  exact evaluate_search_reordered h (hphrases terms options hmem)

end Reordered

/-- Two mappings in one another, and a phrase that stands in one text. -/
theorem evaluate_reordered_tea :
    let v : Value := .mapping [("a", .mapping [("x", .text "Green tea"), ("y", .list [.int 5])]),
      ("b", .text "cake")]
    let w : Value := .mapping [("b", .text "cake"),
      ("a", .mapping [("y", .list [.int 5]), ("x", .text "Green tea")])]
    let f : Filter := .all [.search "\"green tea\" -milk" [], .comparison "a.y" .less (.text "7")]
    f.evaluate v = .ok true ∧ f.evaluate w = .ok true := by
  intro v w f
  have hinner : Value.Reorders v (.mapping [("a", .mapping [("y", .list [.int 5]),
      ("x", .text "Green tea")]), ("b", .text "cake")]) :=
    .entry (.keys (by decide) (.swap ..)) [] "a" [("b", .text "cake")]
  have houter : Value.Reorders (.mapping [("a", .mapping [("y", .list [.int 5]),
      ("x", .text "Green tea")]), ("b", .text "cake")]) w :=
    .keys (by decide) (.swap ..)
  have hvw : v.Reordered w := .tail (.single hinner) houter
  have hv : f.evaluate v = .ok true := by rfl
  refine ⟨hv, ?_⟩
  rw [← (evaluate_reordered hvw).1 f, hv]
  intro terms options hmem t ht hspace
  have hsearch : terms = "\"green tea\" -milk" ∧ options = [] := by
    simpa [f, leaves, leavesOf] using hmem
  obtain ⟨rfl, rfl⟩ := hsearch
  have hterms : SearchTerm.ofText "\"green tea\" -milk" =
      [⟨false, "green tea".toList⟩, ⟨true, "milk".toList⟩] := by rfl
  have hfound : TextSearch.findsIn false "green tea".toList "Green tea" = true := by
    decide +kernel
  rw [hterms] at ht
  rcases List.mem_pair.mp ht with rfl | rfl
  · refine iff_of_false (fun hacross => ?_) (fun hacross => ?_)
    · exact Bool.false_ne_true ((hacross.2 "Green tea" (by decide)).symm.trans hfound)
    · exact Bool.false_ne_true ((hacross.2 "Green tea" (by decide)).symm.trans hfound)
  · exact absurd hspace (by decide)

/-- A phrase put together by two texts is found in one order of the keys only. -/
theorem not_evaluate_reordered :
    ¬∀ (f : Filter) (v w : Value), v.Reordered w →
      (∀ field text ignoreCase, pattern field text ignoreCase ∈ f.leaves →
        ∃ p, Pattern.ofText? text = .ok p) → f.evaluate v = f.evaluate w := by
  intro h
  have hreordered : Value.Reordered (.mapping [("x", .text "a"), ("y", .text "b")])
      (.mapping [("y", .text "b"), ("x", .text "a")]) :=
    .single (.keys (by decide) (.swap ..))
  have hpatterns : ∀ field text ignoreCase,
      pattern field text ignoreCase ∈ leaves (.search "\"a b\"" []) →
        ∃ p, Pattern.ofText? text = .ok p := by
    intro field text ignoreCase hmem
    cases List.mem_singleton.mp hmem
  cases h (.search "\"a b\"" []) _ _ hreordered hpatterns

end Filter

end DocGrid

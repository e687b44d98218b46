import DocGrid.Proofs.Pattern.Counts
import DocGrid.Proofs.Terms.Compile

/-! When a filter text has no answer at all: only where a clause asks for a pattern with a repeat
count that is too large or too long. Every other text gives a filter or nothing. -/

namespace DocGrid

theorem infix_of_infix_cons {α : Type} {run xs : List α} {x : α} (hx : x ∉ run)
    (h : run <:+: x :: xs) : run <:+: xs := by
  rcases List.infix_cons_iff.mp h with hp | hi
  · cases run with
    | nil => exact List.nil_infix
    | cons y run =>
      obtain ⟨rfl, -⟩ := List.cons_prefix_cons.mp hp
      exact absurd (List.mem_cons_self ..) hx
  · exact hi

theorem infix_of_infix_concat {α : Type} {run xs : List α} {x : α} (hx : x ∉ run)
    (h : run <:+: xs ++ [x]) : run <:+: xs := by
  have hr : run.reverse <:+: x :: xs.reverse := by
    simpa using List.reverse_infix.mpr h
  have hi := infix_of_infix_cons (by simpa using hx) hr
  exact List.reverse_infix.mp hi

namespace Clause

theorem pattern?_argument {c : Clause} {p : String} (h : c.pattern? = some p) :
    ∃ a ∈ c.args, p = a ∨ p = "^" ++ a ++ "$" := by
  unfold pattern? at h
  split at h
  · next a more _ hargs =>
    split at h
    · exact ⟨a, by simp [hargs], .inr (Option.some.inj h).symm⟩
    · cases h
  · next a more _ hargs => exact ⟨a, by simp [hargs], .inl (Option.some.inj h).symm⟩
  · cases h

theorem isLongCount_of_pattern {a p : String} {digits : List Char} {problem : Pattern.Problem}
    (ha : p = a ∨ p = "^" ++ a ++ "$") (h : Pattern.IsLongCount p.toList digits problem) :
    Pattern.IsLongCount a.toList digits problem := by
  rcases ha with rfl | rfl
  · exact h
  · refine ⟨?_, h.isDigit, h.size⟩
    have hrun : digits <:+: '^' :: (a.toList ++ ['$']) := by simpa using h.run
    have hhat : '^' ∉ digits := fun hm => absurd (h.isDigit _ hm) (by decide)
    have hdollar : '$' ∉ digits := fun hm => absurd (h.isDigit _ hm) (by decide)
    exact infix_of_infix_concat hdollar (infix_of_infix_cons hhat hrun)

end Clause

namespace Filter

def patternsOf (terms : String) : List String :=
  (clauseRows terms).flatten.filterMap Clause.pattern?

theorem compiles_iff {terms : String} {row : List Clause} {c : Clause}
    (hrow : row ∈ clauseRows terms) (hc : c ∈ row) :
    c.Compiles ↔ ∀ p ∈ c.pattern?, ∀ problem, Pattern.ofText? p = .error problem →
      problem = .malformed := by
  obtain ⟨field, -, hr⟩ := regular_of_mem_clauseRows hrow hc
  constructor
  · rintro ⟨result, hresult⟩ p hp problem hproblem
    by_contra hne
    have he := (Clause.compile_eq_error_iff hr.shape (.ofPattern problem)).mpr
      ⟨p, problem, hp, hproblem, hne, rfl⟩
    rw [hresult] at he
    cases he
  · intro h
    cases hresult : c.compile with
    | ok result => exact ⟨result, hresult⟩
    | error e =>
      obtain ⟨p, problem, hp, hproblem, hne, -⟩ :=
        (Clause.compile_eq_error_iff hr.shape e).mp hresult
      exact absurd (h p hp problem hproblem) hne

theorem ofTerms_ok_iff (terms : String) :
    (∃ result, ofTerms terms = .ok result) ↔
      ∀ p ∈ patternsOf terms, ∀ problem, Pattern.ofText? p = .error problem →
        problem = .malformed := by
  have hall : (∃ result, ofTerms terms = .ok result) ↔
      ∀ row ∈ clauseRows terms, ∀ c ∈ row, c.Compiles := by
    simp only [ofTerms_eq_ok_iff, exists_and_left, exists_eq, and_true]
  rw [hall]
  constructor
  · intro h p hp
    obtain ⟨c, hc, hpattern⟩ := List.mem_filterMap.mp hp
    obtain ⟨row, hrow, hc⟩ := List.mem_flatten.mp hc
    exact (compiles_iff hrow hc).mp (h row hrow c hc) p hpattern
  · intro h row hrow c hc
    refine (compiles_iff hrow hc).mpr fun p hp => h p ?_
    exact List.mem_filterMap.mpr ⟨c, List.mem_flatten.mpr ⟨row, hrow, hc⟩, hp⟩

/-- A pattern of a text has no closing parenthesis, so that only a count can spoil it. -/
theorem isLongCount_of_ofTerms {terms : String} {e : Failure} (h : ofTerms terms = .error e) :
    ∃ problem digits, Pattern.IsLongCount terms.toList digits problem ∧ e = .ofPattern problem := by
  obtain ⟨row, hrow, c, hc, he⟩ := ofTerms_error h
  obtain ⟨field, -, hr⟩ := regular_of_mem_clauseRows hrow hc
  obtain ⟨p, problem, hp, hproblem, hne, rfl⟩ := (Clause.compile_eq_error_iff hr.shape e).mp he
  obtain ⟨a, ha, hpa⟩ := Clause.pattern?_argument hp
  obtain ⟨-, hparen, hin⟩ := hr.args a ha
  have hparen' : ')' ∉ p.toList := by
    rcases hpa with rfl | rfl
    · exact hparen
    · simpa using hparen
  have hroot : Pattern.Node.ofText? p.toList = .error problem := by
    unfold Pattern.ofText? at hproblem
    cases hn : Pattern.Node.ofText? p.toList with
    | ok n =>
      rw [hn] at hproblem
      cases hproblem
    | error other =>
      rw [hn] at hproblem
      cases hproblem
      rfl
  obtain ⟨digits, hd⟩ := (Pattern.problem_of_ofText hparen' hroot).resolve_left hne
  have hdigits := Clause.isLongCount_of_pattern hpa hd
  exact ⟨problem, digits, ⟨hdigits.run.trans hin, hdigits.isDigit, hdigits.size⟩, rfl⟩

/-- A text has an answer, which is nothing or a choice between groups, exactly when each pattern
that it asks for is read or is malformed. Otherwise some run of digits in the text is no count. -/
theorem ofTerms_answer (terms : String) :
    ((∃ result, ofTerms terms = .ok result) ↔
      ∀ p ∈ patternsOf terms, ∀ problem, Pattern.ofText? p = .error problem →
        problem = .malformed) ∧
    (∀ f, ofTerms terms = .ok (some f) → ∃ groups, groups ≠ [] ∧ f = .any groups) ∧
    ∀ e, ofTerms terms = .error e →
      ∃ problem digits, Pattern.IsLongCount terms.toList digits problem ∧
        e = .ofPattern problem := by
  refine ⟨ofTerms_ok_iff terms, fun f hf => ?_, fun e he => isLongCount_of_ofTerms he⟩
  obtain ⟨hne, rfl⟩ := eq_any_of_ofTerms hf
  exact ⟨_, by simpa using hne, rfl⟩

theorem not_ofTerms_ok : ¬∀ terms, ∃ result, ofTerms terms = .ok result := by
  intro h
  have hpatterns : patternsOf "a(contains:x\x7b4294967295\x7d)" = ["x\x7b4294967295\x7d"] := by
    decide +kernel
  have hroot : (match Pattern.Node.ofText? "x\x7b4294967295\x7d".toList with
      | .error problem => some problem
      | .ok _ => none) = some Pattern.Problem.countTooLarge := by decide +kernel
  have hproblem : Pattern.ofText? "x\x7b4294967295\x7d" = .error .countTooLarge := by
    unfold Pattern.ofText?
    split at hroot
    · next problem hp =>
      rw [hp, Option.some.inj hroot]
      rfl
    · cases hroot
  have hall := (ofTerms_ok_iff _).mp (h "a(contains:x\x7b4294967295\x7d)")
  rw [hpatterns] at hall
  cases hall _ (List.mem_singleton_self _) _ hproblem

end Filter

end DocGrid

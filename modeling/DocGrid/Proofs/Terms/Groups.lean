import DocGrid.Proofs.Terms.Tokens

/-! The groups of the clauses among any tokens. They hold every clause once and in order, and a
group ends exactly where the token before the next clause is a semicolon. -/

namespace DocGrid.Token

/-- The number of the group in which the clause with a given number is. -/
def groupNumber : List (List Token) → Nat → Nat
  | [], _ => 0
  | group :: rest, n => if n < group.length then 0 else groupNumber rest (n - group.length) + 1

theorem groupNumber_append (closed groups : List (List Token)) (n : Nat) :
    groupNumber (closed ++ groups) (closed.flatten.length + n) =
      closed.length + groupNumber groups n := by
  induction closed with
  | nil => simp
  | cons group closed ih =>
    have hlt : ¬group.length + closed.flatten.length + n < group.length := by omega
    have hrest : group.length + closed.flatten.length + n - group.length =
        closed.flatten.length + n := by omega
    rw [List.cons_append, List.flatten_cons, List.length_append, groupNumber, if_neg hlt, hrest, ih,
      List.length_cons]
    omega

theorem groupNumber_first {group : List Token} {n : Nat} (h : n < group.length)
    (rest : List (List Token)) : groupNumber (group :: rest) n = 0 := by
  rw [groupNumber, if_pos h]

theorem flatten_groupsFrom (afterOr : Bool) (current tokens : List Token) :
    (groupsFrom afterOr current tokens).flatten = current ++ tokens.filter isClause := by
  induction tokens generalizing afterOr current with
  | nil => cases current <;> simp [groupsFrom]
  | cons t rest ih =>
    cases ht : t.isClause with
    | false => simp [groupsFrom, ht, ih]
    | true =>
      simp only [groupsFrom, ht, if_true, List.filter_cons_of_pos]
      split <;> simp [ih]

theorem nil_notMem_groupsFrom (afterOr : Bool) (current tokens : List Token) :
    [] ∉ groupsFrom afterOr current tokens := by
  induction tokens generalizing afterOr current with
  | nil => cases current <;> simp [groupsFrom]
  | cons t rest ih =>
    simp only [groupsFrom]
    split
    · split
      · next h =>
        have hne : current ≠ [] := by simp_all
        simpa [hne.symm] using ih false [t]
      · exact ih _ _
    · exact ih _ _

/-- A group that is open stays the first one, whatever is added to it. -/
theorem groupsFrom_open (afterOr : Bool) {current : List Token} (h : current ≠ [])
    (tokens : List Token) :
    ∃ more groups, groupsFrom afterOr current tokens = (current ++ more) :: groups := by
  induction tokens generalizing afterOr current with
  | nil => exact ⟨[], [], by simp [groupsFrom, h]⟩
  | cons t rest ih =>
    simp only [groupsFrom]
    split
    · split
      · exact ⟨[], _, by rw [List.append_nil]⟩
      · obtain ⟨more, groups, hg⟩ := ih false (show current ++ [t] ≠ [] by simp)
        exact ⟨t :: more, groups, by rw [hg, List.append_assoc]; rfl⟩
    · exact ih _ h

/-- What was read before a clause is in groups that are closed and in the one that gets the
clause. -/
theorem groupsFrom_upTo {a : Token} (ha : a.isClause = true) (afterOr : Bool)
    (current before rest : List Token) :
    ∃ closed row, closed.flatten ++ row = current ++ before.filter isClause ∧
      groupsFrom afterOr current (before ++ a :: rest) =
        closed ++ groupsFrom false (row ++ [a]) rest := by
  induction before generalizing afterOr current with
  | nil =>
    by_cases hopen : afterOr && !current.isEmpty
    · exact ⟨[current], [], by simp, by simp [groupsFrom, ha, hopen]⟩
    · exact ⟨[], current, by simp, by simp [groupsFrom, ha, hopen]⟩
  | cons t before ih =>
    cases ht : t.isClause with
    | false =>
      obtain ⟨closed, row, hrow, hg⟩ := ih (t.text == [';']) current
      exact ⟨closed, row, by simp [hrow, ht], by simp [groupsFrom, ht, hg]⟩
    | true =>
      by_cases hopen : afterOr && !current.isEmpty
      · obtain ⟨closed, row, hrow, hg⟩ := ih false [t]
        exact ⟨current :: closed, row, by simp [hrow, ht], by simp [groupsFrom, ht, hopen, hg]⟩
      · obtain ⟨closed, row, hrow, hg⟩ := ih false (current ++ [t])
        exact ⟨closed, row, by simp [hrow, ht], by simp [groupsFrom, ht, hopen, hg]⟩

/-- Of tokens without a clause only the last one counts. -/
theorem groupsFrom_between {between : List Token} (h : ∀ t ∈ between, t.isClause = false)
    (afterOr : Bool) (current rest : List Token) :
    groupsFrom afterOr current (between ++ rest) =
      groupsFrom ((between.getLast?.map (·.text == [';'])).getD afterOr) current rest := by
  induction between generalizing afterOr with
  | nil => rfl
  | cons t between ih =>
    have hmore : ∀ u ∈ between, u.isClause = false := fun u hu => h u (List.mem_cons_of_mem _ hu)
    simp only [List.cons_append, groupsFrom, h t List.mem_cons_self, Bool.false_eq_true, if_false,
      ih hmore, List.getLast?_cons]
    cases between.getLast? <;> rfl

theorem isClause_eq_false_iff {t : Token} : t.isClause = false ↔ t.kind = .delimiter := by
  cases h : t.kind <;> simp [isClause, h]

theorem last_isOr_iff {a : Token} {between : List Token} (ha : a.isClause = true)
    (h : ∀ t ∈ between, t.isClause = false) :
    (between.getLast?.map (·.text == [';'])).getD false = true ↔
      ∃ t ∈ (a :: between).getLast?, t.kind = .delimiter ∧ t.text = [';'] := by
  rcases List.eq_nil_or_concat between with rfl | ⟨bs, u, rfl⟩
  · have hkind : a.kind = .clause := by simpa [isClause] using ha
    simp [hkind]
  · have hkind := isClause_eq_false_iff.mp (h u (by simp))
    have hlast : (a :: (bs ++ [u])).getLast? = some u := by
      rw [← List.cons_append, List.getLast?_concat]
    simp [hlast, hkind]

/-- The groups hold the clauses in order, and of two clauses in a row the second one opens a group
exactly when the token directly before it is a semicolon. -/
theorem groups_clauses (tokens : List Token) :
    (groups tokens).flatten = tokens.filter isClause ∧ [] ∉ groups tokens ∧
      ∀ before a between b after, tokens = before ++ a :: (between ++ b :: after) →
        a.isClause = true → b.isClause = true → (∀ t ∈ between, t.isClause = false) →
        (groupNumber (groups tokens) (before.filter isClause).length ≠
            groupNumber (groups tokens) ((before.filter isClause).length + 1) ↔
          ∃ t ∈ (a :: between).getLast?, t.kind = .delimiter ∧ t.text = [';']) := by
  refine ⟨flatten_groupsFrom false [] tokens, nil_notMem_groupsFrom false [] tokens, ?_⟩
  rintro before a between b after rfl ha hb hbetween
  obtain ⟨closed, row, hrow, hg⟩ := groupsFrom_upTo ha false [] before (between ++ b :: after)
  rw [groupsFrom_between hbetween] at hg
  have hcount : (before.filter isClause).length = closed.flatten.length + row.length := by
    rw [← List.length_append, hrow, List.nil_append]
  rw [← last_isOr_iff ha hbetween, groups, hg, hcount, Nat.add_assoc, groupNumber_append,
    groupNumber_append]
  -- Without a semicolon the second clause goes on with the row, with one it starts the next row.
  cases (between.getLast?.map (·.text == [';'])).getD false with
  | false =>
    obtain ⟨more, rest, hopen⟩ :=
      groupsFrom_open false (show row ++ [a] ++ [b] ≠ [] by simp) after
    rw [groupsFrom_clause hb (.inl rfl), hopen, groupNumber_first (by simp),
      groupNumber_first (by simp)]
    simp
  | true =>
    obtain ⟨more, rest, hopen⟩ := groupsFrom_open false (List.cons_ne_nil b []) after
    have hnext : groupsFrom true (row ++ [a]) (b :: after) =
        (row ++ [a]) :: ([b] ++ more) :: rest := by
      simp [groupsFrom, hb, hopen]
    have hsecond : groupNumber ((row ++ [a]) :: ([b] ++ more) :: rest) (row.length + 1) = 1 := by
      simp [groupNumber]
    rw [hnext, groupNumber_first (by simp), hsecond]
    simp

theorem groups_clauses_mixed :
    let a : Token := ⟨.clause, "a(1)".toList, 0⟩
    let comma : Token := ⟨.delimiter, [','], 4⟩
    let semicolon : Token := ⟨.delimiter, [';'], 5⟩
    groups [semicolon, a, a, comma, semicolon, a, semicolon, comma, a, semicolon] =
        [[a, a], [a, a]] ∧
      groupNumber [[a, a], [a, a]] 1 ≠ groupNumber [[a, a], [a, a]] 2 := by
  let a : Token := ⟨.clause, "a(1)".toList, 0⟩
  let comma : Token := ⟨.delimiter, [','], 4⟩
  let semicolon : Token := ⟨.delimiter, [';'], 5⟩
  let tokens := [semicolon, a, a, comma, semicolon, a, semicolon, comma, a, semicolon]
  have hgroups : groups tokens = [[a, a], [a, a]] := by decide
  obtain ⟨-, -, hnext⟩ := groups_clauses tokens
  have hapart := (hnext [semicolon, a] a [comma, semicolon] a [semicolon, comma, a, semicolon]
    rfl rfl rfl (by decide)).mpr ⟨semicolon, by decide, rfl, rfl⟩
  exact ⟨hgroups, hgroups ▸ hapart⟩

end DocGrid.Token

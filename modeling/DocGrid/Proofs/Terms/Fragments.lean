import DocGrid.Proofs.Terms.Compile

/-! Text between clauses. A comma after a clause may be left out, and text that no clause follows
is passed over; any other text without parentheses is the start of the name of the next clause,
delimiters included. -/

namespace DocGrid

namespace Token

theorem eq_of_isDelimiter {d : Char} (h : isDelimiter d = true) : d = ',' ∨ d = ';' := by
  simpa [isDelimiter] using h

theorem tokenAt?_position (p q : Nat) (cs : List Char) :
    tokenAt? q cs = (tokenAt? p cs).map fun t => { t with position := q } := by
  cases cs with
  | nil => rfl
  | cons c cs =>
    simp only [tokenAt?]
    split
    · rfl
    · cases clauseAt? (c :: cs) <;> rfl

/-- The texts in the groups depend on the texts that have been and are being read only. -/
theorem groupsFrom_texts (p : Nat) (cs : List Char) (q : Nat) (afterOr : Bool)
    {current present : List Token} (h : current.map (·.text) = present.map (·.text)) :
    (groupsFrom afterOr current (readFrom p cs)).map (·.map (·.text)) =
      (groupsFrom afterOr present (readFrom q cs)).map (·.map (·.text)) := by
  induction p, cs using readFrom_induction generalizing q afterOr current present with
  | nil p =>
    have hempty : current.isEmpty = present.isEmpty := by
      simpa using congrArg List.isEmpty h
    simp only [readFrom, scan, List.length_nil, groupsFrom, hempty]
    split <;> simp [h]
  | skip p c cs hn ih =>
    have hq : tokenAt? q (c :: cs) = none := by rw [tokenAt?_position p q, hn]; rfl
    rw [readFrom_none hn, readFrom_none hq]
    exact ih _ _ h
  | read p cs t ht ih =>
    have hq : tokenAt? q cs = some { t with position := q } := by rw [tokenAt?_position p q, ht]; rfl
    have hempty : current.isEmpty = present.isEmpty := by
      simpa using congrArg List.isEmpty h
    rw [readFrom_some ht, readFrom_some hq]
    simp only [groupsFrom, isClause, hempty]
    split
    · split
      · simp only [List.map_cons, h]
        exact congrArg _ (ih _ _ rfl)
      · exact ih _ _ (by simp [h])
    · exact ih _ _ h

theorem groupsFrom_of_no_clause {tokens : List Token} (h : ∀ t ∈ tokens, t.isClause = false)
    (afterOr : Bool) (current : List Token) :
    groupsFrom afterOr current tokens = groupsFrom false current [] := by
  induction tokens generalizing afterOr with
  | nil => rfl
  | cons t tokens ih =>
    simp only [groupsFrom, h t (by simp), Bool.false_eq_true, if_false]
    exact ih (fun u hu => h u (List.mem_cons_of_mem _ hu)) _

theorem no_clause_of_not_mem {p : Nat} {cs : List Char} (h : '(' ∉ cs) :
    ∀ t ∈ readFrom p cs, t.isClause = false := by
  intro t ht
  obtain ⟨htoken, hin⟩ := readFrom_mem ht
  cases htoken with
  | delimiter c p hd => rfl
  | clause c name inner p hd parts => exact absurd (hin.subset (by simp [clauseText])) h

def IsRows (rows : List (List (List Char))) : Prop :=
  ∀ row ∈ rows, row ≠ [] ∧ ∀ text ∈ row, IsClauseText text

theorem IsRows.append {rows after : List (List (List Char))} (h : IsRows rows)
    (h' : IsRows after) : IsRows (rows ++ after) := fun row hrow =>
  (List.mem_append.mp hrow).elim (h row) (h' row)

theorem IsRows.comma {before after : List (List (List Char))} {last row : List (List Char)}
    (h : IsRows (before ++ [last])) (h' : IsRows (row :: after)) :
    IsRows (before ++ (last ++ row) :: after) := by
  intro r hr
  rcases List.mem_append.mp hr with hr | hr
  · exact h r (by simp [hr])
  · rcases List.mem_cons.mp hr with rfl | hr
    · refine ⟨by simp [(h last (by simp)).1], fun text htext => ?_⟩
      exact (List.mem_append.mp htext).elim ((h last (by simp)).2 text)
        ((h' row (by simp)).2 text)
    · exact h' r (by simp [hr])

theorem rowsText_cons {rows : List (List (List Char))} (row : List (List Char)) (h : rows ≠ []) :
    rowsText (row :: rows) = Text.join [','] row ++ ';' :: rowsText rows := by
  obtain ⟨next, rows, rfl⟩ := List.exists_cons_of_ne_nil h
  simp [rowsText, Text.join]

theorem rowsText_starts (text : List Char) (texts : List (List Char))
    (rows : List (List (List Char))) : ∃ tail, rowsText ((text :: texts) :: rows) = text ++ tail := by
  cases texts <;> cases rows <;> simp [rowsText, Text.join]

/-- What follows rows of clauses is read with the last of them as the current group. -/
theorem groupsFrom_rows {before : List (List (List Char))} {last : List (List Char)}
    (h : IsRows (before ++ [last])) (p : Nat) (rest : List Char) :
    ∃ closed row q, closed.map (·.map (·.text)) = before ∧ row.map (·.text) = last ∧
      groupsFrom false [] (readFrom p (rowsText (before ++ [last]) ++ rest)) =
        closed ++ groupsFrom false row (readFrom q rest) := by
  induction before generalizing p with
  | nil =>
    obtain ⟨hne, hlast⟩ := h last (by simp)
    obtain ⟨text, texts, rfl⟩ := List.exists_cons_of_ne_nil hne
    obtain ⟨row, q, hrow, hg⟩ := groupsFrom_row [] hlast (.inl rfl) p rest
    exact ⟨[], row, q, rfl, hrow, by simpa [rowsText, Text.join] using hg⟩
  | cons first before ih =>
    obtain ⟨hne, hfirst⟩ := h first (by simp)
    obtain ⟨text, texts, rfl⟩ := List.exists_cons_of_ne_nil hne
    have hmore : IsRows (before ++ [last]) := fun row hrow => h row (List.mem_cons_of_mem _ hrow)
    obtain ⟨r, q, hr, hg⟩ := groupsFrom_row [] hfirst (.inl rfl) p
      (';' :: (rowsText (before ++ [last]) ++ rest))
    have hrne : r ≠ [] := by
      rintro rfl
      simp at hr
    obtain ⟨closed, row, q', hclosed, hrow, hi⟩ := ih hmore (q + 1)
    refine ⟨r :: closed, row, q', by simp [hr, hclosed], hrow, ?_⟩
    -- the clause after the semicolon closes the group and opens the next one
    obtain ⟨next, rows, hnext⟩ := List.exists_cons_of_ne_nil (show before ++ [last] ≠ [] by simp)
    obtain ⟨hnextne, hclauses⟩ := hmore next (by simp [hnext])
    obtain ⟨head, tail, rfl⟩ := List.exists_cons_of_ne_nil hnextne
    obtain ⟨after, hafter⟩ := rowsText_starts head tail rows
    obtain ⟨t, hc, -, ht⟩ := readFrom_clauseText (hclauses head (by simp)) (q + 1) (after ++ rest)
    have hstart : rowsText (before ++ [last]) ++ rest = head ++ (after ++ rest) := by
      rw [hnext, hafter, List.append_assoc]
    rw [hstart, ht, groupsFrom_clause hc (.inl rfl)] at hi
    rw [List.cons_append, rowsText_cons _ (by simp), List.append_assoc, List.cons_append, hg,
      readFrom_delimiter (by rfl), hstart, ht]
    simp only [groupsFrom, isClause, List.nil_append, List.cons_append] at hc hi ⊢
    simp [hc, hrne, hi]

theorem groups_comma {before : List (List (List Char))} {last : List (List Char)}
    (h : IsRows (before ++ [last])) (rest : List Char) :
    (groups (readFrom 0 (rowsText (before ++ [last]) ++ ',' :: rest))).map (·.map (·.text)) =
      (groups (readFrom 0 (rowsText (before ++ [last]) ++ rest))).map (·.map (·.text)) := by
  obtain ⟨closed, row, q, hclosed, hrow, hg⟩ := groupsFrom_rows h 0 rest
  obtain ⟨closed', row', q', hclosed', hrow', hg'⟩ := groupsFrom_rows h 0 (',' :: rest)
  have hskip : groupsFrom false row' (readFrom q' (',' :: rest)) =
      groupsFrom false row' (readFrom (q' + 1) rest) := by
    rw [readFrom_delimiter (by rfl)]
    rfl
  rw [groups, groups, hg, hg', hskip, List.map_append, List.map_append, hclosed, hclosed',
    groupsFrom_texts _ rest q false (hrow'.trans hrow.symm)]

theorem groups_rest {before : List (List (List Char))} {last : List (List Char)}
    (h : IsRows (before ++ [last])) {rest : List Char} (hrest : '(' ∉ rest) :
    (groups (readFrom 0 (rowsText (before ++ [last]) ++ rest))).map (·.map (·.text)) =
      before ++ [last] := by
  obtain ⟨closed, row, q, hclosed, hrow, hg⟩ := groupsFrom_rows h 0 rest
  have hne : row ≠ [] := by
    rintro rfl
    exact (h last (by simp)).1 hrow.symm
  rw [groups, hg, groupsFrom_of_no_clause (no_clause_of_not_mem hrest)]
  simp [groupsFrom, hne, hclosed, hrow]

/-- Rows that are joined by a comma become one. -/
theorem rowsText_comma {before after : List (List (List Char))} {last row : List (List Char)}
    (hlast : last ≠ []) (hrow : row ≠ []) :
    rowsText (before ++ [last]) ++ ',' :: rowsText (row :: after) =
      rowsText (before ++ (last ++ row) :: after) := by
  induction before with
  | nil =>
    cases after with
    | nil => simp [rowsText, Text.join, Text.join_append hlast hrow]
    | cons next after => simp [Text.join_append hlast hrow, rowsText, Text.join]
  | cons first before ih =>
    rw [List.cons_append, List.cons_append, rowsText_cons first (by simp),
      rowsText_cons first (by simp), ← ih]
    simp

theorem rowsText_semicolon {before after : List (List (List Char))} (hb : before ≠ [])
    (ha : after ≠ []) :
    rowsText before ++ ';' :: rowsText after = rowsText (before ++ after) := by
  rw [rowsText, rowsText, rowsText, List.map_append,
    Text.join_append (by simpa using hb) (by simpa using ha)]

theorem clauseParts_fragment {fragment name inner : List Char} {d : Char}
    (hg : ∀ c ∈ fragment, isParenthesis c = false) (hd : isDelimiter d = true)
    (parts : ClauseParts name inner) : ClauseParts (fragment ++ d :: name) inner := by
  have hplain : isParenthesis d = false := by
    rcases eq_of_isDelimiter hd with rfl | rfl <;> rfl
  refine ⟨by simp, fun c hc => ?_, parts.inner_ne, parts.inner_open⟩
  rcases List.mem_append.mp hc with hc | hc
  · exact hg c hc
  · rcases List.mem_cons.mp hc with rfl | hc
    · exact hplain
    · exact parts.name_plain c hc

end Token

open Token

def Filter.field? : Filter → Option String
  | equals field _ => some field
  | pattern field _ _ => some field
  | comparison field _ _ => some field
  | _ => none

theorem Clause.field?_of_leaf? {c : Clause} {f : Filter} (hs : c.Shape) (h : c.leaf? = some f) :
    f.field? = some c.field := by
  cases hs.hasLeaf h <;> rfl

namespace Filter

def conditionsOf (text : List Char) : List Filter :=
  (Clause.ofToken text).filterMap Clause.leaf?

theorem ofTerms_congr {a b : String} (h : textRows a.toList = textRows b.toList) :
    ofTerms a = ofTerms b := by
  rw [ofTerms_eq, ofTerms_eq, clauseRows_eq, clauseRows_eq, h]

theorem textRows_rowsText {rows : List (List (List Char))} (h : IsRows rows) :
    textRows (rowsText rows) = rows :=
  groups_rowsText (fun row hrow => (h row hrow).1) (fun row hrow => (h row hrow).2) 0

theorem conditionRows_flatten_eq (terms : String) :
    (conditionRows terms).flatten = (textRows terms.toList).flatten.flatMap conditionsOf := by
  rw [conditionRows_flatten, clauseRows_eq, ← List.flatMap_def, List.filterMap_flatMap]
  simp only [List.filterMap_flatMap, List.flatten_eq_flatMap, List.flatMap_assoc]
  rfl

theorem ofConditions_injective {rows rows' : List (List Filter)}
    (h : ofConditions rows = ofConditions rows') : rows = rows' := by
  have hall : Function.Injective Filter.all := fun _ _ he => Filter.all.inj he
  unfold ofConditions at h
  split at h <;> split at h
  · next hr hr' => rw [List.isEmpty_iff.mp hr, List.isEmpty_iff.mp hr']
  · cases h
  · cases h
  · exact hall.list_map (Filter.any.inj (Option.some.inj h))

theorem field?_of_mem_conditionsOf {name inner : List Char} {f : Filter}
    (h : ∀ c ∈ name, isParenthesis c = false) (hf : f ∈ conditionsOf (clauseText name inner)) :
    f.field? = some (String.ofList (Text.trim name)) := by
  obtain ⟨c, hc, hleaf⟩ := List.mem_filterMap.mp hf
  have hshape := Clause.shape?_clauseText h inner
  split at hshape
  · simp [Clause.ofToken, hshape] at hc
  · have hr := Clause.ofToken_regular hshape c hc
    rw [Clause.field?_of_leaf? hr.shape hleaf, hr.field_eq]

theorem flatten_textRows_delimited {before after : List (List (List Char))}
    {last row : List (List Char)} {d : Char} (hd : isDelimiter d = true)
    (hbefore : IsRows (before ++ [last])) (hafter : IsRows (row :: after)) :
    (textRows (rowsText (before ++ [last]) ++ d :: rowsText (row :: after))).flatten =
      (before ++ [last]).flatten ++ (row :: after).flatten := by
  rcases eq_of_isDelimiter hd with rfl | rfl
  · rw [rowsText_comma (hbefore last (by simp)).1 (hafter row (by simp)).1,
      textRows_rowsText (hbefore.comma hafter)]
    simp
  · rw [rowsText_semicolon (by simp) (by simp), textRows_rowsText (hbefore.append hafter)]
    simp

section Fragment

variable {before after : List (List (List Char))} {last row : List (List Char)}
  {name inner fragment : List Char} {d : Char} (hbefore : IsRows (before ++ [last]))
  (hparts : ClauseParts name inner) (hafter : IsRows ((clauseText name inner :: row) :: after))
  (hd : isDelimiter d = true) (hne : fragment ≠ [])
  (hg : ∀ c ∈ fragment, isParenthesis c = false ∧ isDelimiter c = false)

include hparts hafter hd hne hg

theorem isRows_fragment :
    IsRows ((clauseText (fragment ++ d :: name) inner :: row) :: after) := by
  obtain ⟨c, rest, rfl⟩ := List.exists_cons_of_ne_nil hne
  have hname := clauseParts_fragment (fun x hx => (hg x hx).1) hd hparts
  intro r hr
  rcases List.mem_cons.mp hr with rfl | hr
  · refine ⟨by simp, fun text htext => ?_⟩
    rcases List.mem_cons.mp htext with rfl | htext
    · exact ⟨c, rest ++ d :: name, inner, (hg c (by simp)).2, hname, rfl⟩
    · exact (hafter _ List.mem_cons_self).2 text (List.mem_cons_of_mem _ htext)
  · exact hafter r (List.mem_cons_of_mem _ hr)

include hbefore

/-- A fragment starts the name of the clause behind the delimiter. -/
theorem textRows_fragment :
    textRows (rowsText (before ++ [last]) ++
        (fragment ++ d :: rowsText ((clauseText name inner :: row) :: after))) =
      before ++ (last ++ clauseText (fragment ++ d :: name) inner :: row) :: after := by
  have htext : fragment ++ d :: rowsText ((clauseText name inner :: row) :: after) =
      rowsText ((clauseText (fragment ++ d :: name) inner :: row) :: after) := by
    cases row <;> cases after <;> simp [rowsText, Text.join, clauseText]
  rw [htext, textRows, ← groups_comma hbefore, rowsText_comma (hbefore last (by simp)).1 (by simp)]
  exact textRows_rowsText (hbefore.comma (isRows_fragment hparts hafter hd hne hg))

/-- What is on both sides of the clause is the same, so that its conditions would have to be. -/
theorem ofTerms_fragment_ne {result : Option Filter} {f : Filter}
    (hresult : ofTerms (String.ofList (rowsText (before ++ [last]) ++
      d :: rowsText ((clauseText name inner :: row) :: after))) = .ok result)
    (hf : f ∈ conditionsOf (clauseText name inner)) :
    ofTerms (String.ofList (rowsText (before ++ [last]) ++
      (fragment ++ d :: rowsText ((clauseText name inner :: row) :: after)))) ≠ .ok result := by
  intro he
  have hrows := ofConditions_injective
    ((ofTerms_eq_ok_iff.mp he).2.symm.trans (ofTerms_eq_ok_iff.mp hresult).2)
  have hflat := congrArg List.flatten hrows
  rw [conditionRows_flatten_eq, conditionRows_flatten_eq, String.toList_ofList,
    String.toList_ofList, textRows_fragment hbefore hparts hafter hd hne hg,
    flatten_textRows_delimited hd hbefore hafter] at hflat
  have hconditions : conditionsOf (clauseText (fragment ++ d :: name) inner) =
      conditionsOf (clauseText name inner) := by
    simpa using hflat
  have hfield := field?_of_mem_conditionsOf hparts.name_plain hf
  have hname := clauseParts_fragment (fun c hc => (hg c hc).1) hd hparts
  rw [← hconditions] at hf
  rw [field?_of_mem_conditionsOf hname.name_plain hf, Option.some.injEq] at hfield
  have hsolid : Text.isBlank d = false := by
    rcases eq_of_isDelimiter hd with rfl | rfl <;> decide
  have hcount := congrArg (fun s : String => s.toList.count d) hfield
  simp only [String.toList_ofList, Text.count_trim hsolid, List.count_append,
    List.count_cons_self] at hcount
  omega

/-- A fragment between clauses is not passed over: up to the delimiter and past it, it belongs to
the name of the next clause, which is in the group of the clause before. With a condition in that
clause the filter is another one. Where no clause follows, text is passed over. -/
theorem ofTerms_fragment :
    ofTerms (String.ofList (rowsText (before ++ [last]) ++
        (fragment ++ d :: rowsText ((clauseText name inner :: row) :: after)))) =
      ofTerms (String.ofList (rowsText
        (before ++ (last ++ clauseText (fragment ++ d :: name) inner :: row) :: after))) ∧
    (∀ result, ofTerms (String.ofList (rowsText (before ++ [last]) ++
        d :: rowsText ((clauseText name inner :: row) :: after))) = .ok result →
      conditionsOf (clauseText name inner) ≠ [] →
      ofTerms (String.ofList (rowsText (before ++ [last]) ++
        (fragment ++ d :: rowsText ((clauseText name inner :: row) :: after)))) ≠ .ok result) ∧
    ∀ rest, '(' ∉ rest → ofTerms (String.ofList (rowsText (before ++ [last]) ++ rest)) =
      ofTerms (String.ofList (rowsText (before ++ [last]))) := by
  refine ⟨ofTerms_congr ?_, fun result hresult hcond => ?_, fun rest hrest => ofTerms_congr ?_⟩
  · have hrows := isRows_fragment hparts hafter hd hne hg
    rw [String.toList_ofList, String.toList_ofList,
      textRows_fragment hbefore hparts hafter hd hne hg, textRows_rowsText (hbefore.comma hrows)]
  · obtain ⟨f, more, hf⟩ := List.exists_cons_of_ne_nil hcond
    exact ofTerms_fragment_ne hbefore hparts hafter hd hne hg hresult (hf ▸ List.mem_cons_self)
  · rw [String.toList_ofList, String.toList_ofList, textRows_rowsText hbefore, textRows,
      groups_rest hbefore hrest]

end Fragment

theorem ofTerms_blank_fragment :
    let a := "a(eq:1)".toList
    let b := "b(eq:2)".toList
    ofTerms (String.ofList (a ++ ([' '] ++ ';' :: b))) =
        ofTerms (String.ofList (a ++ ',' :: ([' '] ++ ';' :: b))) ∧
      ofTerms (String.ofList (a ++ ([' '] ++ ';' :: b))) ≠
        .ok (some (any [all [.comparison "a" .equal (.text "1")],
          all [.comparison "b" .equal (.text "2")]])) ∧
      ofTerms (String.ofList (a ++ ";))".toList)) = ofTerms (String.ofList a) := by
  have ha : ClauseParts ['a'] "eq:1".toList :=
    ⟨by decide, by simp [isParenthesis], by decide, by decide⟩
  have hb : ClauseParts ['b'] "eq:2".toList :=
    ⟨by decide, by simp [isParenthesis], by decide, by decide⟩
  have rows {c : Char} {inner : List Char} (hc : isDelimiter c = false)
      (hparts : ClauseParts [c] inner) : IsRows [[clauseText [c] inner]] := by
    simpa [IsRows] using ⟨c, [], inner, hc, hparts, rfl⟩
  obtain ⟨hname, hne, hrest⟩ := @ofTerms_fragment [] [] [clauseText ['a'] "eq:1".toList] []
    ['b'] "eq:2".toList [' '] ';' (rows (by rfl) ha) hb (rows (by rfl) hb) (by rfl) (by decide)
    (by simp [isParenthesis, isDelimiter])
  exact ⟨hname, hne _ (by rfl) (by decide), hrest _ (by decide)⟩

theorem not_ofTerms_fragment_skipped :
    ofTerms "a(eq:1) ;b(eq:2)" ≠ ofTerms "a(eq:1);b(eq:2)" := by
  have hone : ofTerms "a(eq:1) ;b(eq:2)" = .ok (some (any [all
      [.comparison "a" .equal (.text "1"), .comparison ";b" .equal (.text "2")]])) := by rfl
  have htwo : ofTerms "a(eq:1);b(eq:2)" = .ok (some (any [all
      [.comparison "a" .equal (.text "1")], all [.comparison "b" .equal (.text "2")]])) := by rfl
  rw [hone, htwo]
  simp

end Filter

end DocGrid

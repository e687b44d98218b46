import DocGrid.Proofs.Terms.Clauses

/-! The flag of a match or of a pattern. It may stand in the argument or be an argument of its own
behind it: both leave no clause waiting for a flag, so that they mean the same before and behind
any other arguments. -/

namespace DocGrid.Clause

theorem flagged?_of_two (previous : Option Clause) (name param : String) (more : List String) :
    flagged? previous (name :: param :: more) = none := by
  cases previous <;> rfl

/-- An argument that is no flag finds the same clauses whatever comes before it. -/
theorem ofArguments_append {field : String} {argument : List String}
    (h : ∀ c, flagged? c argument = none) (previous : Option Clause)
    (before after : List (List String)) :
    ofArguments field previous (before ++ argument :: after) =
      ofArguments field previous before ++ ofArguments field none (argument :: after) := by
  induction before generalizing previous with
  | nil => simp [ofArguments, h]
  | cons pieces before ih =>
    cases hf : flagged? previous pieces with
    | some c => simp [ofArguments, hf, ih]
    | none => simp [ofArguments, hf, ih]

theorem ofArguments_settled {field : String} {c : Clause} (h : c.takesFlag = false)
    (arguments : List (List String)) :
    ofArguments field (some c) arguments = c :: ofArguments field none arguments := by
  cases arguments with
  | nil => rfl
  | cons pieces rest =>
    have hnone : flagged? (some c) pieces = none := by
      unfold flagged?
      split
      · next d piece hd =>
        obtain rfl := Option.some.inj hd
        simp [h]
      · rfl
    have hfresh : flagged? none pieces = none := rfl
    simp [ofArguments, hnone, hfresh]

theorem ofArguments_flag {field : String} {c : Clause} (h : c.takesFlag = true)
    (arguments : List (List String)) :
    ofArguments field (some c) ([ignoreCaseFlag] :: arguments) =
      { c with flags := some ignoreCaseFlag } :: ofArguments field none arguments := by
  simp [ofArguments, flagged?, h]

section Operation

variable {operation : Operation} (h : operation.isComparison = false)

include h

theorem ofArgument?_named (field param : String) (more : List String) :
    ofArgument? field (operation.name :: param :: more) =
      some ⟨field, operation, [param], more.head?⟩ := by
  cases operation with
  | compare op => cases h
  | _ => rfl

variable (field param : String) (before after : List (List String))

/-- An operation with its argument waits for a flag, unless it has one. -/
theorem ofArguments_named (more : List String) :
    ofArguments field none (before ++ (operation.name :: param :: more) :: after) =
      ofArguments field none before ++
        ofArguments field (some ⟨field, operation, [param], more.head?⟩) after := by
  rw [ofArguments_append (fun c => flagged?_of_two c _ _ _), ofArguments, flagged?_of_two,
    ofArgument?_named h]
  rfl

theorem ofArguments_inline :
    ofArguments field none (before ++ [operation.name, param, ignoreCaseFlag] :: after) =
      ofArguments field none before ++
        ⟨field, operation, [param], some ignoreCaseFlag⟩ :: ofArguments field none after := by
  have hsettled : (Clause.mk field operation [param] (some ignoreCaseFlag)).takesFlag = false := by
    simp [takesFlag]
  rw [ofArguments_named h, ← ofArguments_settled hsettled]
  rfl

theorem ofArguments_trailing :
    ofArguments field none (before ++ [operation.name, param] :: [ignoreCaseFlag] :: after) =
      ofArguments field none before ++
        ⟨field, operation, [param], some ignoreCaseFlag⟩ :: ofArguments field none after := by
  have hwaits : (Clause.mk field operation [param] none).takesFlag = true := by
    simp [takesFlag, h]
  rw [ofArguments_named h, ← ofArguments_flag hwaits]
  rfl

end Operation

/-! Tokens of any field, any arguments -/

theorem shape?_of_close {field : List Char} (hopen : '(' ∉ field) (hclose : ')' ∈ field)
    (inner : List Char) : shape? (Token.clauseText field inner) = none := by
  obtain ⟨name, after, rfl, hname⟩ := List.eq_append_cons_of_mem hclose
  have hplain : ∀ c ∈ Text.trimStart name, Token.isParenthesis c = false := by
    intro c hc
    have hmem := (Text.trimStart_suffix name).subset hc
    have hne : c ≠ '(' := by
      rintro rfl
      exact hopen (List.mem_append_left _ hmem)
    have hne' : c ≠ ')' := by
      rintro rfl
      exact hname hmem
    simp [Token.isParenthesis, hne, hne']
  have htrim := Text.trim_append_concat isBlank_close isBlank_close name (after ++ '(' :: inner)
  have htext : Token.clauseText (name ++ ')' :: after) inner =
      name ++ ')' :: (after ++ '(' :: inner) ++ [')'] := by
    simp [Token.clauseText]
  have hdrop : (Text.trim (Token.clauseText (name ++ ')' :: after) inner)).dropWhile
      (fun c => !Token.isParenthesis c) = ')' :: (after ++ '(' :: inner ++ [')']) := by
    rw [htext, htrim, List.append_assoc]
    exact Text.dropWhile_run (fun c hc => by simp [hplain c hc]) (by simp [Token.isParenthesis])
  simp only [shape?, hdrop]
  rfl

theorem ofToken_clauseText {field : List Char} (h : '(' ∉ field) (inner : List Char) :
    ofToken (Token.clauseText field inner) =
      if ')' ∈ field ∨ Text.trim field = [] then []
      else ofArguments (String.ofList (Text.trim field)) none
        ((Text.split ',' inner).map pieces) := by
  by_cases hclose : ')' ∈ field
  · simp [ofToken, shape?_of_close h hclose, hclose]
  · have hplain : ∀ c ∈ field, Token.isParenthesis c = false := by
      intro c hc
      have hne : c ≠ '(' := fun e => h (e ▸ hc)
      have hne' : c ≠ ')' := fun e => hclose (e ▸ hc)
      simp [Token.isParenthesis, hne, hne']
    by_cases hnil : Text.trim field = []
    · simp [ofToken, shape?_clauseText hplain, hnil]
    · simp [ofToken, shape?_clauseText hplain, hnil, hclose]

theorem not_mem_of_trim {c : Char} {cs : List Char} (hc : Text.isBlank c = false)
    (h : c ∉ Text.trim cs) : c ∉ cs := by
  rw [← List.count_eq_zero] at h ⊢
  rwa [← Text.count_trim hc]

/-- The separators of arguments and of their pieces. -/
theorem separators_not_mem {cs : List Char} {word : String} (h : Text.trim cs = word.toList)
    (hword : ',' ∉ word.toList ∧ ':' ∉ word.toList) : ',' ∉ cs ∧ ':' ∉ cs :=
  ⟨not_mem_of_trim (by decide) (h ▸ hword.1), not_mem_of_trim (by decide) (h ▸ hword.2)⟩

theorem separators_not_mem_name {operation : Operation} (h : operation.isComparison = false) :
    ',' ∉ operation.name.toList ∧ ':' ∉ operation.name.toList := by
  cases operation with
  | compare op => cases h
  | _ => decide

theorem pieces_of_not_mem {cs : List Char} (h : ':' ∉ cs) :
    pieces cs = [String.ofList (Text.trim cs)] := by
  rw [pieces, Text.split_of_not_mem h]
  rfl

theorem pieces_append {cs : List Char} (h : ':' ∉ cs) (rest : List Char) :
    pieces (cs ++ ':' :: rest) = String.ofList (Text.trim cs) :: pieces rest := by
  rw [pieces, Text.split_append h]
  rfl

/-! The two spellings -/

/-- The arguments of an operation with its flag, as they stand between commas. -/
inductive Spells (op value flag : List Char) : List (List Char) → Prop
  | trailing : Spells op value flag [op ++ ':' :: value, flag]
  | inline : Spells op value flag [op ++ ':' :: (value ++ ':' :: flag)]

/-- Both spellings have the operation, its argument and the flag among their pieces, and leave no
clause waiting for a flag. -/
theorem ofArguments_spelled {op value flag : List Char} {operation : Operation}
    {before spelled after : List (List Char)} (hspelled : Spells op value flag spelled)
    (hop : operation.isComparison = false) (hname : Text.trim op = operation.name.toList)
    (hvalue : ',' ∉ value ∧ ':' ∉ value) (hflag : Text.trim flag = ignoreCaseFlag.toList)
    (hbefore : ∀ a ∈ before, ',' ∉ a) (hafter : ∀ a ∈ after, ',' ∉ a) (field : String) :
    ofArguments field none ((Text.split ',' (Text.join [',']
        (before ++ (spelled ++ after)))).map pieces) =
      ofArguments field none (before.map pieces) ++
        ⟨field, operation, [String.ofList (Text.trim value)], some ignoreCaseFlag⟩ ::
          ofArguments field none (after.map pieces) := by
  obtain ⟨hopcomma, hopcolon⟩ := separators_not_mem hname (separators_not_mem_name hop)
  obtain ⟨hflagcomma, hflagcolon⟩ := separators_not_mem hflag (by decide)
  have hnamed : String.ofList (Text.trim op) = operation.name := by
    rw [hname, String.ofList_toList]
  have hflagged : pieces flag = [ignoreCaseFlag] := by
    rw [pieces_of_not_mem hflagcolon, hflag, String.ofList_toList]
  have hcomma : ∀ a ∈ spelled, ',' ∉ a := by
    cases hspelled <;> simp [hopcomma, hflagcomma, hvalue.1]
  have hne : before ++ (spelled ++ after) ≠ [] := by cases hspelled <;> simp
  have hall : ∀ a ∈ before ++ (spelled ++ after), ',' ∉ a :=
    List.forall_mem_append.mpr ⟨hbefore, List.forall_mem_append.mpr ⟨hcomma, hafter⟩⟩
  rw [Text.split_join hne hall, List.map_append, List.map_append]
  cases hspelled with
  | trailing =>
    rw [List.map_cons, List.map_singleton, pieces_append hopcolon, pieces_of_not_mem hvalue.2,
      hnamed, hflagged]
    exact ofArguments_trailing hop field _ _ _
  | inline =>
    rw [List.map_singleton, pieces_append hopcolon, pieces_append hvalue.2, hnamed, hflagged]
    exact ofArguments_inline hop field _ _ _

/-- The clauses of one token are all on its field, each with arguments of its own kind. -/
theorem ofToken_clauses {token : List Char} {c : Clause} (h : c ∈ ofToken token) :
    IsFieldName c.field ∧ (∀ d ∈ ofToken token, d.field = c.field) ∧ c.Shape ∧
      ∀ a ∈ c.args, IsPiece a := by
  cases hs : shape? token with
  | none => simp [ofToken, hs] at h
  | some parts =>
    obtain ⟨name, arguments⟩ := parts
    have hall := ofToken_regular hs
    obtain ⟨hfield, hargs, hshape⟩ := hall c h
    refine ⟨hfield ▸ (shape?_eq_some hs).1, fun d hd => ?_, hshape, fun a ha => (hargs a ha).1⟩
    rw [(hall d hd).field_eq, hfield]

/-- A field is what stands before the first parenthesis. White space around the operation and the
flag does not count. -/
theorem ofToken_flag :
    (∀ (field op value flag : List Char) (operation : Operation) (before after : List (List Char)),
      '(' ∉ field → operation.isComparison = false → Text.trim op = operation.name.toList →
      ',' ∉ value ∧ ':' ∉ value → Text.trim flag = ignoreCaseFlag.toList →
      (∀ a ∈ before, ',' ∉ a) → (∀ a ∈ after, ',' ∉ a) →
      ofToken (Token.clauseText field (Text.join [',']
          (before ++ (op ++ ':' :: value) :: flag :: after))) =
        ofToken (Token.clauseText field (Text.join [',']
          (before ++ (op ++ ':' :: (value ++ ':' :: flag)) :: after))) ∧
      (')' ∉ field → Text.trim field ≠ [] →
        ⟨String.ofList (Text.trim field), operation, [String.ofList (Text.trim value)],
            some ignoreCaseFlag⟩ ∈
          ofToken (Token.clauseText field (Text.join [',']
            (before ++ (op ++ ':' :: value) :: flag :: after))))) ∧
    ∀ token, ∀ c ∈ ofToken token,
      IsFieldName c.field ∧ (∀ d ∈ ofToken token, d.field = c.field) ∧ c.Shape ∧
        ∀ a ∈ c.args, IsPiece a := by
  refine ⟨?_, fun token c hc => ofToken_clauses hc⟩
  intro field op value flag operation before after hfield hop hname hvalue hflag hbefore hafter
  have hspelled (spelled : List (List Char)) (h : Spells op value flag spelled) :=
    ofArguments_spelled h hop hname hvalue hflag hbefore hafter (String.ofList (Text.trim field))
  have htrailing := hspelled _ .trailing
  have hinline := hspelled _ .inline
  simp only [List.cons_append, List.nil_append] at htrailing hinline
  rw [ofToken_clauseText hfield, ofToken_clauseText hfield, htrailing, hinline]
  refine ⟨rfl, fun hclose hnil => ?_⟩
  simp [hclose, hnil]

theorem ofToken_flag_twice :
    ofToken "name(in:1:2,match:i, i ,i,contains:(b,zz)".toList =
        ofToken "name(in:1:2,match:i: i ,i,contains:(b,zz)".toList ∧
      ⟨"name", .match, ["i"], some "i"⟩ ∈ ofToken "name(in:1:2,match:i, i ,i,contains:(b,zz)".toList := by
  obtain ⟨hspellings, -⟩ := ofToken_flag
  obtain ⟨heq, hmem⟩ := hspellings "name".toList "match".toList ['i'] [' ', 'i', ' '] .match
    ["in:1:2".toList] [['i'], "contains:(b".toList, ['z', 'z']] (by decide) rfl (by decide)
    (by decide) (by decide) (by decide) (by decide)
  exact ⟨heq, hmem (by decide) (by decide)⟩

end DocGrid.Clause

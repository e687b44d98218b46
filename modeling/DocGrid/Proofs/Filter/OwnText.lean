import DocGrid.Proofs.Number.Texts
import DocGrid.Proofs.Terms.SingleClauses
import DocGrid.Proofs.Time.Texts

/-! A value in a field is found by the clause that compares the field with the text of the value,
read as the kind of value it came from. Points in time are not: the colons of their texts separate
arguments, and a list of texts equals no point in time. They are found by the text without
colons. -/

namespace DocGrid

/-- The names that a text can start with and that lead to a field of the document itself. -/
structure IsPlainField (field : String) : Prop extends IsFieldName field where
  noPoint : '.' ∉ field.toList
  starts : ∀ c ∈ field.toList.head?, Token.isDelimiter c = false

/-- The scalars whose usual texts are arguments. -/
inductive Value.IsLegible : Value → Prop
  | int {n : Int} (h : Scaled.digitCount n.natAbs ≤ Reading.maxDigits) : IsLegible (.int n)
  | float {x : Binary64} (h : x.isFinite = true) : IsLegible (.float x)
  | bool (b : Bool) : IsLegible (.bool b)
  | text {s : String} (h : IsArgument s) : IsLegible (.text s)

/-- The text that asks for equality with another text. -/
def equalTerms (field text : String) : String :=
  field ++ "(eq:" ++ text ++ ")"

namespace Filter

section Clause

variable {field : String} (hf : IsPlainField field)

include hf

theorem names_plainField : Names field field :=
  ⟨hf.plain, hf.starts, hf.stripped, hf.ne_empty⟩

/-- A clause with several arguments compares with the list of them. -/
theorem ofTerms_equalTerms {args : List String} (hne : args ≠ []) (h : ∀ a ∈ args, IsArgument a) :
    ofTerms (equalTerms field (Text.joinText ":" args)) =
      .ok (some (any [all [.comparison field .equal (Clause.operandOf args)]])) := by
  obtain ⟨first, more, rfl⟩ := List.exists_cons_of_ne_nil hne
  let pieces := Operator.equal.name :: first :: more
  have hargs : ∀ ps ∈ [pieces], ps ≠ [] ∧ ∀ p ∈ ps, IsArgument p :=
    List.forall_mem_singleton.mpr
      ⟨List.cons_ne_nil _ _, List.forall_mem_cons.mpr ⟨isArgument_name .equal, h⟩⟩
  have htext : (equalTerms field (Text.joinText ":" (first :: more))).toList =
      Token.clauseText field.toList (argumentsText [pieces]) := by
    simp [equalTerms, Text.joinText, Token.clauseText, argumentsText, pieces, Operator.name,
      Text.join]
  have hclause : Clause.ofArguments field none [pieces] =
      [⟨field, .compare .equal, first :: more, none⟩] := rfl
  rw [(names_plainField hf).ofTerms_eq hargs (by simp [argumentsText, pieces, Text.join]) hclause
    htext, Clause.compile_compare]
  rfl

theorem ofTerms_equalTerms_one {s : String} (h : IsArgument s) : ofTerms (equalTerms field s) =
    .ok (some (any [all [.comparison field .equal (.text s)]])) := by
  have hone := ofTerms_equalTerms hf (by simp) (List.forall_mem_singleton.mpr h)
  rwa [show Text.joinText ":" [s] = s by simp [Text.joinText, Text.join]] at hone

theorem evaluate_equal (v : Value) (operand : Operand) :
    (any [all [.comparison field .equal operand]]).evaluate (.mapping [(field, v)]) =
      .ok (equalsOperand v operand) := by
  have hresolve : (Value.mapping [(field, v)]).resolve field = some v :=
    Document.resolve_single hf.noPoint v
  rw [evaluate_single, evaluate, hresolve]
  rfl

end Clause

end Filter

theorem isArgument_of_chars {s : String} (h : ∀ c ∈ s.toList, c ∈ 'T' :: Reading.numeralChars) :
    IsArgument s := by
  have hplain : ∀ c ∈ 'T' :: Reading.numeralChars,
      Text.isBlank c = false ∧ c ≠ ',' ∧ c ≠ ':' ∧ c ≠ ')' :=
    List.forall_mem_cons.mpr ⟨by decide, Reading.forall_numeralChars (by decide)⟩
  refine ⟨⟨?_, ?_, ?_⟩, ?_⟩
  · exact Text.stripped_eq_self_iff.mpr (Text.trim_of_solid fun c hc => (hplain c (h c hc)).1)
  · exact fun hc => (hplain _ (h _ hc)).2.1 rfl
  · exact fun hc => (hplain _ (h _ hc)).2.2.1 rfl
  · exact fun hc => (hplain _ (h _ hc)).2.2.2 rfl

theorem Reading.IsNumeral.isArgument {cs : List Char} (h : IsNumeral cs) {negative : Bool}
    {s : String} (hs : s.toList = withSign negative cs) : IsArgument s :=
  isArgument_of_chars fun c hc => List.mem_cons_of_mem _ (h.chars_withSign negative c (hs ▸ hc))

namespace Value

namespace IsLegible

variable {v : Value} (h : v.IsLegible)

include h

theorem isArgument_display : IsArgument v.display := by
  cases h with
  | int h => exact (Reading.isNumeral_digits _).isArgument (Reading.toList_toString_int _)
  | float h => exact (Reading.isNumeral_size _ _).isArgument (Reading.toList_text h)
  | bool b => cases b <;> exact ⟨⟨by decide, by decide, by decide⟩, by decide⟩
  | text h => exact h

/-- Read as a value of its own kind, the text is the value again. -/
theorem cast_display : cast (.ofValue v) (.text v.display) = v := by
  cases h with
  | @int n h =>
    change castText .int (toString n) = .int n
    simp only [castText, numberOf?, Reading.int?_toString h]
    rfl
  | @float x h =>
    change castText .float x.text = .float x
    simp only [castText, Reading.float?_text h]
    rfl
  | bool b =>
    have hread : truthOf? (Value.bool b).display = some b := by cases b <;> decide +kernel
    change castText .bool (Value.bool b).display = .bool b
    simp only [castText, hread]
    rfl
  | text h => rfl

theorem same_self : v.same v = true := by
  cases h with
  | @int n h =>
    change (Number.int n).same (.int n) = true
    simp [Number.same, Number.quantity?]
  | @float x h =>
    have he : x.exponent.val ≠ 2047 := by simpa [Binary64.isFinite] using h
    change (Number.float x).same (.float x) = true
    simp [Number.same, Number.quantity?, Quantity.ofBinary64, Binary64.isNaN,
      Binary64.isInfinite, he]
  | bool b => simp [same]
  | text h => simp [same]

theorem equalsOperand_display : equalsOperand v (.text v.display) = true := by
  have hscalar : equalsOperand v (.text v.display) =
      v.same (cast (.ofValue v) (.text v.display)) := by
    cases h <;> rfl
  rw [hscalar, cast_display h, same_self h]

end IsLegible

end Value

namespace DateTime

theorem chars_textChars (d : CalendarDate) :
    ∀ c ∈ d.textChars, c ∈ 'T' :: Reading.numeralChars := by
  have hpadded {width n : Nat} : ∀ c ∈ Text.padded width n, c ∈ 'T' :: Reading.numeralChars :=
    fun c hc => List.mem_cons_of_mem _
      (Reading.mem_numeralChars_of_isDigit (Text.isDigit_of_mem_padded hc))
  simp only [CalendarDate.textChars, List.append_assoc, List.cons_append, List.forall_mem_append,
    List.forall_mem_cons]
  exact ⟨hpadded, by decide, hpadded, by decide, hpadded⟩

theorem chars_of_clock {cs : List Char} (h : ∀ c ∈ cs, c.isDigit = true ∨ c = '.') :
    ∀ c ∈ cs, c ∈ 'T' :: Reading.numeralChars := by
  intro c hc
  rcases h c hc with hd | rfl
  · exact List.mem_cons_of_mem _ (Reading.mem_numeralChars_of_isDigit hd)
  · decide

variable {t : DateTime} (h : t.IsNaive)

include h

theorem isArgument_compactText : IsArgument t.compactText := by
  refine isArgument_of_chars ?_
  rw [Iso.toList_compactText h.offset]
  exact List.forall_mem_append.mpr ⟨chars_textChars t.date, List.forall_mem_cons.mpr
    ⟨by decide, chars_of_clock (Iso.chars_compactClock t)⟩⟩

theorem equalsOperand_compactText :
    equalsOperand (.datetime t) (.text t.compactText) = true := by
  have hcast : cast .datetime (.text t.compactText) = .datetime t := by
    simp [cast, castText, Iso.dateTime?_compactText h]
  change Value.same (.datetime t) (cast .datetime (.text t.compactText)) = true
  rw [hcast]
  simp [Value.same, same]

/-- The usual text is three arguments. -/
theorem exists_arguments : ∃ first second third, t.text = Text.joinText ":" [first, second, third] ∧
    ∀ a ∈ [first, second, third], IsArgument a := by
  have hclock {n : Nat} : ∀ c ∈ Text.padded 2 n, c.isDigit = true ∨ c = '.' :=
    fun c hc => .inl (Text.isDigit_of_mem_padded hc)
  have hargument {cs : List Char} (hcs : ∀ c ∈ cs, c ∈ 'T' :: Reading.numeralChars) :
      IsArgument (String.ofList cs) := isArgument_of_chars (by simpa using hcs)
  refine ⟨String.ofList (t.date.textChars ++ 'T' :: Text.padded 2 t.hour),
    String.ofList (Text.padded 2 t.minute),
    String.ofList (Text.padded 2 t.second ++ Iso.fractionText t.microsecond), ?_, ?_⟩
  · rw [← String.toList_inj, Iso.toList_text h.offset]
    simp [Text.joinText, Text.join]
  · simp only [List.forall_mem_cons, List.not_mem_nil, false_imp_iff, implies_true, and_true]
    refine ⟨hargument ?_, hargument (chars_of_clock hclock), hargument ?_⟩
    · exact List.forall_mem_append.mpr ⟨chars_textChars t.date,
        List.forall_mem_cons.mpr ⟨by decide, chars_of_clock hclock⟩⟩
    · exact chars_of_clock (List.forall_mem_append.mpr ⟨hclock, Iso.chars_fractionText⟩)

end DateTime

namespace Filter

/-- A whole number, a finite double, a truth value or a text is found by its own text. A point in
time is found by its text without colons, and not by its usual one. -/
theorem evaluate_ofTerms_ownText {field : String} (hf : IsPlainField field) :
    (∀ v : Value, v.IsLegible → ∃ f, ofTerms (equalTerms field v.display) = .ok (some f) ∧
      f.evaluate (.mapping [(field, v)]) = .ok true) ∧
    ∀ t : DateTime, t.IsNaive →
      (∃ f, ofTerms (equalTerms field t.text) = .ok (some f) ∧
        f.evaluate (.mapping [(field, .datetime t)]) = .ok false) ∧
      ∃ f, ofTerms (equalTerms field t.compactText) = .ok (some f) ∧
        f.evaluate (.mapping [(field, .datetime t)]) = .ok true := by
  refine ⟨fun v hv => ?_, fun t ht => ⟨?_, ?_⟩⟩
  · refine ⟨_, ofTerms_equalTerms_one hf hv.isArgument_display, ?_⟩
    rw [evaluate_equal hf, hv.equalsOperand_display]
  · obtain ⟨first, second, third, htext, hargs⟩ := t.exists_arguments ht
    refine ⟨_, htext ▸ ofTerms_equalTerms hf (by simp) hargs, ?_⟩
    rw [evaluate_equal hf]
    rfl
  · refine ⟨_, ofTerms_equalTerms_one hf (DateTime.isArgument_compactText ht), ?_⟩
    rw [evaluate_equal hf, DateTime.equalsOperand_compactText ht]

theorem evaluate_ofTerms_ownText_at :
    let t : DateTime := ⟨⟨2024, 1, 2⟩, 3, 4, 5, 60, none⟩
    (∃ f, ofTerms "at(eq:-12)" = .ok (some f) ∧
        f.evaluate (.mapping [("at", .int (-12))]) = .ok true) ∧
      (∃ f, ofTerms "at(eq:2024-01-02T03:04:05.000060)" = .ok (some f) ∧
        f.evaluate (.mapping [("at", .datetime t)]) = .ok false) ∧
      ∃ f, ofTerms "at(eq:2024-01-02T030405.000060)" = .ok (some f) ∧
        f.evaluate (.mapping [("at", .datetime t)]) = .ok true := by
  intro t
  have hf : IsPlainField "at" := ⟨⟨by decide, by decide, by simp [Token.isParenthesis]⟩, by decide,
    by simp [Token.isDelimiter]⟩
  have ht : t.IsNaive := ⟨by decide, by decide, by decide, by decide, by decide, rfl⟩
  obtain ⟨hown, htime⟩ := evaluate_ofTerms_ownText hf
  obtain ⟨husual, hcompact⟩ := htime t ht
  have hint := hown (.int (-12)) (.int (by decide))
  rw [show equalTerms "at" (Value.int (-12)).display = "at(eq:-12)" by decide +kernel] at hint
  rw [show equalTerms "at" t.text = "at(eq:2024-01-02T03:04:05.000060)" by decide +kernel] at husual
  rw [show equalTerms "at" t.compactText = "at(eq:2024-01-02T030405.000060)" by
    decide +kernel] at hcompact
  exact ⟨hint, husual, hcompact⟩

theorem not_evaluate_ofTerms_time : ¬ ∀ (field : String) (t : DateTime), IsPlainField field →
    t.IsNaive → ∃ f, ofTerms (equalTerms field t.text) = .ok (some f) ∧
      f.evaluate (.mapping [(field, .datetime t)]) = .ok true := by
  intro h
  let t : DateTime := ⟨⟨2024, 1, 2⟩, 3, 4, 5, 0, none⟩
  have hf : IsPlainField "at" := ⟨⟨by decide, by decide, by simp [Token.isParenthesis]⟩, by decide,
    by simp [Token.isDelimiter]⟩
  have ht : t.IsNaive := ⟨by decide, by decide, by decide, by decide, by decide, rfl⟩
  obtain ⟨f, hterms, heval⟩ := h "at" t hf ht
  have htext : t.text = Text.joinText ":" ["2024-01-02T03", "04", "05"] := by decide +kernel
  have hargs : ∀ a ∈ ["2024-01-02T03", "04", "05"], IsArgument a := by
    simpa using ⟨⟨⟨by decide, by decide, by decide⟩, by decide⟩,
      ⟨⟨by decide, by decide, by decide⟩, by decide⟩, ⟨⟨by decide, by decide, by decide⟩, by decide⟩⟩
  rw [htext, ofTerms_equalTerms hf (by simp) hargs] at hterms
  obtain rfl := Option.some.inj (Except.ok.inj hterms)
  rw [evaluate_equal hf] at heval
  cases heval

end Filter

end DocGrid

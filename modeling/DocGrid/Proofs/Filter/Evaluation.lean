import DocGrid.Proofs.Filter.Casts
import DocGrid.Proofs.Pattern.CaseFlag
import DocGrid.Proofs.Store.Connectives
import DocGrid.Proofs.Terms.RoundTrip

/-! Evaluating the filters of texts. It gives an answer for every document: a text is never compared
as a number with a decimal that is none, and the patterns are read again as they were read before. -/

namespace DocGrid

namespace Value

theorem standing_ofNumbers {n m : Number} (h : n.isDecimal = false) (h' : m.isDecimal = false) :
    Standing.ofNumbers n m ≠ .undefined := by
  unfold Standing.ofNumbers
  split
  · simp
  · simp [h, h']

theorem standing_text (v : Value) (s : String) : v.standing (text s) ≠ .undefined := by
  cases v <;> simp [standing, number?]

/-- Only a decimal can refuse to be compared with a number, and no text is read as a number to
compare it with a decimal. -/
theorem standing_castText (v : Value) (s : String) :
    v.standing (castText (.ofValue v) s) ≠ .undefined := by
  have hread := readAs_castText (.ofValue v) s
  generalize castText (.ofValue v) s = w at hread
  generalize htarget : Target.ofValue v = target at hread
  cases hread with
  | text h => exact standing_text v s
  | bool b =>
    cases v with
    | bool a => simpa [standing, number?] using standing_ofNumbers rfl rfl
    | number n => cases n <;> cases htarget
    | _ => cases htarget
  | datetime u =>
    cases v with
    | datetime t =>
      simp only [standing]
      split <;> simp
    | number n => cases n <;> cases htarget
    | _ => cases htarget
  | int m =>
    cases v with
    | number n => exact standing_ofNumbers (by cases n <;> first | rfl | cases htarget) (by rfl)
    | _ => cases htarget
  | double x | float x =>
    cases v with
    | number n => exact standing_ofNumbers (by cases n <;> first | rfl | cases htarget) (by rfl)
    | _ => cases htarget

theorem standingItems_texts (vs : List Value) (texts : List String) :
    standingItems vs (texts.map text) ≠ .undefined := by
  induction vs generalizing texts with
  | nil => cases texts <;> simp [standingItems]
  | cons v vs ih =>
    cases texts with
    | nil => simp [standingItems]
    | cons s texts =>
      simp only [List.map_cons, standingItems]
      split
      · exact ih texts
      · exact standing_text v s

theorem standing_texts (v : Value) (texts : List String) :
    v.standing (list (texts.map text)) ≠ .undefined := by
  cases v with
  | list vs => exact standingItems_texts vs texts
  | _ => simp [standing, number?]

end Value

/-- A text or a list of texts. -/
inductive Operand.IsTextual : Operand → Prop
  | one (s : String) : IsTextual (.text s)
  | many (texts : List String) : IsTextual (.list (texts.map .text))

theorem Operator.accepts_isOk (op : Operator) {standing : Standing} (h : standing ≠ .undefined) :
    ∃ b, op.accepts standing = .ok b := by
  cases standing with
  | ordered o => cases op <;> exact ⟨_, rfl⟩
  | unordered => exact ⟨_, rfl⟩
  | unrelated => exact ⟨_, rfl⟩
  | undefined => exact absurd rfl h

theorem anyOf_isOk {α : Type} {test : α → Result Bool} {xs : List α}
    (h : ∀ x ∈ xs, ∃ b, test x = .ok b) : ∃ b, anyOf test xs = .ok b := by
  induction xs with
  | nil => exact ⟨false, rfl⟩
  | cons x xs ih =>
    obtain ⟨b, hb⟩ := h x (by simp)
    rw [anyOf, hb]
    cases b with
    | true => exact ⟨true, rfl⟩
    | false => exact ih fun y hy => h y (List.mem_cons_of_mem _ hy)

namespace Operand.IsTextual

variable {operand : Operand}

theorem ordersBefore_isOk (h : operand.IsTextual) (op : Operator) (v : Value) :
    ∃ b, ordersBefore op operand v = .ok b := by
  unfold ordersBefore
  split
  · exact ⟨false, rfl⟩
  · refine op.accepts_isOk ?_
    cases h with
    | one s => exact v.standing_castText s
    | many texts =>
      have hvalue : (Operand.list (texts.map .text)).value = .list (texts.map .text) := by
        simp [Operand.value, Item.value]
      rw [hvalue]
      exact v.standing_texts texts

theorem comparisonHolds_isOk (h : operand.IsTextual) (found : Option Value) (op : Operator) :
    ∃ b, comparisonHolds found op operand = .ok b := by
  have hordering (op : Operator) : ∃ b,
      (if (found.getD .null).isNull || operand == .null then Except.ok false
        else anyOf (ordersBefore op operand) (found.getD .null).candidates) = .ok b := by
    split
    · exact ⟨false, rfl⟩
    · exact anyOf_isOk fun v _ => h.ordersBefore_isOk op v
  cases op with
  | less => exact hordering .less
  | lessEqual => exact hordering .lessEqual
  | greater => exact hordering .greater
  | greaterEqual => exact hordering .greaterEqual
  | _ => exact ⟨_, rfl⟩

end Operand.IsTextual

namespace Filter

/-- The compiled pattern is there again when the condition is evaluated. -/
theorem IsLeaf.evaluate_isOk {f : Filter} (h : f.IsLeaf) (doc : Value) :
    ∃ b, f.evaluate doc = .ok b := by
  cases h with
  | equals => exact ⟨_, rfl⟩
  | @pattern field text ignoreCase p _ _ hp =>
    simp only [evaluate, patternHolds]
    cases doc.resolve field with
    | none => exact ⟨false, rfl⟩
    | some v => exact ⟨_, by rw [hp]⟩
  | @comparison field value op =>
    exact (Operand.IsTextual.one value).comparisonHolds_isOk (doc.resolve field) op
  | @comparisonOfMany field op values =>
    exact (Operand.IsTextual.many values).comparisonHolds_isOk (doc.resolve field) op

theorem WellFormed.evaluate_isOk {f : Filter} (h : f.WellFormed) (doc : Value) :
    ∃ b, f.evaluate doc = .ok b := by
  obtain ⟨hne, hg, hl⟩ := h
  rename_i groups
  have hgroups : ∀ group ∈ groups.map Filter.all, ∃ b, group.evaluate doc = .ok b := by
    intro group hgroup
    obtain ⟨leaves, hleaves, rfl⟩ := List.mem_map.mp hgroup
    obtain ⟨b, hb, -⟩ := evaluateAll_iff fun leaf hleaf =>
      (hl leaves hleaves leaf hleaf).evaluate_isOk doc
    exact ⟨b, hb⟩
  obtain ⟨b, hb, -⟩ := evaluateAny_iff hgroups
  exact ⟨b, hb⟩

/-- A pattern that has been read is read with the flag for any case as well, and finds what the
pattern finds when case is ignored. -/
theorem ofTextWith?_of_ofText {text : String} {p : Pattern} (h : Pattern.ofText? text = .ok p)
    (ignoreCase : Bool) : ∃ n,
      Pattern.Node.ofTextWith? (if ignoreCase then ['i'] else []) text.toList = .ok n ∧
      ∀ cs, n.search false cs = p.root.search ignoreCase cs := by
  have hroot : Pattern.Node.ofText? text.toList = .ok p.root := by
    unfold Pattern.ofText? at h
    cases hn : Pattern.Node.ofText? text.toList with
    | error problem =>
      rw [hn] at h
      cases h
    | ok n =>
      rw [hn] at h
      cases h
      rfl
  cases ignoreCase with
  | false => exact ⟨p.root, hroot, fun _ => rfl⟩
  | true =>
    refine ⟨p.root.ignoringCase, ?_, p.root.search_ignoringCase false⟩
    rw [if_pos rfl, Pattern.Node.ofTextWith?_ignoreCase, hroot]
    rfl

/-- The filter of a text has an answer for every document, and its patterns are read again with the
flags with which they are searched for. -/
theorem evaluate_ofTerms {terms : String} {f : Filter} (h : ofTerms terms = .ok (some f)) :
    (∀ doc : Value, ∃ b, f.evaluate doc = .ok b) ∧
    ∀ group ∈ f.parts, ∀ field text ignoreCase, .pattern field text ignoreCase ∈ group.parts →
      ∃ p n, Pattern.ofText? text = .ok p ∧
        Pattern.Node.ofTextWith? (if ignoreCase then ['i'] else []) text.toList = .ok n ∧
        ∀ cs, n.search false cs = p.root.search ignoreCase cs := by
  have hwf := wellFormed_of_ofTerms h
  refine ⟨hwf.evaluate_isOk, fun group hgroup field text ignoreCase hleaf => ?_⟩
  obtain ⟨hne, hg, hl⟩ := hwf
  obtain ⟨leaves, hleaves, rfl⟩ := List.mem_map.mp hgroup
  cases hl leaves hleaves _ hleaf with
  | pattern _ _ hp =>
    obtain ⟨n, hn, hsearch⟩ := ofTextWith?_of_ofText hp ignoreCase
    exact ⟨_, n, hp, hn, hsearch⟩

/-- No text is read as a number that a decimal without a value refuses. -/
theorem evaluate_decimal_terms :
    let f : Filter := .any [.all [.comparison "age" .greater (.list [.text "10", .text "2"]),
      .pattern "name" "a.k" true, .comparison "paid" .less (.text "7")]]
    ofTerms "age(gt:10:2),name(contains:a.k:i),paid(lt:7)" = .ok (some f) ∧
    (∃ b, f.evaluate (.mapping [("age", .list [.null, .int 11]), ("name", .text "bARK"),
        ("paid", .number (.decimal (.nan false false 0)))]) = .ok b) ∧
    ∃ p n, Pattern.ofText? "a.k" = .ok p ∧
      Pattern.Node.ofTextWith? ['i'] "a.k".toList = .ok n ∧
      ∀ cs, n.search false cs = p.root.search true cs := by
  intro f
  have hread : (Pattern.ofText? "a.k").toOption.isSome = true := by decide +kernel
  have hname : (⟨"name", .contains, ["a.k"], some "i"⟩ : Clause).compile =
      .ok (some (.pattern "name" "a.k" true)) := by
    rw [Clause.compile_contains, Clause.patternFilter?]
    split
    · rfl
    all_goals next h => rw [h] at hread; cases hread
  have hterms : ofTerms "age(gt:10:2),name(contains:a.k:i),paid(lt:7)" = .ok (some f) := by
    refine ofTerms_eq_ok_iff.mpr ?_
    have hrows : clauseRows "age(gt:10:2),name(contains:a.k:i),paid(lt:7)" =
        [[⟨"age", .compare .greater, ["10", "2"], none⟩, ⟨"name", .contains, ["a.k"], some "i"⟩,
          ⟨"paid", .compare .less, ["7"], none⟩]] := by rfl
    simp [conditionRows, hrows, Clause.Compiles, Clause.leaf?, hname, Clause.compile_compare,
      Clause.operandOf, ofConditions, f]
  have safe := evaluate_ofTerms hterms
  exact ⟨hterms, safe.1 _, safe.2 _ (.head _) "name" "a.k" true (.tail _ (.head _))⟩

end Filter

end DocGrid

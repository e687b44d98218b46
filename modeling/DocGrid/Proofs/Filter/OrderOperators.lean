import DocGrid.Proofs.Filter.Evaluation
import DocGrid.Proofs.Store.Leaves

/-! The operators of order and of equality side by side. Both read the operand as the kind of value
that it is compared with, so that at least means greater or equal, and at most less or equal,
whatever a field holds. The one thing in the way is a comparison that fails: it ends the search for
an item before an equal one is found. -/

namespace DocGrid

/-- A decimal that is not a number. Nothing can be ordered with it. -/
def Value.isDecimalNaN : Value → Bool
  | .number (.decimal (.nan ..)) => true
  | _ => false

def Operand.isNaN : Operand → Bool
  | .item (.float x) => x.isNaN
  | _ => false

def Operand.isList : Operand → Bool
  | .list _ => true
  | _ => false

/-- A text, a number or a truth value. -/
inductive Operand.IsScalar : Operand → Prop
  | bool (b : Bool) : IsScalar (.bool b)
  | item (i : Item) : IsScalar (.item i)

/-- What an operand is read as when it is compared with a value. -/
def Operand.beside (operand : Operand) (v : Value) : Value :=
  cast (.ofValue v) operand.value

theorem Quantity.order_eq_iff (p q : Quantity) : p.order q = .eq ↔ p = q := by
  rw [← Ordering.isEq_iff_eq_eq, Quantity.isEq_order, decide_eq_true_eq]

theorem Number.same_iff (n m : Number) :
    n.same m = true ↔ Standing.ofNumbers n m = .ordered .eq := by
  have hnone : (if n.isDecimal || m.isDecimal then Standing.undefined else .unordered) ≠
      .ordered .eq := by
    split <;> simp
  unfold Number.same Standing.ofNumbers
  cases n.quantity? with
  | none => simpa using hnone
  | some p =>
    cases m.quantity? with
    | none => simpa using hnone
    | some q => simp [Quantity.order_eq_iff]

theorem DateTime.same_iff (t u : DateTime) : t.same u = true ↔ t.compare? u = some .eq := by
  unfold DateTime.same DateTime.compare?
  by_cases h : t.isAware = u.isAware
  · simp [h, Std.LawfulEqCmp.compare_eq_iff_eq]
  · simp [h]

namespace Value

/-- The values that a text, a number or a truth value is read as. -/
inductive IsReading : Value → Prop
  | bool (b : Bool) : IsReading (.bool b)
  | number (n : Number) : IsReading (.number n)
  | text (s : String) : IsReading (.text s)
  | datetime (t : DateTime) : IsReading (.datetime t)

/-- Two values are equal exactly when they are ordered and neither is less. -/
theorem IsReading.same_iff {w : Value} (hw : w.IsReading) (v : Value) :
    v.same w = true ↔ v.standing w = .ordered .eq := by
  cases hw with
  | bool b =>
    cases v with
    | bool a => cases a <;> cases b <;> decide
    | number n => exact Number.same_iff n _
    | _ => simp [same, standing, number?]
  | number m =>
    cases v with
    | bool a => exact Number.same_iff _ m
    | number n => exact Number.same_iff n m
    | _ => simp [same, standing, number?]
  | text s =>
    cases v with
    | text t => simp [same, standing, Std.LawfulEqCmp.compare_eq_iff_eq]
    | _ => simp [same, standing, number?]
  | datetime t =>
    cases v with
    | datetime u =>
      rw [same, DateTime.same_iff, standing]
      cases u.compare? t <;> simp
    | _ => simp [same, standing, number?]

end Value

theorem Operand.IsScalar.reading {operand : Operand} (h : operand.IsScalar) (v : Value) :
    (operand.beside v).IsReading := by
  cases h with
  | bool b => exact .bool b
  | item i =>
    cases i with
    | int n => exact .number _
    | float x => exact .number _
    | text s =>
      change (castText (.ofValue v) s).IsReading
      have hread := readAs_castText (.ofValue v) s
      generalize Target.ofValue v = target at hread ⊢
      generalize castText target s = w at hread ⊢
      cases hread with
      | text _ => exact .text s
      | bool b => exact .bool b
      | int n => exact .number _
      | double x => exact .number _
      | float x => exact .number _
      | datetime t => exact .datetime t

namespace Operator

def IsOrder (op : Operator) : Prop :=
  op ∈ [.less, .lessEqual, .greater, .greaterEqual]

/-- An operator of strict order, and the one that takes equality as well. -/
inductive Widens : Operator → Operator → Prop
  | less : Widens less lessEqual
  | greater : Widens greater greaterEqual

theorem Widens.isOrder {strict loose : Operator} (h : Widens strict loose) :
    strict.IsOrder ∧ loose.IsOrder := by
  cases h <;> simp [IsOrder]

theorem Widens.accepts {strict loose : Operator} (h : Widens strict loose) (standing : Standing) :
    loose.accepts standing = (strict.accepts standing).map (· || standing == .ordered .eq) := by
  cases standing with
  | ordered o => cases h <;> cases o <;> rfl
  | _ => cases h <;> rfl

end Operator

section Scalar

variable {operand : Operand} {strict loose : Operator} (hscalar : operand.IsScalar)
  (hop : strict.Widens loose)

include hscalar

theorem not_equals_null : equalsScalar .null operand = false := by
  cases hscalar with
  | bool b => rfl
  | item i => cases i <;> rfl

theorem equalsScalar_iff (v : Value) :
    equalsScalar v operand = (v.standing (operand.beside v) == .ordered .eq) := by
  rw [Bool.eq_iff_iff, beq_iff_eq, equalsScalar]
  exact (hscalar.reading v).same_iff v

include hop

/-- One candidate: the wider operator adds equality, and fails where the strict one fails. -/
theorem ordersBefore_widened (v : Value) :
    ordersBefore loose operand v =
      (ordersBefore strict operand v).map (· || equalsScalar v operand) := by
  by_cases hnull : v.isNull = true
  · cases v with
    | null => simp [ordersBefore, Value.isNull, not_equals_null hscalar]
    | _ => cases hnull
  · rw [ordersBefore, ordersBefore, if_neg hnull, if_neg hnull, hop.accepts,
      equalsScalar_iff hscalar]
    rfl

end Scalar

/-! Which comparisons fail. -/

theorem Standing.ofNumbers_ne_undefined {n m : Number}
    (hn : (Value.number n).isDecimalNaN = false) (hm : m.isDecimal = false)
    (hq : ∃ q, m.quantity? = some q) : Standing.ofNumbers n m ≠ .undefined := by
  obtain ⟨q, hq⟩ := hq
  have hordered {p : Quantity} (hp : n.quantity? = some p) :
      Standing.ofNumbers n m ≠ .undefined := by
    rw [Standing.ofNumbers_eq hp hq]
    simp
  cases n with
  | int k => exact hordered rfl
  | float x => exact Value.standing_ofNumbers rfl hm
  | decimal d =>
    cases d with
    | finite negative c e => exact hordered rfl
    | infinite negative => exact hordered rfl
    | nan negative signalling payload => cases hn

theorem Value.standing_number_ne_undefined {v : Value} (hv : v.isDecimalNaN = false) {w : Value}
    {m : Number} (hw : w.number? = some m) (hm : m.isDecimal = false)
    (hq : ∃ q, m.quantity? = some q) : v.standing w ≠ .undefined := by
  have hpair {n : Number} (hn : v.number? = some n) : v.standing w = .ofNumbers n m := by
    cases v <;> cases hn <;> cases w <;> cases hw <;> rfl
  cases v with
  | bool b =>
    rw [hpair rfl]
    exact Standing.ofNumbers_ne_undefined rfl hm hq
  | number n =>
    rw [hpair rfl]
    exact Standing.ofNumbers_ne_undefined hv hm hq
  | _ => cases w <;> cases hw <;> simp [standing, number?]

namespace Operand

variable {operand : Operand} {v : Value}

/-- Beside a value that is not an undefined decimal only an undefined double fails. -/
theorem standing_beside (h : operand.IsScalar) (hnumber : operand.isNaN = false)
    (hv : v.isDecimalNaN = false) : v.standing (operand.beside v) ≠ .undefined := by
  cases h with
  | bool b => exact Value.standing_number_ne_undefined hv rfl rfl ⟨_, rfl⟩
  | item i =>
    cases i with
    | text s => exact v.standing_castText s
    | int n => exact Value.standing_number_ne_undefined hv rfl rfl ⟨_, rfl⟩
    | float x =>
      exact Value.standing_number_ne_undefined hv rfl rfl (Quantity.ofBinary64_isSome hnumber)

theorem ordersBefore_isOk (h : operand.IsScalar) (hnumber : operand.isNaN = false)
    (hv : v.isDecimalNaN = false) (op : Operator) : ∃ b, ordersBefore op operand v = .ok b := by
  unfold ordersBefore
  split
  · exact ⟨false, rfl⟩
  · exact op.accepts_isOk (standing_beside h hnumber hv)

theorem not_equals_of_isNaN (h : operand.isNaN = true) (v : Value) :
    equalsScalar v operand = false := by
  cases operand with
  | item i =>
    cases i with
    | float x =>
      have hnone : Quantity.ofBinary64 x = none := if_pos h
      have hnumber (n : Number) : n.same (.float x) = false := by
        cases n.quantity? <;> simp [Number.same, Number.quantity?, hnone]
      change v.same (.float x) = false
      cases v with
      | bool b => exact hnumber _
      | number n => exact hnumber n
      | _ => rfl
    | _ => cases h
  | _ => cases h

end Operand

/-- The wider test over all items, when no failure stands before an item that is equal. -/
theorem anyOf_widened {α : Type} {strict loose : α → Result Bool} {equal : α → Bool} {xs : List α}
    (hloose : ∀ x ∈ xs, loose x = (strict x).map (· || equal x))
    (hsettled : (∀ x ∈ xs, ∃ b, strict x = .ok b) ∨ ∀ x ∈ xs, equal x = false) :
    anyOf loose xs = (anyOf strict xs).map (· || xs.any equal) := by
  induction xs with
  | nil => rfl
  | cons x xs ih =>
    have hrest := ih (fun y hy => hloose y (List.mem_cons_of_mem _ hy))
      (hsettled.imp (fun h y hy => h y (List.mem_cons_of_mem _ hy))
        (fun h y hy => h y (List.mem_cons_of_mem _ hy)))
    rw [anyOf, anyOf, hloose x List.mem_cons_self, hrest, List.any_cons]
    cases hx : strict x with
    | error e => rfl
    | ok b =>
      cases b with
      | true => rfl
      | false =>
        cases he : equal x with
        | false => simp
        | true =>
          -- An equal item decides for the wider test, and then the strict one cannot fail.
          rcases hsettled with hok | hnone
          · obtain ⟨b, hb⟩ := anyOf_isOk fun y hy => hok y (List.mem_cons_of_mem x hy)
            simp [hb]
          · rw [hnone x List.mem_cons_self] at he
            cases he

section Field

variable {operand : Operand} {strict loose : Operator} {found : Option Value}

theorem comparisonHolds_ordering {op : Operator} (hop : op.IsOrder) (found : Option Value)
    (operand : Operand) : comparisonHolds found op operand =
      if (found.getD .null).isNull || operand == .null then .ok false
      else anyOf (ordersBefore op operand) (found.getD .null).candidates := by
  simp only [Operator.IsOrder, List.mem_cons, List.not_mem_nil, or_false] at hop
  rcases hop with rfl | rfl | rfl | rfl <;> rfl

/-- A list equals an operand that is none only through its items. -/
theorem equalsOperand_candidates (h : operand.isList = false) (v : Value) :
    equalsOperand v operand = v.candidates.any (equalsScalar · operand) := by
  cases v with
  | list items =>
    have hwhole : (Value.list items).same operand.value = false := by
      cases operand with
      | list members => cases h
      | item i => cases i <;> rfl
      | _ => rfl
    simp only [equalsOperand, hwhole, Bool.false_or, Value.candidates]
  | _ => simp [equalsOperand, Value.candidates]

variable (hscalar : operand.IsScalar)
  (hfield : ∀ v, found = some v → ∀ c ∈ v.candidates, c.isDecimalNaN = false)

include hfield

theorem isDecimalNaN_candidates :
    ∀ c ∈ (found.getD .null).candidates, c.isDecimalNaN = false := by
  cases found with
  | none => simp [Value.candidates, Value.isDecimalNaN]
  | some v => exact hfield v rfl

include hscalar

theorem comparisonHolds_order_isOk (hnumber : operand.isNaN = false) {op : Operator}
    (hop : op.IsOrder) : ∃ b, comparisonHolds found op operand = .ok b := by
  rw [comparisonHolds_ordering hop]
  split
  · exact ⟨false, rfl⟩
  · apply anyOf_isOk
    intro c hc
    exact Operand.ordersBefore_isOk hscalar hnumber (isDecimalNaN_candidates hfield c hc) op

theorem comparisonHolds_widened (hop : strict.Widens loose) :
    comparisonHolds found loose operand = (comparisonHolds found strict operand).map
      (· || equalsOperand (found.getD .null) operand) := by
  have hcandidates := isDecimalNaN_candidates hfield
  have hoperand : (operand == .null) = false := by cases hscalar <;> rfl
  have hlist : operand.isList = false := by cases hscalar <;> rfl
  rw [comparisonHolds_ordering hop.isOrder.2, comparisonHolds_ordering hop.isOrder.1,
    hoperand, Bool.or_false]
  generalize found.getD .null = v at hcandidates
  by_cases hnull : v.isNull = true
  · cases v with
    | null =>
      have hequal : equalsOperand .null operand = false := not_equals_null hscalar
      rw [hequal]
      rfl
    | _ => cases hnull
  · rw [if_neg hnull, if_neg hnull, equalsOperand_candidates hlist]
    apply anyOf_widened (fun c _ => ordersBefore_widened hscalar hop c)
    by_cases hnan : operand.isNaN = true
    · exact .inr fun c _ => Operand.not_equals_of_isNaN hnan c
    · refine .inl fun c hc => ?_
      have hnumber : operand.isNaN = false := by simpa using hnan
      exact Operand.ordersBefore_isOk hscalar hnumber (hcandidates c hc) strict

end Field

theorem equalsScalar_of_numbers {operand : Operand} {x m : Number} {p q : Quantity}
    (hx : x.quantity? = some p) (hscalar : operand.IsScalar)
    (hread : operand.beside (.number x) = .number m) (hm : m.quantity? = some q) :
    equalsScalar (.number x) operand = (p.order q == .eq) := by
  have hstanding : (Value.number x).standing (.number m) = .ordered (p.order q) :=
    Standing.ofNumbers_eq hx hm
  rw [equalsScalar_iff hscalar, hread, hstanding]
  cases p.order q <;> rfl

namespace Filter

variable {doc : Value} {field : String} {operand : Operand}

theorem evaluateAny_pair (f g : Filter) {b : Bool} (h : g.evaluate doc = .ok b) :
    (any [f, g]).evaluate doc = (f.evaluate doc).map (· || b) := by
  simp only [evaluate, evaluateAny, h]
  cases f.evaluate doc with
  | error e => rfl
  | ok a => cases a <;> cases b <;> rfl

theorem evaluate_widened {strict loose : Operator} (hop : strict.Widens loose)
    (hscalar : operand.IsScalar)
    (hfield : ∀ v, doc.resolve field = some v → ∀ c ∈ v.candidates, c.isDecimalNaN = false) :
    (comparison field loose operand).evaluate doc =
      (any [comparison field strict operand, comparison field .equal operand]).evaluate doc := by
  rw [evaluateAny_pair _ _ rfl]
  exact comparisonHolds_widened hscalar hfield hop

section Numbers

variable {x m : Number} {p q : Quantity} (hfield : doc.resolve field = some (.number x))
  (hx : x.quantity? = some p) (hscalar : operand.IsScalar)
  (hread : operand.beside (.number x) = .number m) (hm : m.quantity? = some q)

include hfield hx hscalar hread hm

theorem evaluate_order_of_numbers {op : Operator} (hop : op.IsOrder) :
    (comparison field op operand).evaluate doc = op.accepts (.ordered (p.order q)) := by
  have hstanding : (Value.number x).standing (operand.beside (.number x)) =
      .ordered (p.order q) := by
    rw [hread]
    exact Standing.ofNumbers_eq hx hm
  have horder : ordersBefore op operand (.number x) = op.accepts (.ordered (p.order q)) :=
    congrArg op.accepts hstanding
  have hnull : (operand == .null) = false := by cases hscalar <;> rfl
  have haccepts : ∃ b, op.accepts (.ordered (p.order q)) = .ok b := op.accepts_isOk (by simp)
  obtain ⟨b, hb⟩ := haccepts
  rw [hb] at horder ⊢
  rw [evaluate, hfield, comparisonHolds_ordering hop, hnull]
  exact anyOf_singleton horder

theorem evaluate_equal_of_numbers :
    (comparison field .equal operand).evaluate doc = .ok (p.order q == .eq) := by
  rw [evaluate, hfield]
  exact congrArg Except.ok (equalsScalar_of_numbers hx hscalar hread hm)

end Numbers

/-- At least is greater or equal, at most is less or equal, there is an answer unless the operand
is a double without a value, and of two numbers exactly one of the three relations holds. -/
theorem evaluate_orEqual (hscalar : operand.IsScalar)
    (hfield : ∀ v, doc.resolve field = some v → ∀ c ∈ v.candidates, c.isDecimalNaN = false) :
    (comparison field .greaterEqual operand).evaluate doc =
      (any [comparison field .greater operand, comparison field .equal operand]).evaluate doc ∧
    (comparison field .lessEqual operand).evaluate doc =
      (any [comparison field .less operand, comparison field .equal operand]).evaluate doc ∧
    (operand.isNaN = false → ∀ op, Operator.IsOrder op →
      ∃ b, (comparison field op operand).evaluate doc = .ok b) ∧
    ∀ (x m : Number) (p q : Quantity) (s : String), operand = .text s →
      doc.resolve field = some (.number x) → x.quantity? = some p →
      cast (.ofValue (.number x)) (.text s) = .number m → m.quantity? = some q →
      ∃ o : Ordering,
        (comparison field .less operand).evaluate doc = .ok (o == .lt) ∧
        (comparison field .equal operand).evaluate doc = .ok (o == .eq) ∧
        (comparison field .greater operand).evaluate doc = .ok (o == .gt) := by
  refine ⟨evaluate_widened .greater hscalar hfield, evaluate_widened .less hscalar hfield,
    fun hnumber op hop => comparisonHolds_order_isOk hscalar hfield hnumber hop, ?_⟩
  rintro x m p q s rfl hnumber hx hread hm
  refine ⟨p.order q, ?_, evaluate_equal_of_numbers hnumber hx hscalar hread hm, ?_⟩
  · rw [evaluate_order_of_numbers hnumber hx hscalar hread hm (by simp [Operator.IsOrder])]
    cases p.order q <;> rfl
  · rw [evaluate_order_of_numbers hnumber hx hscalar hread hm (by simp [Operator.IsOrder])]
    cases p.order q <;> rfl

/-- Items of many kinds, with a double without a value among them, and a whole number beside the
text of a double. -/
theorem evaluate_orEqual_mixed :
    let items : List Value := [.null, .float Binary64.nan, .bool true, .text "8",
      .number (.decimal (.finite true 75 (-1))), .list [.number (.decimal (.nan false false 0))],
      .mapping [("k", .int 7)], .datetime ⟨⟨2024, 1, 2⟩, 3, 4, 5, 0, some 0⟩]
    let doc : Value := .mapping [("k", .list items), ("n", .int 7)]
    (comparison "k" .greaterEqual (.text "7.5")).evaluate doc =
      (any [comparison "k" .greater (.text "7.5"), comparison "k" .equal (.text "7.5")]).evaluate
        doc ∧
    ∃ o : Ordering,
      (comparison "n" .less (.text "7.5")).evaluate doc = .ok (o == .lt) ∧
      (comparison "n" .equal (.text "7.5")).evaluate doc = .ok (o == .eq) ∧
      (comparison "n" .greater (.text "7.5")).evaluate doc = .ok (o == .gt) := by
  intro items doc
  have hlist : doc.resolve "k" = some (.list items) := by rfl
  have hnumber : doc.resolve "n" = some (.int 7) := by rfl
  have hitems : ∀ v, doc.resolve "k" = some v → ∀ c ∈ v.candidates, c.isDecimalNaN = false := by
    rw [hlist]
    rintro v ⟨⟩
    decide
  have hone : ∀ v, doc.resolve "n" = some v → ∀ c ∈ v.candidates, c.isDecimalNaN = false := by
    rw [hnumber]
    rintro v ⟨⟩
    decide
  refine ⟨(evaluate_orEqual (.item _) hitems).1, ?_⟩
  have hsome : ((numberOf? "7.5").bind Number.quantity?).isSome = true := by decide +kernel
  obtain ⟨q, hq⟩ := Option.isSome_iff_exists.mp hsome
  obtain ⟨m, hm, hq⟩ := Option.bind_eq_some_iff.mp hq
  have hread : cast (.ofValue (.int 7)) (.text "7.5") = .number m := by
    change ((numberOf? "7.5").map Value.number).getD (.text "7.5") = .number m
    rw [hm]
    rfl
  exact (evaluate_orEqual (.item _) hone).2.2.2 (.int 7) m _ q "7.5" rfl hnumber rfl hread hq

end Filter

end DocGrid

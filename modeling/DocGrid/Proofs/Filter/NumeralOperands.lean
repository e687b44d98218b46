import DocGrid.Proofs.Filter.OrderOperators
import DocGrid.Proofs.Number.WholeDoubles

/-! Texts of whole numbers as operands. Beside a whole number or a double such a text is compared as
the number that it says, exactly. Beside a decimal it stays a text, which no decimal equals and which
is neither before nor after one. -/

namespace DocGrid

namespace Operator

/-- The operators that two numbers are compared with. -/
def IsRelation (op : Operator) : Prop :=
  op = .equal ∨ op = .notEqual ∨ op.IsOrder

/-- The relation of numbers that an operator is named for. -/
def relates (op : Operator) (p q : Rat) : Bool :=
  match op with
  | less => decide (p < q)
  | lessEqual => decide (p ≤ q)
  | greater => decide (q < p)
  | greaterEqual => decide (q ≤ p)
  | equal => decide (p = q)
  | notEqual => decide (p ≠ q)
  | _ => false

end Operator

theorem Quantity.order_exact (p q : Rat) :
    (exact p).order (exact q) = if p = q then .eq else if p < q then .lt else .gt := by
  unfold order le
  by_cases h : p = q
  · simp [h]
  · have hlt : p ≤ q ↔ p < q := ⟨fun hle => lt_of_le_of_ne hle h, le_of_lt⟩
    simp [h, hlt]

theorem Operator.accepts_order_exact {op : Operator} (hop : op.IsOrder) (p q : Rat) :
    op.accepts (.ordered ((Quantity.exact p).order (.exact q))) = .ok (op.relates p q) := by
  simp only [IsOrder, List.mem_cons, List.not_mem_nil, or_false] at hop
  rw [Quantity.order_exact]
  rcases lt_trichotomy p q with h | rfl | h
  · have hne : p ≠ q := ne_of_lt h
    rcases hop with rfl | rfl | rfl | rfl <;>
      simp [accepts, relates, hne, h, h.le, h.not_gt, h.not_ge, Ordering.isLT, Ordering.isLE,
        Ordering.isGT, Ordering.isGE]
  · rcases hop with rfl | rfl | rfl | rfl <;> simp [accepts, relates]
  · have hne : p ≠ q := (ne_of_lt h).symm
    rcases hop with rfl | rfl | rfl | rfl <;>
      simp [accepts, relates, hne, h, h.le, h.not_gt, h.not_ge]

theorem digitCount_le_maxDigits {n : Nat} (h : n ≤ 2 ^ 53) :
    Scaled.digitCount n ≤ Reading.maxDigits := by
  by_cases hne : n = 0
  · subst hne
    decide
  · have hlead := Scaled.pow_digitCount_le hne
    by_contra hlong
    have hmany : 16 ≤ Scaled.digitCount n - 1 := by
      unfold Reading.maxDigits at hlong
      omega
    have hlarge : 10 ^ 16 ≤ 10 ^ (Scaled.digitCount n - 1) :=
      Nat.pow_le_pow_right (by decide) hmany
    omega

section Numeral

variable {x : Number} {q : Rat} {n : Int}

theorem numeral_beside (hx : x.isDecimal = false) (hn : n.natAbs ≤ 2 ^ 53) :
    ∃ m, (Operand.text (toString n)).beside (.number x) = .number m ∧
      m.quantity? = some (.exact n) := by
  cases x with
  | int k =>
    have hread : Reading.int? (toString n) = some n :=
      Reading.int?_toString (digitCount_le_maxDigits hn)
    refine ⟨.int n, ?_, rfl⟩
    change ((numberOf? (toString n)).map Value.number).getD _ = _
    rw [numberOf?, hread]
    rfl
  | float y =>
    obtain ⟨z, hread, hz⟩ := Reading.float?_toString hn
    refine ⟨.float z, ?_, hz⟩
    change ((Reading.float? (toString n)).map Value.float).getD _ = _
    rw [hread]
    rfl
  | decimal d => cases hx

theorem text_beside_decimal (hx : x.isDecimal = true) (s : String) :
    (Operand.text s).beside (.number x) = .text s := by
  cases x with
  | decimal d => rfl
  | _ => cases hx

variable (hx : x.quantity? = some (.exact q))

include hx

theorem equalsScalar_numeral (hn : n.natAbs ≤ 2 ^ 53) :
    equalsScalar (.number x) (.text (toString n)) = (!x.isDecimal && decide (q = n)) := by
  cases hdecimal : x.isDecimal with
  | true =>
    change (Value.number x).same ((Operand.text (toString n)).beside (.number x)) = false
    rw [text_beside_decimal hdecimal]
    rfl
  | false =>
    have hscalar : (Operand.text (toString n)).IsScalar := .item _
    obtain ⟨m, hread, hm⟩ := numeral_beside hdecimal hn
    rw [equalsScalar_of_numbers hx hscalar hread hm, Quantity.order_exact]
    by_cases h : q = n
    · simp [h]
    · by_cases hlt : q < n <;> simp [h, hlt]

theorem anyMember_numerals {ns : List Int} (hns : ∀ n ∈ ns, n.natAbs ≤ 2 ^ 53) :
    (Operand.list (ns.map fun n => .text (toString n))).members.any (equalsOperand (.number x)) =
      (!x.isDecimal && ns.any fun n => decide (q = n)) := by
  rw [Operand.members, List.map_map, List.any_map]
  induction ns with
  | nil => simp
  | cons n ns ih =>
    have hfirst : equalsOperand (.number x) (.text (toString n)) =
        (!x.isDecimal && decide (q = n)) :=
      equalsScalar_numeral hx (hns n List.mem_cons_self)
    rw [List.any_cons, List.any_cons, ih fun k hk => hns k (List.mem_cons_of_mem _ hk),
      Bool.and_or_distrib_left]
    exact congrArg (· || _) hfirst

end Numeral

namespace Filter

section Field

variable {doc : Value} {field : String} {x : Number} {q : Rat} {n : Int}
  (hfield : doc.resolve field = some (.number x)) (hx : x.quantity? = some (.exact q))

include hfield

/-- No text is before or after a decimal. -/
theorem evaluate_order_of_decimal (hdecimal : x.isDecimal = true) {op : Operator}
    (hop : op.IsOrder) (s : String) :
    (comparison field op (.text s)).evaluate doc = .ok false := by
  have horder : ordersBefore op (.text s) (.number x) = .ok false := by
    change op.accepts ((Value.number x).standing ((Operand.text s).beside (.number x))) = _
    rw [text_beside_decimal hdecimal]
    rfl
  rw [evaluate, hfield, comparisonHolds_ordering hop]
  exact anyOf_singleton horder

include hx

theorem evaluate_relation_of_numeral {op : Operator} (hop : op.IsRelation)
    (hn : n.natAbs ≤ 2 ^ 53) : (comparison field op (.text (toString n))).evaluate doc =
      .ok (if x.isDecimal then op == .notEqual else op.relates q n) := by
  have hequal : equalsOperand (.number x) (.text (toString n)) =
      (!x.isDecimal && decide (q = n)) := equalsScalar_numeral hx hn
  rcases hop with rfl | rfl | hop
  · simp only [evaluate, hfield, comparisonHolds, Option.getD_some, hequal]
    cases x.isDecimal <;> rfl
  · simp only [evaluate, hfield, comparisonHolds, Option.getD_some, hequal]
    cases x.isDecimal <;> simp [Operator.relates]
  · cases hdecimal : x.isDecimal with
    | true =>
      have hne : (op == .notEqual) = false := by
        simp only [Operator.IsOrder, List.mem_cons, List.not_mem_nil, or_false] at hop
        rcases hop with rfl | rfl | rfl | rfl <;> rfl
      rw [evaluate_order_of_decimal hfield hdecimal hop, if_pos rfl, hne]
    | false =>
      have hscalar : (Operand.text (toString n)).IsScalar := .item _
      obtain ⟨m, hread, hm⟩ := numeral_beside hdecimal hn
      rw [evaluate_order_of_numbers hfield hx hscalar hread hm hop]
      exact Operator.accepts_order_exact hop q n

/-- Whole numbers and doubles are compared with numerals by their values. A decimal differs from
all of them. -/
theorem evaluate_numerals :
    (∀ op n, Operator.IsRelation op → Int.natAbs n ≤ 2 ^ 53 →
      (comparison field op (.text (toString n))).evaluate doc =
        .ok (if x.isDecimal then op == .notEqual else op.relates q n)) ∧
    ∀ ns : List Int, (∀ n ∈ ns, n.natAbs ≤ 2 ^ 53) →
      let texts : Operand := .list (ns.map fun n => .text (toString n))
      (comparison field .among texts).evaluate doc =
        .ok (!x.isDecimal && ns.any fun n => decide (q = n)) ∧
      (comparison field .notAmong texts).evaluate doc =
        .ok (x.isDecimal || !ns.any fun n => decide (q = n)) := by
  refine ⟨fun op n hop hn => evaluate_relation_of_numeral hfield hx hop hn, fun ns hns => ?_⟩
  have hmembers := anyMember_numerals hx hns
  constructor
  · rw [evaluate, hfield]
    exact congrArg Except.ok hmembers
  · rw [evaluate, hfield]
    simp only [comparisonHolds, Option.getD_some, hmembers, Bool.not_and, Bool.not_not]

end Field

/-- Seven and a half as a double and as a decimal, both beside the text of seven. -/
theorem evaluate_numerals_seven :
    let double : Number := .float ⟨false, ⟨1025, by decide⟩, ⟨0xE000000000000, by decide⟩⟩
    let decimal : Number := .decimal (.finite false 75 (-1))
    let doc (x : Number) : Value := .mapping [("x", .number x)]
    (comparison "x" .greater (.text (toString (7 : Int)))).evaluate (doc double) = .ok true ∧
    (comparison "x" .greater (.text (toString (7 : Int)))).evaluate (doc decimal) = .ok false := by
  intro double decimal doc
  have hfield (x : Number) : (doc x).resolve "x" = some (.number x) := rfl
  have hdouble : double.quantity? = some (.exact (15 / 2)) := by decide +kernel
  have hdecimal : decimal.quantity? = some (.exact (15 / 2)) := by decide +kernel
  have hop : Operator.greater.IsRelation := by simp [Operator.IsRelation, Operator.IsOrder]
  have hgreater : Operator.greater.relates (15 / 2) (7 : Int) = true := by decide +kernel
  constructor
  · rw [(evaluate_numerals (hfield double) hdouble).1 .greater 7 hop (by decide)]
    exact congrArg Except.ok hgreater
  · rw [(evaluate_numerals (hfield decimal) hdecimal).1 .greater 7 hop (by decide)]
    rfl

/-- What is worth five need not equal the text of five. -/
theorem not_evaluate_numerals :
    ¬∀ (x : Number) (q : Rat) (n : Int), x.quantity? = some (.exact q) → n.natAbs ≤ 2 ^ 53 →
      (comparison "x" .equal (.text (toString n))).evaluate (.mapping [("x", .number x)]) =
        .ok (decide (q = n)) := by
  intro h
  have hfive := h (.decimal (.finite false 5 0)) 5 5 (by decide +kernel) (by decide)
  cases hfive

end Filter

end DocGrid

import DocGrid.Proofs.Filter.OrderOperators

/-! A list in a field stands for its items. A leaf is satisfied with the list exactly if it is
satisfied with one of the items in place of the list, and a negated leaf exactly if it is satisfied
with each of them. Presence and the type of lists are about the list itself, and so is a comparison
with another list. -/

namespace DocGrid

namespace Value

/-- The value with another one where a path leads. -/
def replaced : List String → Value → Value → Value
  | [], _, new => new
  | key :: rest, mapping entries, new =>
    mapping (Document.put key (replaced rest ((Document.get? key entries).getD null) new) entries)
  | _ :: _, v, _ => v

def replaceAt (v : Value) (path : String) (new : Value) : Value :=
  v.replaced (pathSegments path) new

theorem follow_replaced {path : List String} {v old : Value} (h : v.follow path = some old)
    (new : Value) : (v.replaced path new).follow path = some new := by
  induction path generalizing v with
  | nil => rfl
  | cons key rest ih =>
    cases v with
    | mapping entries =>
      obtain ⟨inner, hinner, hrest⟩ := Option.bind_eq_some_iff.mp h
      simp only [replaced, follow, Document.get?_put, if_true, Option.bind_some, hinner,
        Option.getD_some]
      exact ih hrest
    | _ => cases h

theorem resolve_replaceAt {v old : Value} {path : String} (h : v.resolve path = some old)
    (new : Value) : (v.replaceAt path new).resolve path = some new :=
  follow_replaced h new

def isList : Value → Bool
  | list _ => true
  | _ => false

theorem candidates_item {v : Value} (h : v.isList = false) : v.candidates = [v] := by
  cases v with
  | list items => cases h
  | _ => rfl

end Value

namespace Filter

/-- Leaves that look for an item. -/
inductive Seeks (field : String) : Filter → Prop
  | equals {operand : Operand} (h : operand.isList = false) : Seeks field (.equals field operand)
  | equal {operand : Operand} (h : operand.isList = false) :
      Seeks field (.comparison field .equal operand)
  | ordering {op : Operator} (h : op.IsOrder) (operand : Operand) :
      Seeks field (.comparison field op operand)
  | among (operand : Operand) : Seeks field (.comparison field .among operand)
  | hasType {operand : Operand}
      (h : ∀ m ∈ operand.members, TypeName.ofText? m.value.display ≠ some .array) :
      Seeks field (.comparison field .hasType operand)
  | pattern {text : String} {p : Pattern} (h : Pattern.ofText? text = .ok p) (ignoreCase : Bool) :
      Seeks field (.pattern field text ignoreCase)

/-- Leaves that no item may meet. -/
inductive Shuns (field : String) : Filter → Prop
  | notEqual {operand : Operand} (h : operand.isList = false) :
      Shuns field (.comparison field .notEqual operand)
  | notAmong (operand : Operand) : Shuns field (.comparison field .notAmong operand)

end Filter

section Items

variable {items : List Value} {operand : Operand}

theorem equalsOperand_item {v : Value} (h : v.isList = false) (operand : Operand) :
    equalsOperand v operand = equalsScalar v operand := by
  cases v with
  | list items => cases h
  | _ => rfl

theorem isList_of_mem_members {m : Operand} (h : m ∈ operand.members) : m.isList = false := by
  cases operand with
  | list members =>
    obtain ⟨i, -, rfl⟩ := List.mem_map.mp h
    rfl
  | _ =>
    obtain rfl := List.mem_singleton.mp h
    rfl

theorem matchesType_item {v : Value} (hv : v.isList = false) {name : String} {t : TypeName}
    (ht : TypeName.ofText? name = some t) : matchesType v name = t.holds v := by
  unfold matchesType
  rw [ht]
  cases v with
  | list inner => cases hv
  | _ => exact Bool.or_false _

theorem matchesType_items (items : List Value) {name : String} {t : TypeName}
    (ht : TypeName.ofText? name = some t) (harray : t ≠ .array) :
    matchesType (.list items) name = items.any t.holds := by
  have hlist : t.holds (.list items) = false := by
    cases t with
    | array => exact absurd rfl harray
    | _ => rfl
  have hne : (t != .array) = true := bne_iff_ne.mpr harray
  simp only [matchesType, ht, hlist, hne, Bool.false_or, Bool.true_and]

variable (hflat : ∀ v ∈ items, v.isList = false)

include hflat

theorem equalsOperand_list_iff (h : operand.isList = false) :
    equalsOperand (.list items) operand = true ↔ ∃ v ∈ items, equalsOperand v operand = true := by
  rw [equalsOperand_candidates h, Value.candidates, List.any_eq_true]
  constructor
  · rintro ⟨v, hv, hequal⟩
    exact ⟨v, hv, (equalsOperand_item (hflat v hv) operand).trans hequal⟩
  · rintro ⟨v, hv, hequal⟩
    exact ⟨v, hv, (equalsOperand_item (hflat v hv) operand).symm.trans hequal⟩

theorem anyMember_list_iff :
    operand.members.any (equalsOperand (.list items)) = true ↔
      ∃ v ∈ items, operand.members.any (equalsOperand v) = true := by
  simp only [List.any_eq_true]
  constructor
  · rintro ⟨m, hm, hequal⟩
    obtain ⟨v, hv, hequal⟩ := (equalsOperand_list_iff hflat (isList_of_mem_members hm)).mp hequal
    exact ⟨v, hv, m, hm, hequal⟩
  · rintro ⟨v, hv, m, hm, hequal⟩
    exact ⟨m, hm, (equalsOperand_list_iff hflat (isList_of_mem_members hm)).mpr ⟨v, hv, hequal⟩⟩

theorem matchesType_list_iff {name : String} (h : TypeName.ofText? name ≠ some .array) :
    matchesType (.list items) name = true ↔ ∃ v ∈ items, matchesType v name = true := by
  cases ht : TypeName.ofText? name with
  | none => simp [matchesType, ht]
  | some t =>
    rw [matchesType_items items ht (fun harray => h (harray ▸ ht)), List.any_eq_true]
    constructor
    · rintro ⟨v, hv, hholds⟩
      exact ⟨v, hv, (matchesType_item (hflat v hv) ht).trans hholds⟩
    · rintro ⟨v, hv, hholds⟩
      exact ⟨v, hv, (matchesType_item (hflat v hv) ht).symm.trans hholds⟩

end Items

/-! Order: a comparison that fails is one with a number that has no value, and then no item is
found. -/

theorem true_of_anyOf {α : Type} {test : α → Result Bool} {xs : List α}
    (h : anyOf test xs = .ok true) : ∃ x ∈ xs, test x = .ok true := by
  induction xs with
  | nil => cases h
  | cons x xs ih =>
    cases hx : test x with
    | error e =>
      rw [anyOf, hx] at h
      cases h
    | ok b =>
      cases b with
      | true => exact ⟨x, List.mem_cons_self, hx⟩
      | false =>
        rw [anyOf, hx] at h
        obtain ⟨y, hy, hfound⟩ := ih h
        exact ⟨y, List.mem_cons_of_mem _ hy, hfound⟩

theorem anyOf_eq_true_iff {α : Type} {test : α → Result Bool} {xs : List α}
    (h : (∀ x ∈ xs, ∃ b, test x = .ok b) ∨ ∀ x ∈ xs, test x ≠ .ok true) :
    anyOf test xs = .ok true ↔ ∃ x ∈ xs, test x = .ok true := by
  refine ⟨true_of_anyOf, ?_⟩
  rintro ⟨x, hx, htrue⟩
  rcases h with hok | hnone
  · induction xs with
    | nil => cases hx
    | cons y ys ih =>
      obtain ⟨b, hb⟩ := hok y List.mem_cons_self
      rw [anyOf, hb]
      cases b with
      | true => rfl
      | false =>
        rcases List.mem_cons.mp hx with rfl | hx
        · cases hb.symm.trans htrue
        · exact ih hx fun z hz => hok z (List.mem_cons_of_mem _ hz)
  · exact absurd htrue (hnone x hx)

theorem anyOf_singleton_iff {α : Type} {test : α → Result Bool} {x : α} :
    anyOf test [x] = .ok true ↔ test x = .ok true := by
  refine ⟨fun h => ?_, anyOf_singleton⟩
  obtain ⟨y, hy, htrue⟩ := true_of_anyOf h
  rwa [List.mem_singleton.mp hy] at htrue

section Order

variable {op : Operator} {operand : Operand} {v : Value}

theorem ordersBefore_isNaN (h : operand.isNaN = true) (op : Operator) (v : Value) :
    ordersBefore op operand v ≠ .ok true := by
  cases operand with
  | item i =>
    cases i with
    | float x =>
      have hnone : Quantity.ofBinary64 x = none := if_pos h
      have hnumbers (n : Number) : op.accepts (.ofNumbers n (.float x)) ≠ .ok true := by
        have hstanding : Standing.ofNumbers n (.float x) =
            if n.isDecimal then .undefined else .unordered := by
          have hx : (Number.float x).isDecimal = false := rfl
          unfold Standing.ofNumbers
          cases n.quantity? <;> simp [Number.quantity?, hnone, hx]
        rw [hstanding]
        split <;> simp [Operator.accepts]
      cases v with
      | bool b => exact hnumbers _
      | number n => exact hnumbers n
      | _ =>
        intro htrue
        cases htrue
    | _ => cases h
  | _ => cases h

theorem ordersBefore_settled (hv : v.isList = false) (hdecimal : v.isDecimalNaN = false)
    (h : operand.isNaN = false) (op : Operator) : ∃ b, ordersBefore op operand v = .ok b := by
  have hunrelated (hstanding : v.standing (operand.beside v) = .unrelated) :
      ∃ b, ordersBefore op operand v = .ok b := by
    refine ⟨false, ?_⟩
    change (if v.isNull then .ok false else op.accepts (v.standing (operand.beside v))) = _
    rw [hstanding]
    exact ite_self _
  cases operand with
  | null =>
    apply hunrelated
    change v.standing .null = .unrelated
    cases v <;> simp [Value.standing, Value.number?]
  | list members =>
    apply hunrelated
    change v.standing (.list _) = .unrelated
    cases v with
    | list items => cases hv
    | _ => simp [Value.standing, Value.number?]
  | bool b => exact Operand.ordersBefore_isOk (.bool b) h hdecimal op
  | item i => exact Operand.ordersBefore_isOk (.item i) h hdecimal op

theorem comparisonHolds_ordering_item (hop : op.IsOrder) (hv : v.isList = false) :
    comparisonHolds (some v) op operand = .ok true ↔
      operand ≠ .null ∧ ordersBefore op operand v = .ok true := by
  rw [comparisonHolds_ordering hop, Option.getD_some, Value.candidates_item hv]
  by_cases hoperand : operand = .null
  · simp [hoperand]
  · by_cases hnull : v.isNull = true
    · simp [hnull, ordersBefore]
    · simp only [hnull, beq_eq_false_iff_ne.mpr hoperand, Bool.or_self]
      exact anyOf_singleton_iff.trans (and_iff_right hoperand).symm

theorem comparisonHolds_ordering_list_iff {items : List Value} (hop : op.IsOrder)
    (hflat : ∀ v ∈ items, v.isList = false)
    (hdecimal : ∀ v ∈ items, v.isDecimalNaN = false) :
    comparisonHolds (some (.list items)) op operand = .ok true ↔
      ∃ v ∈ items, comparisonHolds (some v) op operand = .ok true := by
  have hitems : (∃ v ∈ items, comparisonHolds (some v) op operand = .ok true) ↔
      operand ≠ .null ∧ ∃ v ∈ items, ordersBefore op operand v = .ok true := by
    constructor
    · rintro ⟨v, hv, h⟩
      obtain ⟨hoperand, h⟩ := (comparisonHolds_ordering_item hop (hflat v hv)).mp h
      exact ⟨hoperand, v, hv, h⟩
    · rintro ⟨hoperand, v, hv, h⟩
      exact ⟨v, hv, (comparisonHolds_ordering_item hop (hflat v hv)).mpr ⟨hoperand, h⟩⟩
  have hsettled : (∀ v ∈ items, ∃ b, ordersBefore op operand v = .ok b) ∨
      ∀ v ∈ items, ordersBefore op operand v ≠ .ok true := by
    by_cases hnan : operand.isNaN = true
    · exact .inr fun v _ => ordersBefore_isNaN hnan op v
    · refine .inl fun v hv => ?_
      exact ordersBefore_settled (hflat v hv) (hdecimal v hv) (by simpa using hnan) op
  rw [hitems, comparisonHolds_ordering hop]
  by_cases hoperand : operand = .null
  · simp [hoperand]
  · have hguard : ((Value.list items).isNull || operand == .null) = false := by
      simp [Value.isNull, hoperand]
    rw [Option.getD_some, hguard]
    exact (anyOf_eq_true_iff hsettled).trans (and_iff_right hoperand).symm

end Order

theorem patternHolds_list_iff {items : List Value} (hflat : ∀ v ∈ items, v.isList = false)
    {text : String} {p : Pattern} (h : Pattern.ofText? text = .ok p) (ignoreCase : Bool) :
    patternHolds (some (.list items)) text ignoreCase = .ok true ↔
      ∃ v ∈ items, patternHolds (some v) text ignoreCase = .ok true := by
  have hfound (v : Value) : patternHolds (some v) text ignoreCase =
      .ok (v.candidates.any fun c => c.text?.any fun s => p.root.search ignoreCase s.toList) := by
    rw [patternHolds, h]
  rw [hfound, Except.ok.injEq, Value.candidates, List.any_eq_true]
  constructor
  · rintro ⟨v, hv, hmatch⟩
    refine ⟨v, hv, ?_⟩
    rw [hfound, Value.candidates_item (hflat v hv), List.any_cons, hmatch]
    rfl
  · rintro ⟨v, hv, hmatch⟩
    refine ⟨v, hv, ?_⟩
    rw [hfound, Value.candidates_item (hflat v hv), Except.ok.injEq] at hmatch
    simpa using hmatch

namespace Filter

section Field

variable {doc : Value} {field : String} {items : List Value} {f : Filter}
  (hfield : doc.resolve field = some (.list items)) (hflat : ∀ v ∈ items, v.isList = false)

include hfield hflat

theorem Seeks.evaluate_iff (h : f.Seeks field) (hdecimal : ∀ v ∈ items, v.isDecimalNaN = false) :
    f.evaluate doc = .ok true ↔
      ∃ v ∈ items, f.evaluate (doc.replaceAt field v) = .ok true := by
  have hreplaced (v : Value) : (doc.replaceAt field v).resolve field = some v :=
    Value.resolve_replaceAt hfield v
  cases h with
  | equals h | equal h =>
    simp only [evaluate, comparisonHolds, hfield, hreplaced, Option.getD_some, Except.ok.injEq]
    exact equalsOperand_list_iff hflat h
  | ordering hop operand =>
    simp only [evaluate, hfield, hreplaced]
    exact comparisonHolds_ordering_list_iff hop hflat hdecimal
  | among operand =>
    simp only [evaluate, comparisonHolds, hfield, hreplaced, Option.getD_some, Except.ok.injEq]
    exact anyMember_list_iff hflat
  | hasType h =>
    simp only [evaluate, comparisonHolds, hfield, hreplaced, Option.getD_some, Except.ok.injEq,
      Option.isSome_some, Bool.true_and, List.any_eq_true]
    constructor
    · rintro ⟨m, hm, htype⟩
      obtain ⟨v, hv, htype⟩ := (matchesType_list_iff hflat (h m hm)).mp htype
      exact ⟨v, hv, m, hm, htype⟩
    · rintro ⟨v, hv, m, hm, htype⟩
      exact ⟨m, hm, (matchesType_list_iff hflat (h m hm)).mpr ⟨v, hv, htype⟩⟩
  | pattern h ignoreCase =>
    simp only [evaluate, hfield, hreplaced]
    exact patternHolds_list_iff hflat h ignoreCase

theorem Shuns.evaluate_iff (h : f.Shuns field) :
    f.evaluate doc = .ok true ↔
      ∀ v ∈ items, f.evaluate (doc.replaceAt field v) = .ok true := by
  have hreplaced (v : Value) : (doc.replaceAt field v).resolve field = some v :=
    Value.resolve_replaceAt hfield v
  cases h with
  | notEqual h =>
    simp only [evaluate, comparisonHolds, hfield, hreplaced, Option.getD_some, Except.ok.injEq,
      Bool.not_eq_true', ← Bool.not_eq_true]
    rw [equalsOperand_list_iff hflat h]
    push Not
    rfl
  | notAmong operand =>
    simp only [evaluate, comparisonHolds, hfield, hreplaced, Option.getD_some, Except.ok.injEq,
      Bool.not_eq_true', ← Bool.not_eq_true]
    rw [anyMember_list_iff hflat]
    push Not
    rfl

/-- A leaf on a list of plain values is a statement about its items: one of them is found, or each
of them is passed. -/
theorem evaluate_list_field (hdecimal : ∀ v ∈ items, v.isDecimalNaN = false) :
    (f.Seeks field → (f.evaluate doc = .ok true ↔
      ∃ v ∈ items, f.evaluate (doc.replaceAt field v) = .ok true)) ∧
    (f.Shuns field → (f.evaluate doc = .ok true ↔
      ∀ v ∈ items, f.evaluate (doc.replaceAt field v) = .ok true)) :=
  ⟨fun h => h.evaluate_iff hfield hflat hdecimal, fun h => h.evaluate_iff hfield hflat⟩

end Field

/-- Items of five kinds under a path. The text is read as a number beside the number only, and it
differs from each of them. -/
theorem evaluate_list_field_mixed :
    let items : List Value := [.null, .int 7, .text "x", .bool true, .mapping [("b", .null)]]
    let doc : Value := .mapping [("a", .mapping [("k", .list items)])]
    (∃ v ∈ items, (comparison "a.k" .greater (.text "5")).evaluate (doc.replaceAt "a.k" v) =
      .ok true) ∧
    ∀ v ∈ items, (comparison "a.k" .notEqual (.text "5")).evaluate (doc.replaceAt "a.k" v) =
      .ok true := by
  intro items doc
  have hfield : doc.resolve "a.k" = some (.list items) := by rfl
  have hflat : ∀ v ∈ items, v.isList = false := by decide
  have hdecimal : ∀ v ∈ items, v.isDecimalNaN = false := by decide
  have hgreater : (comparison "a.k" .greater (.text "5")).evaluate doc = .ok true := by rfl
  have hdiffers : (comparison "a.k" .notEqual (.text "5")).evaluate doc = .ok true := by rfl
  constructor
  · have hop : Operator.greater.IsOrder := by simp [Operator.IsOrder]
    exact ((evaluate_list_field hfield hflat hdecimal).1 (.ordering hop _)).mp hgreater
  · exact ((evaluate_list_field hfield hflat hdecimal).2 (.notEqual rfl)).mp hdiffers

end Filter

end DocGrid

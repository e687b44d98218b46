import DocGrid.Filter.Evaluate
import DocGrid.Store.Sql.Translate

/-! The cells of typed columns. A text that is read as a value of the column's kind stands to the
cell in the database as it stands to the value in the document. -/

namespace DocGrid

/-! The order of numbers, as quantities on one line. -/

@[simp] theorem Quantity.isEq_order (p q : Quantity) : (p.order q).isEq = decide (p = q) := by
  unfold Quantity.order
  by_cases h : p = q
  · simp [h]
  · simp only [h, if_false]
    split <;> rfl

theorem Quantity.ofBinary64_isSome {x : Binary64} (h : x.isNaN = false) :
    ∃ q, Quantity.ofBinary64 x = some q := by
  unfold Quantity.ofBinary64
  by_cases hi : x.isInfinite = true
  · exact ⟨infinite x.negative, by simp [h, hi]⟩
  · exact ⟨exact x.toRat, by simp [h, hi]⟩

theorem Quantity.ofBinary64_zero {x : Binary64} (h : x.isZero = true) :
    Quantity.ofBinary64 (Binary64.zero false) = Quantity.ofBinary64 x := by
  obtain ⟨negative, exponent, fraction⟩ := x
  simp only [Binary64.isZero, Bool.and_eq_true, beq_iff_eq] at h
  obtain ⟨he, hf⟩ := h
  have hexponent : exponent = 0 := Fin.ext he
  have hfraction : fraction = 0 := Fin.ext hf
  subst hexponent hfraction
  cases negative
  · rfl
  · have hunits : Binary64.signedUnits ⟨true, 0, 0⟩ = 0 := by decide
    have hzero : Binary64.signedUnits (Binary64.zero false) = 0 := by decide
    have hrat : Binary64.toRat (Binary64.zero false) = Binary64.toRat ⟨true, 0, 0⟩ := by
      rw [Binary64.toRat, Binary64.toRat, hunits, hzero]
    simp only [Quantity.ofBinary64, hrat]
    rfl

theorem Number.same_eq {a b : Number} {p q : Quantity} (ha : a.quantity? = some p)
    (hb : b.quantity? = some q) : a.same b = (p.order q).isEq := by
  simp [Number.same, ha, hb]

theorem Standing.ofNumbers_eq {a b : Number} {p q : Quantity} (ha : a.quantity? = some p)
    (hb : b.quantity? = some q) : Standing.ofNumbers a b = .ordered (p.order q) := by
  simp only [Standing.ofNumbers, ha, hb]

theorem Cell.compare?_eq {a b : Cell} {p q : Quantity} (ha : a.quantity? = some p)
    (hb : b.quantity? = some q) : a.compare? b = some (p.order q) := by
  cases a with
  | null => cases ha
  | text s => cases ha
  | _ =>
    cases b with
    | null => cases hb
    | text s => cases hb
    | _ => simp only [Cell.compare?, ha, hb]

def Value.cell : Value → Cell
  | .bool b => .int (if b then 1 else 0)
  | .number (.int n) => .int n
  | .number (.float x) => .real x
  | .text s => .text s
  | _ => .null

namespace ColumnType

inductive Holds : ColumnType → Value → Prop
  | int {n : Int} (h : Cell.fitsWord n = true) : Holds .int (.int n)
  | float {x : Binary64} (h : x.isNaN = false) : Holds .float (.float x)
  | bool (b : Bool) : Holds .bool (.bool b)
  | text (s : String) : Holds .text (.text s)

/-- The values with which a column is compared: its own, and doubles for whole numbers. -/
inductive Faces : ColumnType → Value → Prop
  | own {type : ColumnType} {v : Value} (h : type.Holds v) : Faces type v
  | double {x : Binary64} (h : x.isNaN = false) : Faces .int (.float x)

variable {type : ColumnType} {v w : Value}

theorem Holds.target_eq (h : type.Holds v) : Target.ofValue v = type.target := by
  cases h <;> rfl

theorem Holds.not_null (h : type.Holds v) : v.isNull = false := by
  cases h <;> rfl

theorem Holds.candidates_eq (h : type.Holds v) : v.candidates = [v] := by
  cases h <;> rfl

theorem Faces.cell_ne_null (h : type.Faces w) : w.cell ≠ .null := by
  cases h with
  | own h => cases h <;> simp [Value.cell, Value.int, Value.float]
  | double h => simp [Value.cell, Value.float]

theorem stands_of_quantity {n m : Number} {c d : Cell} {p q : Quantity}
    (hn : n.quantity? = some p) (hm : m.quantity? = some q) (hc : c.quantity? = some p)
    (hd : d.quantity? = some q) :
    ∃ o, c.compare? d = some o ∧ (Value.number n).same (.number m) = o.isEq ∧
      (Value.number n).standing (.number m) = .ordered o := by
  refine ⟨p.order q, Cell.compare?_eq hc hd, ?_, ?_⟩
  · simp only [Value.same]
    exact Number.same_eq hn hm
  · simp only [Value.standing, Value.number?]
    exact Standing.ofNumbers_eq hn hm

theorem cell?_of_convert {a : Argument} (h : a.type.convert a.value = .ok v) :
    a.cell? = Cell.ofValue v := by
  rw [Argument.cell?, h]
  rfl

theorem ofValue_int {n : Int} (h : Cell.fitsWord n = true) :
    Cell.ofValue (.int n) = .ok (.int n) := by
  simp [Value.int, Cell.ofValue, h]

theorem ofValue_float {x : Binary64} (h : x.isNaN = false) :
    Cell.ofValue (.float x) = .ok (.real x) := by
  simp [Value.float, Cell.ofValue, Cell.ofBinary64, h]

theorem toBool_bool (b : Bool) : toBool (.bool b) = .ok (.int (if b then 1 else 0)) := by
  cases b <;> rfl

theorem Holds.convert (h : type.Holds v) :
    ∃ u, type.convert v = .ok u ∧ Cell.ofValue u = .ok v.cell := by
  cases h with
  | int hn => exact ⟨_, rfl, ofValue_int hn⟩
  | float hx => exact ⟨_, rfl, ofValue_float hx⟩
  | bool b => exact ⟨_, toBool_bool b, by cases b <;> rfl⟩
  | text s => exact ⟨_, rfl, rfl⟩

theorem Holds.argumentType_eq (h : type.Holds v) : type.argumentType v = type := by
  cases h <;> rfl

theorem Faces.argumentType_holds (h : type.Faces w) : (type.argumentType w).Holds w := by
  cases h with
  | own h => exact h.argumentType_eq.symm ▸ h
  | double h => exact .float h

theorem Faces.cell? (h : type.Faces w) :
    (⟨w, type.argumentType w⟩ : Argument).cell? = .ok w.cell := by
  obtain ⟨u, hu, hcell⟩ := h.argumentType_holds.convert
  rw [cell?_of_convert hu, hcell]

/-- Texts that a column is compared with as values of one kind: its own, or doubles. -/
def Reads (type : ColumnType) (texts : List String) : Prop :=
  (∀ s ∈ texts, type.Holds (castText type.target s)) ∨
    type = .int ∧ ∀ s ∈ texts, ∃ x : Binary64, x.isNaN = false ∧ castText .int s = .float x

variable {texts : List String}

theorem Reads.faces (h : type.Reads texts) {s : String} (hs : s ∈ texts) :
    type.Faces (castText type.target s) := by
  rcases h with h | ⟨rfl, h⟩
  · exact .own (h s hs)
  · obtain ⟨x, hx, he⟩ := h s hs
    exact he.symm ▸ .double hx

theorem Reads.argumentType_eq (h : type.Reads texts) {s t : String} (hs : s ∈ texts)
    (ht : t ∈ texts) :
    type.argumentType (castText type.target s) = type.argumentType (castText type.target t) := by
  rcases h with h | ⟨rfl, h⟩
  · rw [(h s hs).argumentType_eq, (h t ht).argumentType_eq]
  · obtain ⟨x, -, hx⟩ := h s hs
    obtain ⟨y, -, hy⟩ := h t ht
    simp only [target, hx, hy]
    rfl

variable [Conversions]

def kept (type : ColumnType) (v : Value) : Cell :=
  Cell.stored type.affinity v.cell

@[simp] theorem kept_null (type : ColumnType) : type.kept .null = .null := by
  cases type <;> rfl

theorem Holds.kept_ne_null (h : type.Holds v) : type.kept v ≠ .null := by
  cases h with
  | float hx =>
    simp only [kept, affinity, Value.cell, Value.float, Cell.stored, Cell.under]
    split <;> simp
  | _ => simp [kept, affinity, Value.cell, Value.int, Cell.stored, Cell.under]

theorem quantity?_float (x : Binary64) :
    (ColumnType.float.kept (.float x)).quantity? = Quantity.ofBinary64 x := by
  simp only [kept, affinity, Value.cell, Value.float, Cell.stored, Cell.under]
  by_cases h : x.isZero = true
  · simp only [h, if_true, Cell.quantity?]
    exact Quantity.ofBinary64_zero h
  · simp only [h, Cell.quantity?]
    rfl

/-- The cell of a value stands to the cell of another as the values stand to each other. -/
theorem Holds.compare? (hv : type.Holds v) (hw : type.Faces w) :
    ∃ o, (type.kept v).compare? w.cell = some o ∧ v.same w = o.isEq ∧
      v.standing w = .ordered o := by
  cases hv with
  | @int n hn =>
    cases hw with
    | own hw =>
      cases hw
      exact stands_of_quantity rfl rfl rfl rfl
    | @double x hx =>
      obtain ⟨q, hq⟩ := Quantity.ofBinary64_isSome hx
      exact stands_of_quantity rfl hq rfl hq
  | @float x hx =>
    obtain ⟨h⟩ := hw
    cases h with
    | @float y hy =>
      obtain ⟨p, hp⟩ := Quantity.ofBinary64_isSome hx
      obtain ⟨q, hq⟩ := Quantity.ofBinary64_isSome hy
      exact stands_of_quantity hp hq ((quantity?_float x).trans hp) hq
  | bool b =>
    obtain ⟨h⟩ := hw
    cases h with
    | bool b' =>
      cases b <;> cases b' <;> exact ⟨_, rfl, by decide, rfl⟩
  | text s =>
    obtain ⟨h⟩ := hw
    cases h with
    | text t =>
      refine ⟨compare s t, rfl, ?_, ?_⟩
      · rw [Value.same, Bool.eq_iff_iff, beq_iff_eq, Ordering.isEq_iff_eq_eq,
          Std.LawfulEqCmp.compare_eq_iff_eq]
      · simp only [Value.standing]

theorem Faces.under_cell (h : type.Faces w) : w.cell.under type.affinity = w.cell := by
  cases h with
  | own h => cases h <;> rfl
  | double h => rfl

end ColumnType

end DocGrid

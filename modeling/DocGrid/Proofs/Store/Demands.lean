import DocGrid.Proofs.Filter.OrderOperators
import DocGrid.Proofs.Store.Handed
import DocGrid.Proofs.Store.Leaves

/-! What the conditions of a text demand of a database: which values have to be handed over for
them, and which can be. -/

namespace DocGrid

namespace ColumnType

variable {type : ColumnType} {s x : String} {first v : Value}

/-- Whether a value can be handed over in the type of the first one. -/
def Joins : Value → Value → Prop
  | .number (.float _), .number (.int n) => (Binary64.ofInt? n).isSome = true
  | _, .number (.int n) => Cell.fitsWord n = true
  | .number (.float _), .text _ => False
  | .bool _, .text _ => False
  | .datetime _, .text _ => False
  | _, _ => True

theorem ofValue_int_isOk (n : Int) :
    (∃ cell, Cell.ofValue (.int n) = .ok cell) ↔ Cell.fitsWord n = true := by
  simp only [Value.int, Cell.ofValue]
  split <;> simp_all

theorem toFloat_int_isOk (n : Int) :
    (∃ cell, (⟨.int n, .float⟩ : Argument).cell? = .ok cell) ↔
      (Binary64.ofInt? n).isSome = true := by
  have hconvert : convert .float (.int n) =
      (Binary64.ofInt? n).elim (.error .storeConversion) (.ok ∘ .float) := rfl
  rw [Argument.cell?, hconvert]
  cases Binary64.ofInt? n with
  | none => exact iff_of_false (by rintro ⟨_, h⟩; cases h) (by simp)
  | some y => exact iff_of_true ⟨_, rfl⟩ rfl

theorem not_toFloat_text (h : Reading.float? x = none) :
    ¬∃ cell, (⟨.text x, .float⟩ : Argument).cell? = .ok cell := by
  have hconvert : convert .float (.text x) = .error .storeConversion := by
    simp only [convert, toFloat, h]
    rfl
  rw [Argument.cell?, hconvert]
  rintro ⟨_, hcell⟩
  cases hcell

/-- The first of several texts says in which type all of them are handed over. -/
theorem cell?_isOk_iff (hs : ReadAs s type.target first) (hx : ReadAs x type.target v) :
    (∃ cell, (⟨v, type.argumentType first⟩ : Argument).cell? = .ok cell) ↔ Joins first v := by
  generalize htarget : type.target = target at hs hx
  -- Except for texts, a target belongs to columns of one type.
  cases hs with
  | text h =>
    cases hx with
    | text => cases type <;> exact iff_of_true ⟨_, rfl⟩ trivial
    | int m =>
      obtain rfl : type = .int := by cases type <;> first | rfl | cases htarget
      exact ofValue_int_isOk m
    | _ => cases type <;> first | exact iff_of_true ⟨_, rfl⟩ trivial | cases htarget
  | bool b =>
    obtain rfl : type = .bool := by cases type <;> first | rfl | cases htarget
    cases hx with
    | text => simpa [Joins] using fun cell (h : _ = _) => by cases h
    | bool b' => exact iff_of_true (by cases b' <;> exact ⟨_, rfl⟩) trivial
  | datetime t =>
    obtain rfl : type = .datetime := by cases type <;> first | rfl | cases htarget
    cases hx with
    | text => simpa [Joins] using fun cell (h : _ = _) => by cases h
    | datetime u => exact iff_of_true ⟨_, rfl⟩ trivial
  | int n =>
    obtain rfl : type = .int := by cases type <;> first | rfl | cases htarget
    cases hx with
    | int m => exact ofValue_int_isOk m
    | _ => exact iff_of_true ⟨_, rfl⟩ trivial
  | double y =>
    obtain rfl : type = .int := by cases type <;> first | rfl | cases htarget
    cases hx with
    | text h => exact iff_of_false (not_toFloat_text (h (.inl rfl))) id
    | int m => exact toFloat_int_isOk m
    | double z => exact iff_of_true ⟨_, rfl⟩ trivial
  | float y =>
    obtain rfl : type = .float := by cases type <;> first | rfl | cases htarget
    cases hx with
    | text h => exact iff_of_false (not_toFloat_text (h (.inr rfl))) id
    | float z => exact iff_of_true ⟨_, rfl⟩ trivial

/-- Whether texts can be handed over as what they are read as. -/
def Joined (type : ColumnType) (texts : List String) : Prop :=
  ∀ first ∈ texts.head?, ∀ x ∈ texts,
    Joins (castText type.target first) (castText type.target x)

end ColumnType

/-! The conditions for texts. -/

/-- Whether what a condition compares a column with can be handed over. A list as it is can be for
columns that keep lists as texts only. -/
def Column.Takes (c : Column) (op : Operator) (operand : Operand) : Prop :=
  match op with
  | .present => True
  | .among => c.type.Joined operand.texts
  | .notAmong => c.type.Joined operand.texts
  | _ =>
    match operand with
    | .list _ => c.type = .jsonList ∨ c.type = .jsonMapping
    | _ => c.type.Joined operand.texts

namespace Filter

/-- Whether a truth value is ordered. -/
def OrdersTruths (t : Table) : Filter → Prop
  | comparison field op (.item (.text s)) =>
    op.IsOrder ∧ ∃ c, t.column? field = some c ∧ c.type = .bool ∧ (truthOf? s).isSome = true
  | _ => False

/-- What is known of a condition without a look at a row. -/
def settled? (t : Table) : Filter → Option Bool
  | equals field _ => if (t.column? field).isSome then none else some false
  | pattern field _ _ =>
    if (t.column? field).any (fun c => c.type == .text) then none else some false
  | comparison field op operand =>
    if (t.column? field).isSome then none
    else some (match op with
      | .present => !asksYes operand.value
      | .notEqual => true
      | .notAmong => true
      | _ => false)
  | _ => none

def Demands (t : Table) : Filter → Prop
  | equals field operand => ∀ c, t.column? field = some c → c.Takes .equal operand
  | comparison field op operand => ∀ c, t.column? field = some c → c.Takes op operand
  | _ => True

end Filter

section Leaves

variable {t : Table} {c : Column} {s : String}

theorem castText_eq_bool {target : Target} {b : Bool} (h : castText target s = .bool b) :
    target = .bool ∧ truthOf? s = some b := by
  have hread := readAs_castText target s
  rw [h] at hread
  cases hread
  cases htruth : truthOf? s with
  | none =>
    simp only [castText, htruth] at h
    cases h
  | some b' =>
    simp only [castText, htruth] at h
    cases h
    exact ⟨rfl, rfl⟩

theorem comparing_eq_of_text (c : Column) (op : SqlOperator) (s : String)
    (h : op = .equal ∨ op = .notEqual ∨ ∀ b, castText c.type.target s ≠ .bool b) :
    ∃ a, Condition.comparing c op (castText c.type.target s) = .ok (.compares c op a) ∧
      ((∃ cell, a.cell? = .ok cell) ↔ c.type.Joined [s]) := by
  have hread := readAs_castText c.type.target s
  by_cases hbit : ∃ b, castText c.type.target s = .bool b
  · obtain ⟨b, hb⟩ := hbit
    refine ⟨Condition.bit b, ?_, iff_of_true ⟨.int (if b then 1 else 0), by cases b <;> rfl⟩ ?_⟩
    · rw [hb]
      rcases h with rfl | rfl | h
      · rfl
      · rfl
      · exact absurd hb (h b)
    · simp [ColumnType.Joined, hb, ColumnType.Joins]
  · push Not at hbit
    refine ⟨_, Condition.comparing_of_readAs hread hbit c op, ?_⟩
    simpa [ColumnType.Joined] using ColumnType.cell?_isOk_iff hread hread

theorem toJson_texts (texts : List String) :
    ∃ text, ColumnType.toJson (.list (texts.map .text)) = .ok (.text text) := by
  have hitems : Json.printItems false (texts.map .text) = .ok (texts.map Json.quote) := by
    induction texts with
    | nil => rfl
    | cons s texts ih =>
      rw [List.map_cons, Json.printItems, ih]
      rfl
  refine ⟨String.ofList ('[' :: Json.listed (texts.map Json.quote) ++ [']']), ?_⟩
  rw [ColumnType.toJson, Json.print, hitems]
  rfl

theorem comparing_eq_of_texts (c : Column) (op : SqlOperator) (texts : List String) :
    ∃ a, Condition.comparing c op (.list (texts.map .text)) = .ok (.compares c op a) ∧
      ((∃ cell, a.cell? = .ok cell) ↔ c.type = .jsonList ∨ c.type = .jsonMapping) := by
  refine ⟨_, rfl, ?_⟩
  obtain ⟨text, htext⟩ := toJson_texts texts
  have hjson (type : ColumnType) (h : type = .jsonList ∨ type = .jsonMapping) :
      ∃ cell, (⟨.list (texts.map .text), type⟩ : Argument).cell? = .ok cell := by
    have hcell : (ColumnType.toJson (.list (texts.map .text))).bind Cell.ofValue =
        .ok (.text text) := by
      rw [htext]
      rfl
    rcases h with rfl | rfl <;> exact ⟨_, hcell⟩
  cases c.type with
  | jsonList => exact iff_of_true (hjson _ (.inl rfl)) (.inl rfl)
  | jsonMapping => exact iff_of_true (hjson _ (.inr rfl)) (.inr rfl)
  | _ => exact iff_of_false (by rintro ⟨_, h⟩; cases h) (by simp)

theorem handed_amongValues (c : Column) (negated : Bool) (texts : List String) :
    (Condition.amongValues c negated (texts.map (castText c.type.target))).Handed ↔
      c.type.Joined texts := by
  cases texts with
  | nil => simp [Condition.amongValues, Condition.Handed, Condition.arguments, ColumnType.Joined]
  | cons first more =>
    have hcond : Condition.amongValues c negated ((first :: more).map (castText c.type.target)) =
        .among c negated ((first :: more).map fun x => ⟨castText c.type.target x,
          c.type.argumentType (castText c.type.target first)⟩) := by
      rw [Condition.amongValues, List.map_map]
      rfl
    rw [hcond, Condition.Handed, Condition.arguments, List.forall_mem_map, ColumnType.Joined]
    simp only [List.head?_cons, Option.mem_some_iff, forall_eq']
    exact forall₂_congr fun x _ =>
      ColumnType.cell?_isOk_iff (readAs_castText _ first) (readAs_castText _ x)

end Leaves

namespace Filter

variable {t : Table} {c : Column} {field : String} {operand : Operand}

theorem OrdersTruths.refused {f : Filter} (h : f.OrdersTruths t) :
    Condition.ofFilter t f = .error .storeArgument := by
  match f, h with
  | comparison field op (.item (.text s)), h =>
    obtain ⟨hop, c, hcol, htype, hs⟩ := h
    obtain ⟨b, hb⟩ := Option.isSome_iff_exists.mp hs
    have hcast : castText c.type.target s = .bool b := by
      rw [htype]
      simp only [ColumnType.target, castText, hb]
      rfl
    have hvalue : cast c.type.target (Operand.item (.text s)).value = .bool b := hcast
    rw [Condition.ofFilter, hcol]
    simp only [Operator.IsOrder, List.mem_cons, List.not_mem_nil, or_false] at hop
    rcases hop with rfl | rfl | rfl | rfl <;>
      simp only [Condition.ofComparison, hvalue] <;> rfl

theorem comparing_textual (h : operand.IsTextual) {op : Operator} {sop : SqlOperator}
    (hop : op.sql? = some sop) (hcol : t.column? field = some c)
    (ho : ¬(comparison field op operand).OrdersTruths t) :
    ∃ a, Condition.comparing c sop (cast c.type.target operand.value) =
        .ok (.compares c sop a) ∧
      ((∃ cell, a.cell? = .ok cell) ↔ c.Takes op operand) := by
  cases h with
  | one s =>
    have hbool : sop = .equal ∨ sop = .notEqual ∨ ∀ b, castText c.type.target s ≠ .bool b := by
      by_contra hnot
      push Not at hnot
      obtain ⟨hne, hne', b, hb⟩ := hnot
      obtain ⟨htarget, htruth⟩ := castText_eq_bool hb
      refine ho ⟨?_, c, hcol, ?_, by simp [htruth]⟩
      · cases op <;> cases hop <;> simp_all [Operator.IsOrder]
      · cases hc : c.type <;> simp_all [ColumnType.target]
    obtain ⟨a, ha, hcell⟩ := comparing_eq_of_text c sop s hbool
    refine ⟨a, ha, hcell.trans ?_⟩
    cases op <;> cases hop <;> rfl
  | many texts =>
    have hvalue : (Operand.list (texts.map .text)).value = .list (texts.map .text) := by
      simp [Operand.value, Item.value]
    obtain ⟨a, ha, hcell⟩ := comparing_eq_of_texts c sop texts
    refine ⟨a, by rw [hvalue]; exact ha, hcell.trans ?_⟩
    cases op <;> cases hop <;> rfl

variable [Conversions]

/-- The condition of a filter that has been read from a text, on the rows of a table. -/
structure Poses (t : Table) (f : Filter) (c : Condition) : Prop where
  condition : Condition.ofFilter t f = .ok c
  settled : ∀ b, c = .constant b ↔ f.settled? t = some b
  handed : c.Handed ↔ f.Demands t
  answers : ∀ r, c.Answers r

theorem poses_constant {f : Filter} {b : Bool} (hc : Condition.ofFilter t f = .ok (.constant b))
    (hs : f.settled? t = some b) (hd : f.Demands t) : f.Poses t (.constant b) := by
  refine ⟨hc, fun b' => ?_, iff_of_true (Condition.handed_constant b) hd, fun r => ⟨some b, rfl⟩⟩
  rw [hs, Condition.constant.injEq, Option.some.injEq]

theorem poses_compares {f : Filter} {c : Column} {op : SqlOperator} {a : Argument}
    (hc : Condition.ofFilter t f = .ok (.compares c op a)) (hs : f.settled? t = none)
    (hd : (∃ cell, a.cell? = .ok cell) ↔ f.Demands t) : f.Poses t (.compares c op a) := by
  refine ⟨hc, fun b => by simp [hs], ?_, fun r => ⟨_, rfl⟩⟩
  rw [← hd, Condition.Handed, Condition.arguments, List.forall_mem_singleton]

theorem poses_missing {field : String} {op : Operator} {operand : Operand}
    (hcol : t.column? field = none) (htype : op ≠ .hasType) :
    ∃ c, (comparison field op operand).Poses t c := by
  have hd : (comparison field op operand).Demands t := fun c hc => by simp [hcol] at hc
  obtain ⟨b, hb, hs⟩ : ∃ b, Condition.ofMissing op operand = .ok (.constant b) ∧
      (comparison field op operand).settled? t = some b := by
    simp only [settled?, hcol]
    cases op with
    | hasType => exact absurd rfl htype
    | _ => exact ⟨_, rfl, rfl⟩
  exact ⟨.constant b, poses_constant (by rw [Condition.ofFilter, hcol]; exact hb) hs hd⟩

theorem poses_among (h : operand.IsTextual) (hcol : t.column? field = some c) {op : Operator}
    {negated : Bool} (hop : op = .among ∧ negated = false ∨ op = .notAmong ∧ negated = true) :
    ∃ c, (comparison field op operand).Poses t c := by
  have hmembers : operand.members.map (fun m => cast c.type.target m.value) =
      operand.texts.map (castText c.type.target) := by
    cases h with
    | one s => rfl
    | many texts =>
      rw [texts_list, Operand.members, List.map_map, List.map_map]
      rfl
  have hcond : Condition.ofFilter t (comparison field op operand) =
      .ok (Condition.amongValues c negated (operand.texts.map (castText c.type.target))) := by
    rw [Condition.ofFilter, hcol, ← hmembers]
    rcases hop with ⟨rfl, rfl⟩ | ⟨rfl, rfl⟩ <;> rfl
  refine ⟨_, hcond, fun b => ?_, (handed_amongValues c negated _).trans ?_, fun r => ⟨_, rfl⟩⟩
  · simp [settled?, hcol, Condition.amongValues]
  · rcases hop with ⟨rfl, rfl⟩ | ⟨rfl, rfl⟩ <;> simp [Demands, hcol, Column.Takes]

theorem poses_comparison (h : operand.IsTextual) {op : Operator} (htype : op ≠ .hasType)
    (ho : ¬(comparison field op operand).OrdersTruths t) :
    ∃ c, (comparison field op operand).Poses t c := by
  cases hcol : t.column? field with
  | none => exact poses_missing hcol htype
  | some c =>
    have hsettled : (comparison field op operand).settled? t = none := by simp [settled?, hcol]
    cases hop : op.sql? with
    | some sop =>
      obtain ⟨a, ha, hcell⟩ := comparing_textual h hop hcol ho
      refine ⟨.compares c sop a, poses_compares ?_ hsettled (hcell.trans (by simp [Demands, hcol]))⟩
      rw [Condition.ofFilter, hcol]
      exact (ofComparison_sql hop c operand).trans ha
    | none =>
      cases op with
      | among => exact poses_among h hcol (.inl ⟨rfl, rfl⟩)
      | notAmong => exact poses_among h hcol (.inr ⟨rfl, rfl⟩)
      | present =>
        refine ⟨.isNull c (asksYes operand.value), ?_, fun b => by simp [hsettled], ?_,
          fun r => ⟨_, rfl⟩⟩
        · rw [Condition.ofFilter, hcol]
          rfl
        · simp [Condition.Handed, Condition.arguments, Demands, Column.Takes]
      | hasType => exact absurd rfl htype
      | _ => cases hop

theorem poses_pattern {field text : String} {ignoreCase : Bool} {p : Pattern}
    (hp : Pattern.ofText? text = .ok p) : ∃ c, (pattern field text ignoreCase).Poses t c := by
  cases hcol : t.column? field with
  | none =>
    exact ⟨.constant false,
      poses_constant (by rw [Condition.ofFilter, hcol]) (by simp [settled?, hcol]) trivial⟩
  | some c =>
    by_cases htext : c.type = .text
    · refine ⟨.matching c text, ?_, fun b => ?_, ?_, fun r => ?_⟩
      · simp [Condition.ofFilter, hcol, Condition.ofPattern, htext]
      · simp [settled?, hcol, htext]
      · simp [Condition.Handed, Condition.arguments, Demands]
      · simp only [Condition.Answers, Condition.holds, Condition.patternHolds, hp]
        split <;> exact ⟨_, rfl⟩
    · refine ⟨.constant false, poses_constant ?_ ?_ trivial⟩
      · simp [Condition.ofFilter, hcol, Condition.ofPattern, htext]
      · simp [settled?, hcol, htext]

/-- Apart from orders of truth values, every condition of a text but that on the type of a value can
be posed, and can be decided for each row. -/
theorem IsLeaf.poses {f : Filter} (h : f.IsLeaf) (t : Table)
    (htype : ∀ field operand, f ≠ .comparison field .hasType operand) (ho : ¬f.OrdersTruths t) :
    ∃ c, f.Poses t c := by
  cases h with
  | @equals field value =>
    cases hcol : t.column? field with
    | none =>
      refine ⟨.constant false, poses_constant ?_ (by simp [settled?, hcol]) fun c hc => ?_⟩
      · rw [Condition.ofFilter, hcol]
      · simp [hcol] at hc
    | some c =>
      obtain ⟨a, ha, hcell⟩ := comparing_eq_of_text c .equal value (.inl rfl)
      refine ⟨.compares c .equal a, poses_compares ?_ (by simp [settled?, hcol]) (hcell.trans ?_)⟩
      · rw [Condition.ofFilter, hcol]
        exact ha
      · simp only [Demands, hcol, Option.some.injEq, forall_eq']
        rfl
  | pattern _ _ hp => exact poses_pattern hp
  | @comparison field value op =>
    exact poses_comparison (.one value) (fun hop => htype field _ (by rw [hop])) ho
  | @comparisonOfMany field op values =>
    exact poses_comparison (.many values) (fun hop => htype field _ (by rw [hop])) ho

end Filter

end DocGrid

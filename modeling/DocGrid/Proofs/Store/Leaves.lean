import DocGrid.Proofs.Store.Connectives
import DocGrid.Proofs.Store.Fragment

/-! Comparisons of one field. What a row answers is what its cells answer in the database. -/

namespace DocGrid

/-! The operators that both sides have. -/

def Operator.sql? : Operator → Option SqlOperator
  | .less => some .less
  | .lessEqual => some .lessEqual
  | .greater => some .greater
  | .greaterEqual => some .greaterEqual
  | .equal => some .equal
  | .notEqual => some .notEqual
  | _ => none

theorem ofComparison_sql {op : Operator} {sop : SqlOperator} (h : op.sql? = some sop) (c : Column)
    (operand : Operand) : Condition.ofComparison c op operand =
      Condition.comparing c sop (cast c.type.target operand.value) := by
  cases op <;> cases h <;> rfl

variable {v : Value} {type : ColumnType} {text : String}

theorem equalsOperand_text (hv : type.Holds v) (text : String) :
    equalsOperand v (.text text) = v.same (castText type.target text) := by
  cases hv <;> rfl

theorem anyOf_singleton {α : Type} {test : α → Result Bool} {x : α} {b : Bool}
    (h : test x = .ok b) : anyOf test [x] = .ok b := by
  rw [anyOf, h]
  cases b <;> rfl

theorem comparisonHolds_sql {op : Operator} {sop : SqlOperator} (h : op.sql? = some sop)
    (hv : type.Holds v) {o : Ordering} (hsame : v.same (castText type.target text) = o.isEq)
    (hstanding : v.standing (castText type.target text) = .ordered o) :
    comparisonHolds (some v) op (.text text) = .ok (sop.accepts o) := by
  have hcast : cast (.ofValue v) (Operand.text text).value = castText type.target text := by
    rw [hv.target_eq]
    rfl
  have hnull : (Operand.text text == Operand.null) = false := rfl
  have horder : ordersBefore op (.text text) v = op.accepts (.ordered o) := by
    simp only [ordersBefore, hv.not_null, hcast, hstanding, Bool.false_eq_true, if_false]
  have hequal : equalsOperand v (.text text) = o.isEq := (equalsOperand_text hv text).trans hsame
  cases op with
  | equal =>
    cases h
    exact congrArg Except.ok hequal
  | notEqual =>
    cases h
    simp only [comparisonHolds, Option.getD_some, hequal, SqlOperator.accepts]
    cases o <;> rfl
  | hasType => cases h
  | present => cases h
  | among => cases h
  | notAmong => cases h
  | _ =>
    cases h
    simp only [comparisonHolds, Option.getD_some, hv.not_null, hnull, hv.candidates_eq]
    exact anyOf_singleton horder

theorem comparisonHolds_null {op : Operator} {sop : SqlOperator} (h : op.sql? = some sop)
    (hne : op ≠ .notEqual) (text : String) :
    comparisonHolds (some .null) op (.text text) = .ok false := by
  cases op with
  | hasType => cases h
  | present => cases h
  | among => cases h
  | notAmong => cases h
  | notEqual => exact absurd rfl hne
  | _ => rfl

theorem comparing_eq {c : Column} {w : Value} {sop : SqlOperator} (hw : c.type.Faces w)
    (hbool : c.type = .bool → sop = .equal ∨ sop = .notEqual) :
    ∃ a, Condition.comparing c sop w = .ok (.compares c sop a) ∧ a.cell? = .ok w.cell := by
  have hcell := hw.cell?
  obtain ⟨name, kind, isKey, nullable, default⟩ := c
  simp only at hw hbool hcell
  cases hw with
  | double hx => exact ⟨_, rfl, hcell⟩
  | own hw =>
    cases hw with
    | bool b =>
      refine ⟨Condition.bit b, ?_, by cases b <;> rfl⟩
      rcases hbool rfl with rfl | rfl <;> rfl
    | _ => exact ⟨_, rfl, hcell⟩

theorem Argument.cell_eq {a : Argument} {c : Cell} (h : a.cell? = .ok c) : a.cell = c := by
  simp only [Argument.cell, h]

theorem amongCells_eq {cell : Cell} {others : List Cell} (hc : cell ≠ .null)
    (ho : .null ∉ others) : Condition.amongCells cell others =
      some (others.any fun o => cell.compare? o == some .eq) := by
  have hcell : (cell == .null) = false := by simpa using hc
  have hothers : others.contains .null = false := by simpa using ho
  unfold Condition.amongCells
  by_cases hempty : others.isEmpty = true
  · rw [List.isEmpty_iff.mp hempty]
    rfl
  · simp only [hempty, hcell, hothers]
    cases others.any fun o => cell.compare? o == some .eq <;> rfl

theorem amongCells_null (others : List Cell) : Condition.amongCells .null others ≠ some true := by
  have hany : (others.any fun o => Cell.null.compare? o == some .eq) = false := by
    simp [Cell.compare?]
  unfold Condition.amongCells
  by_cases hempty : others.isEmpty = true
  · simp [hempty]
  · simp [hempty, hany]

theorem equalsOperand_null {operand : Operand} (h : operand ≠ .null) :
    equalsOperand .null operand = false := by
  cases operand with
  | null => exact absurd rfl h
  | item i => cases i <;> rfl
  | _ => rfl

theorem any_equalsOperand_null {operand : Operand} (h : operand ≠ .null) :
    operand.members.any (equalsOperand .null) = false := by
  have hm : ∀ m ∈ operand.members, m ≠ .null := by
    cases operand with
    | null => exact absurd rfl h
    | list items => simp [Operand.members]
    | _ => simp [Operand.members]
  exact List.any_eq_false.mpr fun m hmem => by simp [equalsOperand_null (hm m hmem)]

theorem ofMissing_eq {op : Operator} {operand : Operand} (h : operand ≠ .null) (hop : op ≠ .hasType) :
    ∃ b, Condition.ofMissing op operand = .ok (.constant b) ∧
      comparisonHolds none op operand = .ok b := by
  have hequal := equalsOperand_null h
  have hamong := any_equalsOperand_null h
  cases op with
  | hasType => exact absurd rfl hop
  | present => exact ⟨!asksYes operand.value, rfl, by simp [comparisonHolds]⟩
  | equal => exact ⟨false, rfl, by simp [comparisonHolds, hequal]⟩
  | notEqual => exact ⟨true, rfl, by simp [comparisonHolds, hequal]⟩
  | among => exact ⟨false, rfl, by simp [comparisonHolds, hamong]⟩
  | notAmong => exact ⟨true, rfl, by simp [comparisonHolds, hamong]⟩
  | _ => exact ⟨false, rfl, rfl⟩

variable [Conversions]

theorem comparesCell_eq {a : Argument} {w : Value} (hw : type.Faces w) (ha : a.cell? = .ok w.cell)
    (cell : Cell) (sop : SqlOperator) :
    Condition.comparesCell cell sop type.affinity a = (cell.compare? w.cell).map sop.accepts := by
  rw [Condition.comparesCell, Argument.cell_eq ha, hw.under_cell]

/-- The type of the first text goes for all, since they are of one kind. -/
theorem amongValues_eq {c : Column} {texts : List String} (h : c.type.Reads texts)
    (negated : Bool) : ∃ arguments,
      Condition.amongValues c negated (texts.map (castText c.type.target)) =
        .among c negated arguments ∧
      (∀ a ∈ arguments, ∃ cell, a.cell? = .ok cell) ∧
      arguments.map (fun a => a.cell.under c.type.affinity) =
        texts.map fun s => (castText c.type.target s).cell := by
  let kind := c.type.argumentType ((texts.map (castText c.type.target)).head?.getD .null)
  have hkind : ∀ s ∈ texts, kind = c.type.argumentType (castText c.type.target s) := by
    intro s hs
    cases texts with
    | nil => cases hs
    | cons first more => exact h.argumentType_eq (by simp) hs
  have hcell : ∀ s ∈ texts, (⟨castText c.type.target s, kind⟩ : Argument).cell? =
      .ok (castText c.type.target s).cell := fun s hs => hkind s hs ▸ (h.faces hs).cell?
  refine ⟨(texts.map (castText c.type.target)).map fun v => ⟨v, kind⟩, rfl, ?_, ?_⟩
  · intro a ha
    obtain ⟨v, hv, rfl⟩ := List.mem_map.mp ha
    obtain ⟨s, hs, rfl⟩ := List.mem_map.mp hv
    exact ⟨_, hcell s hs⟩
  · rw [List.map_map, List.map_map]
    refine List.map_congr_left fun s hs => ?_
    simp only [Function.comp_apply, Argument.cell_eq (hcell s hs), (h.faces hs).under_cell]

/-- The condition is true of a kept row exactly when the filter holds of the document. -/
structure Agrees (doc : Value) (r : SqlRow) (f : Filter) (c : Condition) : Prop where
  answers : c.Answers r
  decides : ∃ b, f.evaluate doc = .ok b
  iff : c.IsTrue r ↔ f.evaluate doc = .ok true

theorem Agrees.of_known {doc : Value} {r : SqlRow} {f : Filter} {c : Condition}
    {known : Option Bool} {b : Bool} (hc : c.holds r = .ok known) (hf : f.evaluate doc = .ok b)
    (h : known = some true ↔ b = true) : Agrees doc r f c := by
  refine ⟨⟨known, hc⟩, ⟨b, hf⟩, ?_⟩
  rw [Condition.isTrue_iff hc, hf, Except.ok.injEq, h]

/-- The condition can be handed over, and agrees with the filter on all rows. -/
structure Faithful (t : Table) (rows : List Document) (f : Filter) (c : Condition) : Prop where
  arguments : ∀ a ∈ c.arguments, ∃ cell, a.cell? = .ok cell
  agrees : ∀ row ∈ rows, ∀ r, t.KeptAs row r → Agrees (.mapping row) r f c

section Leaves

variable {t : Table} {rows : List Document} {field : String} {op : Operator} {c : Column}

theorem faithful_constant {f : Filter} {b : Bool}
    (h : ∀ row ∈ rows, f.evaluate (.mapping row) = .ok b) : Faithful t rows f (.constant b) := by
  refine ⟨by simp [Condition.arguments], fun row hrow r _ => ?_⟩
  exact .of_known rfl (h row hrow) (by simp)

variable (hrows : ∀ row ∈ rows, t.Admits row) (hdots : ∀ c ∈ t.columns, '.' ∉ c.name.toList)

include hrows in
theorem faithful_of_no_column {operand : Operand} (h : operand ≠ .null) (hop : op ≠ .hasType)
    (hcol : t.column? field = none) : ∃ cond,
      Condition.ofFilter t (.comparison field op operand) = .ok cond ∧
        Faithful t rows (.comparison field op operand) cond := by
  obtain ⟨b, hb, he⟩ := ofMissing_eq h hop
  refine ⟨.constant b, by rw [Condition.ofFilter, hcol]; exact hb, ?_⟩
  refine faithful_constant fun row hrow => ?_
  rw [Filter.evaluate, resolve_of_no_column (hrows row hrow) hcol, he]

include hdots in
theorem column_cases {row : Document} (hrow : t.Admits row) (hcol : t.column? field = some c) :
    ∃ v, row.get? c.name = some v ∧ (Value.mapping row).resolve field = some v ∧
      (∀ r, t.KeptAs row r → r.cell c.name = c.type.kept v) ∧ (c.type.Holds v ∨ v = .null) := by
  obtain ⟨hmem, hname⟩ := Table.column?_some hcol
  obtain ⟨v, hv, hkind⟩ := hrow.values c hmem
  refine ⟨v, hv, ?_, fun r hr => hr c hmem v hv, ?_⟩
  · rw [← hname, Document.resolve_of_notMem (hdots c hmem), hv]
  · rcases hkind with hkind | ⟨-, -, hnull⟩
    · exact .inl hkind
    · exact .inr hnull

include hrows hdots in
theorem faithful_sql {sop : SqlOperator} {text : String} (hop : op.sql? = some sop)
    (hcol : t.column? field = some c) (hs : Suits rows c op [text]) : ∃ cond,
      Condition.ofFilter t (.comparison field op (.text text)) = .ok cond ∧
        Faithful t rows (.comparison field op (.text text)) cond := by
  have hpresent : op ≠ .present := by
    rintro rfl
    cases hop
  have hfaces := (hs.reads hpresent).faces (List.mem_singleton_self text)
  have hbool : c.type = .bool → sop = .equal ∨ sop = .notEqual := by
    intro hc
    have hin := hs.ordered hc
    cases op <;> simp at hin <;> cases hop <;> simp
  obtain ⟨a, hcond, ha⟩ := comparing_eq hfaces hbool
  refine ⟨.compares c sop a, ?_, ?_, fun row hrow r hr => ?_⟩
  · rw [Condition.ofFilter, hcol]
    exact (ofComparison_sql hop c _).trans hcond
  · intro b hb
    obtain rfl := List.mem_singleton.mp hb
    exact ⟨_, ha⟩
  · obtain ⟨v, hv, hresolve, hkept, hkind⟩ := column_cases hdots (hrows row hrow) hcol
    have hholds : (Condition.compares c sop a).holds r =
        .ok ((c.type.kept v).compare? (castText c.type.target text).cell |>.map sop.accepts) := by
      rw [Condition.holds, comparesCell_eq hfaces ha, hkept r hr]
    have hanswer : Filter.evaluate (.mapping row) (.comparison field op (.text text)) =
        comparisonHolds (some v) op (.text text) := by
      rw [Filter.evaluate, hresolve]
    rcases hkind with hkind | rfl
    · obtain ⟨o, ho, hsame, hstanding⟩ := hkind.compare? hfaces
      rw [ho] at hholds
      rw [comparisonHolds_sql hop hkind hsame hstanding] at hanswer
      exact .of_known hholds hanswer (by simp)
    · have hne : op ≠ .notEqual := by
        rintro rfl
        exact hs.notNull (by simp) row hrow hv
      rw [ColumnType.kept_null] at hholds
      rw [comparisonHolds_null hop hne] at hanswer
      exact .of_known hholds hanswer (by simp [Cell.compare?])

theorem amongCells_kept {v : Value} {texts : List String} {operand : Operand}
    (hm : operand.members = texts.map .text) (hv : c.type.Holds v) (hr : c.type.Reads texts) :
    Condition.amongCells (c.type.kept v) (texts.map fun s => (castText c.type.target s).cell) =
      some (operand.members.any (equalsOperand v)) := by
  have hnull : Cell.null ∉ texts.map fun s => (castText c.type.target s).cell := by
    intro hin
    obtain ⟨s, hs, he⟩ := List.mem_map.mp hin
    exact (hr.faces hs).cell_ne_null he
  rw [amongCells_eq hv.kept_ne_null hnull, hm, List.any_map, List.any_map]
  have heq : ∀ s ∈ texts, ((c.type.kept v).compare? (castText c.type.target s).cell == some .eq) =
      equalsOperand v (.text s) := by
    intro s hs
    obtain ⟨o, ho, hsame, -⟩ := hv.compare? (hr.faces hs)
    rw [ho, equalsOperand_text hv, hsame]
    cases o <;> rfl
  rw [Option.some.injEq, Bool.eq_iff_iff, List.any_eq_true, List.any_eq_true]
  refine exists_congr fun s => and_congr_right fun hs => ?_
  rw [Function.comp_apply, Function.comp_apply, heq s hs]

include hrows hdots in
theorem faithful_among {texts : List String} {operand : Operand} {negated : Bool}
    (hm : operand.members = texts.map .text) (hnull : operand ≠ .null)
    (hop : op = .among ∧ negated = false ∨ op = .notAmong ∧ negated = true)
    (hcol : t.column? field = some c) (hs : Suits rows c op texts) : ∃ cond,
      Condition.ofFilter t (.comparison field op operand) = .ok cond ∧
        Faithful t rows (.comparison field op operand) cond := by
  have hpresent : op ≠ .present := by
    rcases hop with ⟨rfl, -⟩ | ⟨rfl, -⟩ <;> simp
  have hreads := hs.reads hpresent
  obtain ⟨arguments, hcond, hcells, hunder⟩ := amongValues_eq hreads negated
  have hcasts : operand.members.map (fun m => cast c.type.target m.value) =
      texts.map (castText c.type.target) := by
    rw [hm, List.map_map]
    rfl
  have hanswer (v : Value) : comparisonHolds (some v) op operand =
      .ok (operand.members.any (equalsOperand v) != negated) := by
    rcases hop with ⟨rfl, rfl⟩ | ⟨rfl, rfl⟩
    · simp [comparisonHolds]
    · simp [comparisonHolds]
  refine ⟨.among c negated arguments, ?_, hcells, fun row hrow r hr => ?_⟩
  · rw [Condition.ofFilter, hcol, ← hcond, ← hcasts]
    rcases hop with ⟨rfl, rfl⟩ | ⟨rfl, rfl⟩ <;> rfl
  · obtain ⟨v, hv, hresolve, hkept, hkind⟩ := column_cases hdots (hrows row hrow) hcol
    have hholds : (Condition.among c negated arguments).holds r =
        .ok ((Condition.amongCells (c.type.kept v)
          (texts.map fun s => (castText c.type.target s).cell)).map (· != negated)) := by
      rw [Condition.holds, hunder, hkept r hr]
    have hdoc : Filter.evaluate (.mapping row) (.comparison field op operand) =
        .ok (operand.members.any (equalsOperand v) != negated) := by
      rw [Filter.evaluate, hresolve, hanswer]
    -- Null is among no texts; not to be among them is only asked of columns without null.
    rcases hkind with hkind | rfl
    · rw [amongCells_kept hm hkind hreads] at hholds
      exact .of_known hholds hdoc (by simp)
    · obtain ⟨rfl, rfl⟩ : op = .among ∧ negated = false := by
        refine hop.resolve_right ?_
        rintro ⟨rfl, -⟩
        exact hs.notNull (by simp) row hrow hv
      rw [ColumnType.kept_null] at hholds
      rw [any_equalsOperand_null hnull] at hdoc
      refine .of_known hholds hdoc ?_
      have hne := amongCells_null (texts.map fun s => (castText c.type.target s).cell)
      simpa using hne

include hrows hdots in
theorem faithful_present {operand : Operand} (hcol : t.column? field = some c)
    {texts : List String} (hs : Suits rows c .present texts) : ∃ cond,
      Condition.ofFilter t (.comparison field .present operand) = .ok cond ∧
        Faithful t rows (.comparison field .present operand) cond := by
  refine ⟨.isNull c (asksYes operand.value), by rw [Condition.ofFilter, hcol]; rfl, by
    simp [Condition.arguments], fun row hrow r hr => ?_⟩
  obtain ⟨v, hv, hresolve, hkept, hkind⟩ := column_cases hdots (hrows row hrow) hcol
  have hv' : c.type.Holds v := by
    refine hkind.resolve_right ?_
    rintro rfl
    exact hs.notNull (by simp) row hrow hv
  have hcell : (r.cell c.name == .null) = false := by
    rw [hkept r hr]
    simpa using hv'.kept_ne_null
  have hdoc : Filter.evaluate (.mapping row) (.comparison field .present operand) =
      .ok (asksYes operand.value) := by
    rw [Filter.evaluate, hresolve]
    simp [comparisonHolds]
  exact .of_known rfl hdoc (by simp [hcell])

end Leaves

end DocGrid

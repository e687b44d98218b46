import DocGrid.Proofs.Store.Handed
import DocGrid.Proofs.Store.Leaves
import DocGrid.Proofs.Store.Loading

/-! A comparison and its negation. In the database they part the rows in which the column has a
value, and in the program they part all documents. -/

namespace DocGrid

/-- A comparison of a field with texts, and its negation. -/
inductive Negated : Operator → Operator → Operand → List String → Prop
  | one (x : String) : Negated .equal .notEqual (.text x) [x]
  | many {operand : Operand} {texts : List String} (hm : operand.members = texts.map .text)
      (hne : texts ≠ []) : Negated .among .notAmong operand texts

/-- A field that is no column is null in no row. -/
def Table.hasValue (t : Table) (field : String) (r : SqlRow) : Bool :=
  match t.column? field with
  | some c => r.cell c.name != .null
  | none => true

section Conditions

variable {t : Table} {field : String} {c : Column} {x : String} {texts : List String}

/-- The argument for one text. -/
theorem comparing_castText (c : Column) (x : String) : ∃ a : Argument,
    (∀ op, op = .equal ∨ op = .notEqual →
      Condition.comparing c op (castText c.type.target x) = .ok (.compares c op a)) ∧
    (c.type.Takes (castText c.type.target x) → ∃ cell, a.cell? = .ok cell) ∧
    ((castText c.type.target x).NotNaN → ∀ cell, a.cell? = .ok cell → cell ≠ .null) := by
  have hread := readAs_castText c.type.target x
  by_cases hbit : ∃ b, castText c.type.target x = .bool b
  · obtain ⟨b, hb⟩ := hbit
    have hcell : (Condition.bit b).cell? = .ok (.int (if b then 1 else 0)) := by cases b <;> rfl
    refine ⟨Condition.bit b, fun op hop => ?_, fun _ => ⟨_, hcell⟩, fun _ cell h => ?_⟩
    · rw [hb]
      rcases hop with rfl | rfl <;> rfl
    · rw [hcell] at h
      cases h
      simp
  · push Not at hbit
    refine ⟨_, fun op _ => Condition.comparing_of_readAs hread hbit c op,
      fun h => h.cell?_isOk h, fun hnan cell h => ?_⟩
    obtain ⟨u, hu, hcell⟩ := Result.ok_of_bind h
    exact Cell.ofValue_ne_null hcell (ColumnType.solid_convert hread hread hnan hu)

theorem hasValue_of_column (hcol : t.column? field = some c) (r : SqlRow) :
    t.hasValue field r = (r.cell c.name != .null) := by
  simp only [Table.hasValue, hcol]

theorem compare?_isSome_eq {cell other : Cell} (hcell : cell.NotNaN) (ho : other.NotNaN)
    (hnull : other ≠ .null) : (cell.compare? other).isSome = (cell != .null) := by
  by_cases h : cell = .null
  · subst h
    rfl
  · rw [Cell.compare?_isSome hcell ho h hnull]
    simpa using h

/-- Among cells that are not null, only null is neither found nor missed. -/
theorem amongCells_isSome {cell : Cell} {others : List Cell} (hne : others ≠ [])
    (ho : .null ∉ others) : (Condition.amongCells cell others).isSome = (cell != .null) := by
  by_cases h : cell = .null
  · subst h
    have hempty : others.isEmpty = false := by simpa using hne
    have hany : (others.any fun o => Cell.null.compare? o == some .eq) = false := by
      simp [Cell.compare?]
    simp [Condition.amongCells, hempty, hany]
  · rw [amongCells_eq h ho]
    simpa using h

variable [Conversions]

/-- The second condition is true where the first one is false, and unknown where it is unknown. -/
structure Opposes (t : Table) (field : String) (texts : List String) (c d : Condition) : Prop where
  arguments : d.arguments = c.arguments
  handed : (∀ col, t.column? field = some col → ∀ x ∈ texts,
    col.type.Takes (castText col.type.target x)) → Argument.handOver c.arguments = .ok ()
  opposed : ∀ r, ∃ known, c.holds r = .ok known ∧ d.holds r = .ok (known.map (!·)) ∧
    (Argument.handOver c.arguments = .ok () → r.NotNaN →
      (∀ col, t.column? field = some col → ∀ x ∈ texts, (castText col.type.target x).NotNaN) →
      known.isSome = t.hasValue field r)

theorem opposes_of_no_column (h : t.column? field = none) :
    Opposes t field texts (.constant false) (.constant true) := by
  refine ⟨rfl, fun _ => rfl, fun r => ⟨some false, rfl, rfl, fun _ _ _ => ?_⟩⟩
  simp [Table.hasValue, h]

/-- The cell of an argument that has been handed over, as it is compared. -/
theorem under_handed {a : Argument} {cell : Cell} (h : a.cell? = .ok cell) (hsolid : cell ≠ .null)
    (aff : Affinity) : (a.cell.under aff).NotNaN ∧ a.cell.under aff ≠ .null := by
  obtain ⟨v, -, hv⟩ := Result.ok_of_bind h
  rw [Argument.cell_eq h]
  exact ⟨(Cell.notNaN_ofValue hv).under aff, Cell.under_ne_null hsolid aff⟩

theorem opposes_compares (hcol : t.column? field = some c) {a : Argument}
    (htakes : c.type.Takes (castText c.type.target x) → ∃ cell, a.cell? = .ok cell)
    (hsolid : (castText c.type.target x).NotNaN → ∀ cell, a.cell? = .ok cell → cell ≠ .null) :
    Opposes t field [x] (.compares c .equal a) (.compares c .notEqual a) := by
  refine ⟨rfl, fun h => ?_, fun r => ?_⟩
  · refine Argument.handOver_eq_ok.mpr fun b hb => ?_
    obtain rfl := List.mem_singleton.mp hb
    exact htakes (h c hcol x (List.mem_singleton_self x))
  · have hne (o : Option Ordering) :
        o.map SqlOperator.notEqual.accepts = (o.map SqlOperator.equal.accepts).map (!·) := by
      cases o with
      | none => rfl
      | some o => cases o <;> rfl
    refine ⟨_, rfl, congrArg Except.ok (hne _), fun hhanded hr hnan => ?_⟩
    obtain ⟨cell, hcell⟩ := Argument.handOver_eq_ok.mp hhanded a (List.mem_singleton_self a)
    have hnotNull := hsolid (hnan c hcol x (List.mem_singleton_self x)) cell hcell
    obtain ⟨ho, hnull⟩ := under_handed hcell hnotNull c.type.affinity
    rw [hasValue_of_column hcol, Condition.comparesCell, Option.isSome_map,
      compare?_isSome_eq (hr.cell _) ho hnull]

theorem opposes_among (hcol : t.column? field = some c) (hne : texts ≠ []) :
    Opposes t field texts
      (Condition.amongValues c false (texts.map (castText c.type.target)))
      (Condition.amongValues c true (texts.map (castText c.type.target))) := by
  obtain ⟨first, more, rfl⟩ := List.exists_cons_of_ne_nil hne
  let kind := c.type.argumentType (castText c.type.target first)
  let arguments := (first :: more).map fun x => (⟨castText c.type.target x, kind⟩ : Argument)
  have hcond (negated : Bool) :
      Condition.amongValues c negated ((first :: more).map (castText c.type.target)) =
        .among c negated arguments := by
    rw [Condition.amongValues, List.map_map]
    rfl
  rw [hcond, hcond]
  refine ⟨rfl, fun h => ?_, fun r => ?_⟩
  · refine Argument.handOver_eq_ok.mpr fun a ha => ?_
    obtain ⟨x, hx, rfl⟩ := List.mem_map.mp ha
    exact (h c hcol first (by simp)).cell?_isOk (h c hcol x hx)
  · have hnot (known : Option Bool) :
        known.map (· != true) = (known.map (· != false)).map (!·) := by
      cases known with
      | none => rfl
      | some b => cases b <;> rfl
    refine ⟨_, rfl, congrArg Except.ok (hnot _), fun hhanded _ hnan => ?_⟩
    have hnull : .null ∉ arguments.map fun a => a.cell.under c.type.affinity := by
      intro hin
      obtain ⟨a, ha, he⟩ := List.mem_map.mp hin
      obtain ⟨cell, hcell⟩ := Argument.handOver_eq_ok.mp hhanded a ha
      obtain ⟨x, hx, rfl⟩ := List.mem_map.mp ha
      obtain ⟨u, hu, hv⟩ := Result.ok_of_bind hcell
      have hsolid := ColumnType.solid_convert (readAs_castText _ first) (readAs_castText _ x)
        (hnan c hcol x hx) hu
      exact (under_handed hcell (Cell.ofValue_ne_null hv hsolid) _).2 he
    rw [hasValue_of_column hcol, Option.isSome_map, amongCells_isSome (by simp [arguments]) hnull]

theorem Negated.opposes {op op' : Operator} {operand : Operand}
    (h : Negated op op' operand texts) (t : Table) (field : String) : ∃ c d,
      Condition.ofFilter t (.comparison field op operand) = .ok c ∧
      Condition.ofFilter t (.comparison field op' operand) = .ok d ∧
      Opposes t field texts c d := by
  cases hcol : t.column? field with
  | none =>
    refine ⟨.constant false, .constant true, ?_, ?_, opposes_of_no_column hcol⟩
    · rw [Condition.ofFilter, hcol]
      cases h <;> rfl
    · rw [Condition.ofFilter, hcol]
      cases h <;> rfl
  | some c =>
    cases h with
    | one x =>
      obtain ⟨a, hcond, htakes, hsolid⟩ := comparing_castText c x
      refine ⟨_, _, ?_, ?_, opposes_compares hcol htakes hsolid⟩
      · rw [Condition.ofFilter, hcol]
        exact hcond .equal (.inl rfl)
      · rw [Condition.ofFilter, hcol]
        exact hcond .notEqual (.inr rfl)
    | many hm hne =>
      have hcasts : operand.members.map (fun m => cast c.type.target m.value) =
          texts.map (castText c.type.target) := by
        rw [hm, List.map_map]
        rfl
      refine ⟨_, _, ?_, ?_, opposes_among hcol hne⟩
      · rw [Condition.ofFilter, hcol, ← hcasts]
        rfl
      · rw [Condition.ofFilter, hcol, ← hcasts]
        rfl

theorem Condition.selects_of_holds {r : SqlRow} {c : Condition} {known : Option Bool}
    (h : c.holds r = .ok known) : c.selects r = .ok (known == some true) := by
  rw [selects, h]
  rfl

end Conditions

/-! The documents that satisfy a comparison and those that satisfy its negation. -/

section Documents

variable {op op' : Operator} {operand : Operand} {texts : List String}

theorem Negated.operand_ne_null (h : Negated op op' operand texts) : operand ≠ .null := by
  cases h with
  | one x => nofun
  | many hm hne =>
    rintro rfl
    obtain ⟨first, more, rfl⟩ := List.exists_cons_of_ne_nil hne
    cases hm

theorem Negated.evaluate (h : Negated op op' operand texts) (field : String) (doc : Value) :
    ∃ b, Filter.evaluate doc (.comparison field op operand) = .ok b ∧
      Filter.evaluate doc (.comparison field op' operand) = .ok (!b) ∧
      ((doc.resolve field).getD .null = .null → b = false) := by
  have hnull := h.operand_ne_null
  cases h with
  | one x =>
    refine ⟨_, rfl, rfl, fun hv => ?_⟩
    rw [hv]
    exact equalsOperand_null hnull
  | many hm hne =>
    refine ⟨_, rfl, rfl, fun hv => ?_⟩
    rw [hv]
    exact any_equalsOperand_null hnull

end Documents

namespace SqlStore

/-- The rows for one comparison, as they are kept. -/
def only (field : String) (op : Operator) (operand : Operand) : Selection :=
  ⟨some (.comparison field op operand), [], 0, 0⟩

@[simp] theorem sortRows_nil (rows : List SqlRow) : sortRows [] rows = rows :=
  List.mergeSort_of_pairwise (List.pairwise_of_forall fun _ _ => rfl)

@[simp] theorem scan_nil (t : Table) (rows : List SqlRow) : scan t [] rows = rows := by
  unfold scan
  split <;> trivial

section Reads

variable [Conversions]

theorem selected_eq_handOver {s : SqlStore} {t : Table} {c : Condition} {rows : List SqlRow}
    {p : SqlRow → Bool} (hrows : s.rows t = .ok rows) (hp : ∀ r ∈ rows, c.selects r = .ok (p r))
    {numbers : List Int} (hfits : numbers.all Cell.fitsWord = true) :
    s.selected t c numbers = (Argument.handOver c.arguments).map fun _ => rows.filter p := by
  rw [selected, Argument.handOver]
  cases c.arguments.mapM fun a => a.type.convert a.value with
  | error e => rfl
  | ok vs =>
    simp only [hrows, hfits, Result.ok_bind]
    cases c.arguments.mapM Argument.cell? with
    | error e => rfl
    | ok cells => exact Result.filterM_of_ok hp

/-- Without an order and a page the rows found are those selected. -/
theorem findRows_eq_selected {s : SqlStore} {t : Table} {f : Filter} {c : Condition}
    (hc : Condition.ofFilter t f = .ok c) :
    s.findRows t ⟨some f, [], 0, 0⟩ = s.selected t c [0, 0] := by
  have hwindow (rows : List SqlRow) : window ⟨some f, [], 0, 0⟩ rows = rows := rfl
  have horder : orderOf t [] = .ok [] := rfl
  change (do
    let c ← Condition.ofFilter t f
    let order ← orderOf t []
    let rows ← s.selected t c [0, 0]
    return window ⟨some f, [], 0, 0⟩ (sortRows order (scan t order rows))) = _
  simp only [hc, horder, scan_nil, sortRows_nil, hwindow, Result.ok_bind]
  cases s.selected t c [0, 0] <;> rfl

theorem findRows_eq_handOver {s : SqlStore} {t : Table} {f : Filter} {c : Condition}
    {rows : List SqlRow} {p : SqlRow → Bool} (hc : Condition.ofFilter t f = .ok c)
    (hrows : s.rows t = .ok rows) (hp : ∀ r ∈ rows, c.selects r = .ok (p r)) :
    s.findRows t ⟨some f, [], 0, 0⟩ =
      (Argument.handOver c.arguments).map fun _ => rows.filter p := by
  rw [findRows_eq_selected hc]
  exact selected_eq_handOver hrows hp (by decide)

theorem findRows_only {s : SqlStore} {t : Table} {field : String} {op : Operator}
    {operand : Operand} {c : Condition} {rows : List SqlRow} {p : SqlRow → Bool}
    (hc : Condition.ofFilter t (.comparison field op operand) = .ok c)
    (hrows : s.rows t = .ok rows) (hp : ∀ r ∈ rows, c.selects r = .ok (p r)) :
    s.findRows t (only field op operand) =
      (Argument.handOver c.arguments).map fun _ => rows.filter p :=
  findRows_eq_handOver hc hrows hp

/-- Equality and inequality part the rows that have a value, and all documents. -/
theorem negated_reads {s : SqlStore} (hs : s.Written) {t : Table} {rows : List SqlRow}
    (hrows : s.rows t = .ok rows) {op op' : Operator} {operand : Operand} {texts : List String}
    (h : Negated op op' operand texts) (field : String) :
    ((∃ p q, s.findRows t (only field op operand) = .ok (rows.filter p) ∧
        s.findRows t (only field op' operand) = .ok (rows.filter q) ∧
        (∀ r ∈ rows, ¬(p r = true ∧ q r = true)) ∧
        ((∀ c, t.column? field = some c → ∀ x ∈ texts, (castText c.type.target x).NotNaN) →
          ∀ r ∈ rows, (p r || q r) = t.hasValue field r)) ∨
      (∃ f, s.findRows t (only field op operand) = .error f ∧
        s.findRows t (only field op' operand) = .error f) ∧
        ∃ c x, t.column? field = some c ∧ x ∈ texts ∧
          ¬c.type.Takes (castText c.type.target x)) ∧
      ∀ doc : Value, ∃ b, Filter.evaluate doc (.comparison field op operand) = .ok b ∧
        Filter.evaluate doc (.comparison field op' operand) = .ok (!b) ∧
        ((doc.resolve field).getD .null = .null → b = false) := by
  refine ⟨?_, h.evaluate field⟩
  obtain ⟨c, d, hc, hd, ho⟩ := h.opposes t field
  choose known hknown hknown' hvalue using ho.opposed
  have hfind := findRows_only hc hrows fun r _ => Condition.selects_of_holds (hknown r)
  have hfind' := findRows_only hd hrows fun r _ => Condition.selects_of_holds (hknown' r)
  rw [ho.arguments] at hfind'
  cases hhanded : Argument.handOver c.arguments with
  | ok u =>
    rw [hhanded] at hfind hfind'
    refine .inl ⟨_, _, hfind, hfind', fun r _ => ?_, fun hnan r hr => ?_⟩
    · rcases known r with _ | b
      · simp
      · cases b <;> simp
    · rw [← hvalue r hhanded (hs.notNaN.rows hrows r hr) hnan]
      rcases known r with _ | b
      · rfl
      · cases b <;> rfl
  | error f =>
    rw [hhanded] at hfind hfind'
    refine .inr ⟨⟨f, hfind, hfind'⟩, ?_⟩
    by_contra hno
    have htakes : ∀ col, t.column? field = some col → ∀ x ∈ texts,
        col.type.Takes (castText col.type.target x) := by
      intro col hcol x hx
      by_contra hnot
      exact hno ⟨col, x, hcol, hx, hnot⟩
    rw [ho.handed htakes] at hhanded
    cases hhanded

end Reads

def roleRows : List Document :=
  [Table.itemRow 1 "Ann" 30 (Binary64.zero false) true none,
    Table.itemRow 2 "Bob" 9 (Binary64.zero false) false (some "user")]

def roleStore : SqlStore :=
  ⟨[("items", roleRows.map Table.items.keptRow)]⟩

theorem accepted_roleStore : roleStore.Accepted :=
  accepted_of_rows (by simp [Table.all] : Table.items ∈ Table.all) roleRows ⟨_, rfl⟩

theorem negated_reads_roles :
    roleStore.Written ∧ roleStore.rows .items = .ok (roleRows.map Table.items.keptRow) ∧
      Negated .among .notAmong (.list (["admin", "user"].map .text)) ["admin", "user"] ∧
      ((∃ p q, roleStore.findRows .items (only "role" .among
            (.list (["admin", "user"].map .text))) =
              .ok ((roleRows.map Table.items.keptRow).filter p) ∧
          roleStore.findRows .items (only "role" .notAmong
            (.list (["admin", "user"].map .text))) =
              .ok ((roleRows.map Table.items.keptRow).filter q) ∧
          (∀ r ∈ roleRows.map Table.items.keptRow, ¬(p r = true ∧ q r = true)) ∧
          ((∀ c, Table.items.column? "role" = some c → ∀ x ∈ ["admin", "user"],
              (castText c.type.target x).NotNaN) →
            ∀ r ∈ roleRows.map Table.items.keptRow, (p r || q r) =
              Table.items.hasValue "role" r)) ∨
        (∃ f, roleStore.findRows .items (only "role" .among
            (.list (["admin", "user"].map .text))) = .error f ∧
          roleStore.findRows .items (only "role" .notAmong
            (.list (["admin", "user"].map .text))) = .error f) ∧
          ∃ c x, Table.items.column? "role" = some c ∧ x ∈ ["admin", "user"] ∧
            ¬c.type.Takes (castText c.type.target x)) ∧
      ∀ doc : Value, ∃ b,
        Filter.evaluate doc (.comparison "role" .among (.list (["admin", "user"].map .text))) =
          .ok b ∧
        Filter.evaluate doc (.comparison "role" .notAmong (.list (["admin", "user"].map .text))) =
          .ok (!b) ∧
        ((doc.resolve "role").getD .null = .null → b = false) := by
  have hrows : roleStore.rows .items = .ok (roleRows.map Table.items.keptRow) := rfl
  have hmany : Negated .among .notAmong (.list (["admin", "user"].map .text)) ["admin", "user"] :=
    .many rfl (by simp)
  have hwritten := accepted_roleStore.written
  exact ⟨hwritten, hrows, hmany, negated_reads hwritten hrows hmany "role"⟩

/-- A row with a null is in neither read, and the same holds of all rows when the text is read as a
number that is none. -/
theorem not_equal_or_notEqual :
    ¬(∀ (s : SqlStore) (t : Table) (rows : List SqlRow) (field x : String), s.Written →
        s.rows t = .ok rows →
        (∀ c, t.column? field = some c → c.type.Takes (castText c.type.target x)) →
        ∃ found found', s.findRows t (only field .equal (.text x)) = .ok found ∧
          s.findRows t (only field .notEqual (.text x)) = .ok found' ∧
          ∀ r ∈ rows, r ∈ found ∨ r ∈ found') ∧
      roleStore.findRows .items (only "score" .equal (.text "nan")) = .ok [] ∧
      roleStore.findRows .items (only "score" .notEqual (.text "nan")) = .ok [] := by
  refine ⟨fun hall => ?_, by with_unfolding_all rfl, by with_unfolding_all rfl⟩
  obtain ⟨found, found', hfound, hfound', hin⟩ := hall roleStore .items _ "role" "x"
    accepted_roleStore.written rfl fun c hc => by
      cases hc
      exact .text "x"
  have hequal : roleStore.findRows .items (only "role" .equal (.text "x")) = .ok [] := by
    with_unfolding_all rfl
  have hnotEqual : roleStore.findRows .items (only "role" .notEqual (.text "x")) =
      .ok [Table.items.keptRow roleRows[1]] := by
    with_unfolding_all rfl
  obtain rfl := Except.ok.inj (hequal.symm.trans hfound)
  obtain rfl := Except.ok.inj (hnotEqual.symm.trans hfound')
  have hann := hin (Table.items.keptRow roleRows[0]) (by simp [roleRows])
  exact absurd hann (by decide +kernel)

end SqlStore

end DocGrid

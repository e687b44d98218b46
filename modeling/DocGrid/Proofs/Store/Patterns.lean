import DocGrid.Proofs.Store.Answers
import DocGrid.Proofs.Store.SameOrder

/-! Patterns in a database and in the program. A database looks for a pattern in the texts of its
text columns and always minds letter case, so that it finds the rows of which the pattern holds
when case is not ignored. -/

namespace DocGrid

variable {t : Table} {c : Column} {row : Document} {rows : List Document} {kept : List SqlRow}
  {s : SqlStore} {text : String} {p : Pattern} {models : List Table}
  {entries : List (Table × Document)}

/-- Whether a pattern is found in a value, which has to be a text. -/
def Pattern.isIn (p : Pattern) (ignoreCase : Bool) (v : Value) : Bool :=
  v.text?.any fun s => p.root.search ignoreCase s.toList

theorem Column.Fits.candidates_eq {v : Value} (h : c.Fits v) (htype : c.type.IsScalar) :
    v.candidates = [v] := by
  have hnot : ¬(c.type = .jsonList ∨ c.type = .jsonMapping) := not_or.mpr htype
  rcases h with h | ⟨-, -, rfl⟩
  · generalize c.type = type at h hnot
    cases h with
    | json hjson => exact absurd hjson hnot
    | _ => rfl
  · rfl

/-- Only text columns and plain ones have texts. -/
theorem Column.Fits.isIn_eq_false {v : Value} (h : c.Fits v) (htype : c.type.IsScalar)
    (htext : c.type ≠ .text) (hplain : c.type ≠ .plain) (p : Pattern) (ignoreCase : Bool) :
    p.isIn ignoreCase v = false := by
  have hnot : ¬(c.type = .jsonList ∨ c.type = .jsonMapping) := not_or.mpr htype
  rcases h with h | ⟨-, -, rfl⟩
  · generalize c.type = type at h hnot htext hplain
    cases h with
    | json hjson => exact absurd hjson hnot
    | text s => exact absurd rfl htext
    | plain s => exact absurd rfl hplain
    | _ => rfl
  · rfl

/-- Outside of lists a pattern holds of a field when it is found in its value. -/
theorem evaluate_pattern (ht : t.WellMade) (hc : c ∈ t.columns) (htype : c.type.IsScalar)
    (hrow : t.Fits row) (hp : Pattern.ofText? text = .ok p) (ignoreCase : Bool) :
    (Filter.pattern c.name text ignoreCase).evaluate (.mapping row) =
      .ok (p.isIn ignoreCase (c.valueIn row)) := by
  have hresolve : (Value.mapping row).resolve c.name = row.get? c.name :=
    Document.resolve_of_notMem (ht.plain c hc).1 row
  have hcandidates := (hrow c hc).candidates_eq htype
  rw [Filter.evaluate, hresolve]
  unfold Column.valueIn at hcandidates ⊢
  cases hv : row.get? c.name with
  | none => rfl
  | some v =>
    rw [hv, Option.getD_some] at hcandidates
    simp only [patternHolds, hp, hcandidates, Option.getD_some, Pattern.isIn, List.any_cons,
      List.any_nil, Bool.or_false]

section Finds

variable [Conversions]

/-- A document has the values of a row in all columns but those that hold JSON, which are no keys. -/
def Table.SameScalars (t : Table) (row doc : Document) : Prop :=
  ∀ c ∈ t.columns, c.type.IsScalar → (c.valueIn row).same (c.valueIn doc) = true

theorem Table.Returns.sameScalars {doc : Document} (h : t.Returns row doc) :
    t.SameScalars row doc := by
  intro c hc htype
  rw [Table.Returns, Value.same, Bool.and_eq_true, Value.sameEntries_iff] at h
  obtain ⟨w, hw, hsame⟩ := h.2 _ (List.mem_map_of_mem hc)
  rw [ColumnType.returned, if_neg (not_or.mpr htype)] at hsame
  simpa only [Column.valueIn, hw, Option.getD_some] using hsame

/-- The rows that a condition selects are found as documents with their values. -/
theorem Keeps.find_filter (h : Keeps t rows kept) (ht : t.WellMade) (hkept : s.rows t = .ok kept)
    {f : Filter} {condition : Condition} (hf : Condition.ofFilter t f = .ok condition)
    (hnone : condition.arguments = []) {q : Document → Bool}
    (hq : ∀ row ∈ rows, ∀ n, condition.selects ⟨n, t.cells row⟩ = .ok (q row)) :
    ∃ order loaded, s.find t ⟨some f, [], 0, 0⟩ = .ok loaded ∧ order.Perm (rows.filter q) ∧
      List.Forall₂ t.SameScalars order loaded := by
  obtain ⟨order, hperm, hcells⟩ := h.exists_order (.refl kept)
  let chosen (cells : List (String × Cell)) : Bool :=
    (condition.selects ⟨0, cells⟩).toOption == some true
  have hchosen : ∀ row ∈ order, chosen (t.cells row) = q row := by
    intro row hrow
    have hrow := hq row (hperm.mem_iff.mp hrow) 0
    simp only [chosen, hrow, Except.toOption]
    cases q row <;> rfl
  have hselects : ∀ r ∈ kept, condition.selects r = .ok (chosen r.cells) := by
    intro r hr
    have hr : r.cells ∈ order.map t.cells := hcells ▸ List.mem_map_of_mem hr
    obtain ⟨row, hrow, heq⟩ := List.mem_map.mp hr
    rw [← heq, hchosen row hrow, ← hq row (hperm.mem_iff.mp hrow) r.rowId, heq]
  have hfound : (kept.filter fun r => chosen r.cells).map (·.cells) =
      (order.filter q).map t.cells := by
    calc (kept.filter fun r => chosen r.cells).map (·.cells)
        = (kept.map (·.cells)).filter chosen := by
          rw [List.filter_map]
          rfl
      _ = (order.map t.cells).filter chosen := by rw [hcells]
      _ = (order.filter fun row => chosen (t.cells row)).map t.cells := by
          rw [List.filter_map]
          rfl
      _ = (order.filter q).map t.cells := by rw [List.filter_congr hchosen]
  obtain ⟨loaded, hloaded, hreturns⟩ := SqlStore.mapM_loadRow_cells ht (fun row hrow =>
    h.fits row (hperm.mem_iff.mp (List.mem_filter.mp hrow).1)) hfound
  refine ⟨order.filter q, loaded, ?_, hperm.filter q, hreturns.imp fun _ _ h => h.sameScalars⟩
  rw [SqlStore.find_eq_handOver hf hkept hselects, hnone]
  exact hloaded

/-- A database looks for a pattern in text columns only. -/
theorem selects_pattern (ht : t.WellMade) (hc : c ∈ t.columns) (hrow : t.Fits row)
    (hp : Pattern.ofText? text = .ok p) (n : Int) :
    (Condition.ofPattern c text).selects ⟨n, t.cells row⟩ =
      .ok (c.type == .text && p.isIn false (c.valueIn row)) := by
  unfold Condition.ofPattern
  by_cases htype : c.type = .text
  · have hcell := SqlStore.cell_cells ht hc n row
    rw [if_pos htype, Condition.selects, Condition.holds, hcell, htype]
    rcases (hrow c hc).elim with hfits | ⟨hnull, -⟩
    · rw [htype] at hfits
      generalize c.valueIn row = v at hfits ⊢
      cases hfits with
      | text s =>
        rw [ColumnType.cellOf_text]
        have hin : p.isIn false (.text s) = p.root.search false s.toList := rfl
        simp only [Condition.patternHolds, hp, hin]
        cases p.root.search false s.toList <;> rfl
      | json hjson => simp at hjson
    · rw [hnull]
      rfl
  · have hne : (c.type == .text) = false := by simpa using htype
    rw [if_neg htype, hne]
    rfl

variable (hmodels : ∀ t ∈ models, t ∈ Table.all)
  (hentries : ∀ e ∈ entries, e.1 ∈ models ∧ e.1.Fits e.2)

include hmodels hentries

/-- After the same insertions a database finds for a pattern on a scalar column the rows of which
the pattern holds when case is not ignored, whether it is to be ignored or not. It finds none on a
column that is no text for it. -/
theorem finds_pattern (ht : t ∈ models) (hc : c ∈ t.columns) (htype : c.type.IsScalar)
    (hpattern : (Pattern.ofText? text).isOk = true) (ignoreCase : Bool) :
    let cs := .setup models :: creates entries
    let m := ((Command.performAll MemoryStore.access cs).run .empty).2
    let s := ((Command.performAll SqlStore.access cs).run .empty).2
    ∃ (q : Document → Bool) (order loaded : List Document),
      s.find t ⟨some (.pattern c.name text ignoreCase), [], 0, 0⟩ = .ok loaded ∧
      order.Perm ((m.rows t).filter q) ∧ List.Forall₂ t.SameScalars order loaded ∧
      ∀ row ∈ m.rows t,
        (c.type ≠ .plain →
          (Filter.pattern c.name text false).evaluate (.mapping row) = .ok (q row)) ∧
        (c.type = .plain → q row = false) ∧
        ∃ b, (Filter.pattern c.name text ignoreCase).evaluate (.mapping row) = .ok b := by
  intro cs m s
  obtain ⟨p, hp⟩ : ∃ p, Pattern.ofText? text = .ok p := by
    cases hp : Pattern.ofText? text with
    | ok p => exact ⟨p, rfl⟩
    | error e =>
      rw [hp] at hpattern
      cases hpattern
  have hmade := Table.wellMade (hmodels t ht)
  obtain ⟨-, halike⟩ := (alike_setup models).performAll hmodels hentries
  obtain ⟨kept, hkept, hkeeps⟩ := halike t ht
  have hcondition : Condition.ofFilter t (.pattern c.name text ignoreCase) =
      .ok (Condition.ofPattern c text) := by
    have hcolumn : t.column? c.name = some c := column?_of_mem hmade.names hc
    rw [Condition.ofFilter, hcolumn]
  have hnone : (Condition.ofPattern c text).arguments = [] := by
    unfold Condition.ofPattern
    split <;> rfl
  obtain ⟨order, loaded, hfind, hperm, hsame⟩ := hkeeps.find_filter hmade hkept hcondition hnone
    fun row hrow n => selects_pattern hmade hc (hkeeps.fits row hrow) hp n
  refine ⟨_, order, loaded, hfind, hperm, hsame, fun row hrow => ?_⟩
  have hevaluate := evaluate_pattern hmade hc htype (hkeeps.fits row hrow) hp
  refine ⟨fun hplain => ?_, fun hplain => ?_, _, hevaluate ignoreCase⟩
  · rw [hevaluate false]
    by_cases htext : c.type = .text
    · simp [htext]
    · have hfits := hkeeps.fits row hrow c hc
      simp [hfits.isIn_eq_false htype htext hplain]
  · simp [hplain]

end Finds

def letterRow : Document :=
  Table.itemRow 1 "a" 1 (Binary64.zero false) true (some "b")

def nameColumn : Column :=
  ⟨"name", .text, false, false, none⟩

theorem suits_letterRow : (∀ t ∈ [Table.items], t ∈ Table.all) ∧
    ∀ e ∈ [(Table.items, letterRow)], e.1 ∈ [Table.items] ∧ e.1.Fits e.2 := by
  have hfits : Table.items.Fits letterRow := by
    simp only [Table.Fits, Table.items, List.forall_mem_cons]
    exact ⟨.inl (.int (by decide)), .inl (.text "a"), .inl (.int (by decide)),
      .inl (.float (by decide)), .inl (.bool true), .inl (.text "b"), List.forall_mem_nil _⟩
  simp [Table.all, hfits]

theorem scalar_nameColumn : nameColumn ∈ Table.items.columns ∧ nameColumn.type.IsScalar := by
  simp [nameColumn, Table.items, ColumnType.IsScalar]

theorem finds_pattern_letter :
    let cs := .setup [.items] :: creates [(.items, letterRow)]
    let m := ((Command.performAll MemoryStore.access cs).run .empty).2
    let s := ((Command.performAll SqlStore.access cs).run .empty).2
    m.rows .items = [letterRow] ∧ ∃ (q : Document → Bool) (order loaded : List Document),
      s.find .items ⟨some (.pattern "name" "A" true), [], 0, 0⟩ = .ok loaded ∧
      order.Perm ([letterRow].filter q) ∧ List.Forall₂ Table.items.SameScalars order loaded ∧
      ∀ row ∈ [letterRow],
        (ColumnType.text ≠ .plain →
          (Filter.pattern "name" "A" false).evaluate (.mapping row) = .ok (q row)) ∧
        (ColumnType.text = .plain → q row = false) ∧
        ∃ b, (Filter.pattern "name" "A" true).evaluate (.mapping row) = .ok b := by
  intro cs m s
  obtain ⟨hmodels, hentries⟩ := suits_letterRow
  obtain ⟨hc, htype⟩ := scalar_nameColumn
  have hfinds := finds_pattern hmodels hentries (List.mem_singleton_self _) hc htype
    (by decide +kernel : (Pattern.ofText? "A").isOk = true) true
  exact ⟨rfl, hfinds⟩

theorem not_finds_pattern :
    ¬∀ (models : List Table) (entries : List (Table × Document)) (t : Table) (c : Column)
      (text : String) (ignoreCase : Bool), (∀ t ∈ models, t ∈ Table.all) →
      (∀ e ∈ entries, e.1 ∈ models ∧ e.1.Fits e.2) → t ∈ models → c ∈ t.columns →
      c.type.IsScalar → (Pattern.ofText? text).isOk = true →
      let f : Filter := .pattern c.name text ignoreCase
      let cs := .setup models :: creates entries
      let m := ((Command.performAll MemoryStore.access cs).run .empty).2
      let s := ((Command.performAll SqlStore.access cs).run .empty).2
      ∃ order loaded : List Document, s.find t ⟨some f, [], 0, 0⟩ = .ok loaded ∧
        order.Perm ((m.rows t).filter fun row => f.evaluate (.mapping row) matches .ok true) ∧
        List.Forall₂ t.SameScalars order loaded := by
  intro h
  let f : Filter := .pattern "name" "A" true
  obtain ⟨hmodels, hentries⟩ := suits_letterRow
  obtain ⟨hc, htype⟩ := scalar_nameColumn
  obtain ⟨order, loaded, hfind, hperm, hsame⟩ := h [.items] [(.items, letterRow)] .items nameColumn
    "A" true hmodels hentries (List.mem_singleton_self _) hc htype (by decide +kernel)
  let cs := .setup [.items] :: creates [(.items, letterRow)]
  let s := ((Command.performAll SqlStore.access cs).run .empty).2
  have hnone : s.find .items ⟨some f, [], 0, 0⟩ = .ok [] := by with_unfolding_all rfl
  obtain rfl := Except.ok.inj (hnone.symm.trans hfind)
  obtain rfl := List.forall₂_nil_right_iff.mp hsame
  have hholds : f.evaluate (.mapping letterRow) = .ok true := by with_unfolding_all rfl
  have hmem : letterRow ∈ [letterRow].filter fun row =>
      f.evaluate (.mapping row) matches .ok true := by
    simp [hholds]
  exact List.not_mem_nil (hperm.mem_iff.mpr hmem)

end DocGrid

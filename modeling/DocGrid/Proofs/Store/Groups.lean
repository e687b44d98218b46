import DocGrid.Proofs.Store.Leaves
import Mathlib.Data.List.Forall2

/-! Groups of comparisons, nested in any way. The condition of every such filter is true of exactly
those rows of which the filter holds. -/

namespace DocGrid

theorem ofFilters_forall {t : Table} {fs : List Filter} {P : Filter → Condition → Prop}
    (h : ∀ f ∈ fs, ∃ c, Condition.ofFilter t f = .ok c ∧ P f c) :
    ∃ cs, Condition.ofFilters t fs = .ok cs ∧ List.Forall₂ P fs cs := by
  induction fs with
  | nil => exact ⟨[], rfl, .nil⟩
  | cons f fs ih =>
    obtain ⟨c, hc, hf⟩ := h f (by simp)
    obtain ⟨cs, hcs, hfs⟩ := ih fun g hg => h g (List.mem_cons_of_mem _ hg)
    refine ⟨c :: cs, ?_, .cons hf hfs⟩
    rw [Condition.ofFilters, hc, hcs]
    rfl

variable [Conversions]

section Groups

variable {t : Table} {rows : List Document} {doc : Value} {r : SqlRow} {fs : List Filter}
  {cs : List Condition}

structure PartsAgree (doc : Value) (r : SqlRow) (fs : List Filter) (cs : List Condition) :
    Prop where
  answers : ∀ c ∈ cs, c.Answers r
  decides : ∀ f ∈ fs, ∃ b, f.evaluate doc = .ok b
  all_iff : (∀ c ∈ cs, c.IsTrue r) ↔ ∀ f ∈ fs, f.evaluate doc = .ok true
  any_iff : (∃ c ∈ cs, c.IsTrue r) ↔ ∃ f ∈ fs, f.evaluate doc = .ok true

theorem partsAgree_of_forall (h : List.Forall₂ (Agrees doc r) fs cs) : PartsAgree doc r fs cs := by
  induction h with
  | nil => exact ⟨by simp, by simp, by simp, by simp⟩
  | cons hfc _ ih =>
    refine ⟨?_, ?_, ?_, ?_⟩
    · exact List.forall_mem_cons.mpr ⟨hfc.answers, ih.answers⟩
    · exact List.forall_mem_cons.mpr ⟨hfc.decides, ih.decides⟩
    · rw [List.forall_mem_cons, List.forall_mem_cons, hfc.iff, ih.all_iff]
    · simp only [List.mem_cons, exists_eq_or_imp, hfc.iff, ih.any_iff]

theorem PartsAgree.conjunction (h : PartsAgree doc r fs cs) :
    Agrees doc r (.all fs) (Condition.conjunction cs) := by
  obtain ⟨known, hk, hkiff⟩ := Condition.conjunction_iff h.answers
  obtain ⟨b, hb, hbiff⟩ := Filter.evaluateAll_iff h.decides
  exact .of_known hk hb (hkiff.trans (h.all_iff.trans hbiff.symm))

theorem PartsAgree.disjunction (h : PartsAgree doc r fs cs) :
    Agrees doc r (.any fs) (Condition.disjunction cs) := by
  obtain ⟨known, hk, hkiff⟩ := Condition.disjunction_iff h.answers
  obtain ⟨b, hb, hbiff⟩ := Filter.evaluateAny_iff h.decides
  exact .of_known hk hb (hkiff.trans (h.any_iff.trans hbiff.symm))

theorem partsAgree_of_faithful (h : List.Forall₂ (Faithful t rows) fs cs) {row : Document}
    (hrow : row ∈ rows) (hr : t.KeptAs row r) : PartsAgree (.mapping row) r fs cs :=
  partsAgree_of_forall (h.imp fun _ _ hfc => hfc.agrees row hrow r hr)

theorem arguments_of_faithful (h : List.Forall₂ (Faithful t rows) fs cs) {c : Condition}
    (hc : c ∈ cs) : ∀ a ∈ c.arguments, ∃ cell, a.cell? = .ok cell := by
  induction h with
  | nil => cases hc
  | cons hfc _ ih =>
    rcases List.mem_cons.mp hc with rfl | hc
    · exact hfc.arguments
    · exact ih hc

theorem faithful_all (h : List.Forall₂ (Faithful t rows) fs cs) :
    Faithful t rows (.all fs) (Condition.conjunction cs) := by
  refine ⟨fun a ha => ?_, fun row hrow r hr => (partsAgree_of_faithful h hrow hr).conjunction⟩
  obtain ⟨c, hc, hac⟩ := Condition.mem_arguments_conjunction ha
  exact arguments_of_faithful h hc a hac

theorem faithful_any (h : List.Forall₂ (Faithful t rows) fs cs) :
    Faithful t rows (.any fs) (Condition.disjunction cs) := by
  refine ⟨fun a ha => ?_, fun row hrow r hr => (partsAgree_of_faithful h hrow hr).disjunction⟩
  obtain ⟨c, hc, hac⟩ := Condition.mem_arguments_disjunction ha
  exact arguments_of_faithful h hc a hac

end Groups

theorem Filter.Compares.faithful_comparison {t : Table} {rows : List Document} {field text : String}
    {op : Operator} (hrows : ∀ row ∈ rows, t.Admits row)
    (hdots : ∀ c ∈ t.columns, '.' ∉ c.name.toList) (hop : op ≠ .hasType)
    (hs : ∀ c, t.column? field = some c → Suits rows c op [text]) :
    ∃ c, Condition.ofFilter t (.comparison field op (.text text)) = .ok c ∧
      Faithful t rows (.comparison field op (.text text)) c := by
  have hnull : Operand.text text ≠ .null := by simp [Operand.text]
  cases hcol : t.column? field with
  | none => exact faithful_of_no_column hrows hnull hop hcol
  | some c =>
    have hc := hs c hcol
    cases op with
    | hasType => exact absurd rfl hop
    | present => exact faithful_present hrows hdots hcol hc
    | among => exact faithful_among hrows hdots rfl hnull (.inl ⟨rfl, rfl⟩) hcol hc
    | notAmong => exact faithful_among hrows hdots rfl hnull (.inr ⟨rfl, rfl⟩) hcol hc
    | _ => exact faithful_sql hrows hdots rfl hcol hc

/-- Every filter of the kind has a condition that is true where the filter holds. -/
theorem Filter.Compares.faithful {t : Table} {rows : List Document} {f : Filter}
    (h : f.Compares t rows) (hrows : ∀ row ∈ rows, t.Admits row)
    (hdots : ∀ c ∈ t.columns, '.' ∉ c.name.toList) :
    ∃ c, Condition.ofFilter t f = .ok c ∧ Faithful t rows f c := by
  induction h with
  | @comparison field text op hop hs =>
    exact faithful_comparison hrows hdots hop hs
  | @equals field text hs =>
    -- An equality is translated like a comparison, and evaluated like one.
    obtain ⟨c, hc, hf⟩ := faithful_comparison hrows hdots (by decide) hs
    refine ⟨c, ?_, hf.arguments, fun row hrow r hr => ?_⟩
    · rw [← hc, Condition.ofFilter, Condition.ofFilter]
      cases t.column? field <;> rfl
    · obtain ⟨hanswers, hdecides, hiff⟩ := hf.agrees row hrow r hr
      exact ⟨hanswers, hdecides, hiff⟩
  | @comparisonOfMany field op texts hop hs =>
    have hmembers : (Operand.list (texts.map .text)).members = texts.map Operand.text := by
      simp [Operand.members, Operand.text, Function.comp_def]
    cases hcol : t.column? field with
    | none =>
      refine faithful_of_no_column hrows (by simp) ?_ hcol
      rcases hop with rfl | rfl <;> decide
    | some c =>
      have hc := hs c hcol
      rcases hop with rfl | rfl
      · exact faithful_among hrows hdots hmembers (by simp) (.inl ⟨rfl, rfl⟩) hcol hc
      · exact faithful_among hrows hdots hmembers (by simp) (.inr ⟨rfl, rfl⟩) hcol hc
  | @all filters _ ih =>
    obtain ⟨cs, hcs, hfaithful⟩ := ofFilters_forall ih
    cases filters with
    | nil =>
      refine ⟨.literal true, rfl, by simp [Condition.arguments], fun row _ r _ => ?_⟩
      exact .of_known rfl rfl (by simp)
    | cons f fs =>
      refine ⟨Condition.conjunction cs, ?_, faithful_all hfaithful⟩
      rw [Condition.ofFilter, hcs]
      · rfl
      · simp
  | @any filters _ ih =>
    obtain ⟨cs, hcs, hfaithful⟩ := ofFilters_forall ih
    cases filters with
    | nil =>
      refine ⟨.literal false, rfl, by simp [Condition.arguments], fun row _ r _ => ?_⟩
      exact .of_known rfl rfl (by simp)
    | cons f fs =>
      refine ⟨Condition.disjunction cs, ?_, faithful_any hfaithful⟩
      rw [Condition.ofFilter, hcs]
      · rfl
      · simp

end DocGrid

import DocGrid.Filter.Evaluate
import DocGrid.Proofs.Results
import DocGrid.Store.Sql.Translate

/-! The truth of conjunctions and disjunctions, in the database and in the program. A condition
that is neither true nor false does not select, so that both ask only which parts are true. -/

namespace DocGrid

namespace Condition

variable {cs : List Condition}

@[simp]
theorem isConstant_iff {b : Bool} {c : Condition} : isConstant b c = true ↔ c = constant b := by
  cases c with
  | constant b' =>
    simp only [isConstant, beq_iff_eq, constant.injEq]
    exact eq_comm
  | _ => simp [isConstant]

theorem constant_mem_iff {b : Bool} : cs.any (isConstant b) = true ↔ constant b ∈ cs := by
  rw [List.any_eq_true]
  constructor
  · rintro ⟨c, hc, h⟩
    exact isConstant_iff.mp h ▸ hc
  · exact fun h => ⟨_, h, isConstant_iff.mpr rfl⟩

theorem mem_filter_constant {b : Bool} {c : Condition} :
    c ∈ cs.filter (fun c => !isConstant b c) ↔ c ∈ cs ∧ c ≠ constant b := by
  simp [List.mem_filter, ← isConstant_iff]

/-- What comes of a connective: the constant that settles it, or what is left of its parts without
the constants that do not count. -/
inductive Connects (b : Bool) (join : List Condition → Condition) (cs : List Condition) :
    Condition → Prop
  | settled (h : constant (!b) ∈ cs) : Connects b join cs (constant (!b))
  | nothing (h : cs.filter (fun c => !isConstant b c) = []) : Connects b join cs (constant b)
  | single (hfree : constant (!b) ∉ cs) {c : Condition}
      (h : cs.filter (fun c => !isConstant b c) = [c]) : Connects b join cs c
  | joined (hfree : constant (!b) ∉ cs) (h : cs.filter (fun c => !isConstant b c) ≠ []) :
      Connects b join cs (join (cs.filter fun c => !isConstant b c))

theorem connects_conjunction (cs : List Condition) : Connects true all cs (conjunction cs) := by
  unfold conjunction
  split
  · next hany => exact .settled (constant_mem_iff.mp hany)
  · next hany =>
    have hfree : constant false ∉ cs := mt constant_mem_iff.mpr hany
    split
    · next hnil => exact .nothing hnil
    · next c hone => exact .single hfree hone
    · next hne _ => exact .joined hfree hne

theorem connects_disjunction (cs : List Condition) : Connects false any cs (disjunction cs) := by
  unfold disjunction
  split
  · next hany => exact .settled (constant_mem_iff.mp hany)
  · next hany =>
    have hfree : constant true ∉ cs := mt constant_mem_iff.mpr hany
    split
    · next hnil => exact .nothing hnil
    · next c hone => exact .single hfree hone
    · next hne _ => exact .joined hfree hne

@[simp] theorem either_eq_true (a b : Option Bool) :
    either a b = some true ↔ a = some true ∨ b = some true := by
  rcases a with _ | _ | _ <;> rcases b with _ | _ | _ <;> decide

/-! The arguments of connected conditions are those of their parts. -/

theorem mem_argumentsOf {a : Argument} :
    a ∈ argumentsOf cs ↔ ∃ c ∈ cs, a ∈ c.arguments := by
  induction cs with
  | nil => simp [argumentsOf]
  | cons c cs ih => simp [argumentsOf, ih]

theorem Connects.mem_arguments {b : Bool} {join : List Condition → Condition} {whole : Condition}
    {a : Argument} (h : Connects b join cs whole)
    (hjoin : ∀ cs, (join cs).arguments = argumentsOf cs) (ha : a ∈ whole.arguments) :
    ∃ c ∈ cs, a ∈ c.arguments := by
  cases h with
  | settled => simp [arguments] at ha
  | nothing => simp [arguments] at ha
  | single _ hone =>
    have hc : whole ∈ cs.filter fun c => !isConstant b c := by simp [hone]
    exact ⟨whole, (mem_filter_constant.mp hc).1, ha⟩
  | joined =>
    obtain ⟨c, hc, ha⟩ := mem_argumentsOf.mp (hjoin _ ▸ ha)
    exact ⟨c, (mem_filter_constant.mp hc).1, ha⟩

theorem arguments_all (cs : List Condition) : (all cs).arguments = argumentsOf cs := by
  rw [arguments]

theorem arguments_any (cs : List Condition) : (any cs).arguments = argumentsOf cs := by
  rw [arguments]

theorem mem_arguments_conjunction {a : Argument} (h : a ∈ (conjunction cs).arguments) :
    ∃ c ∈ cs, a ∈ c.arguments :=
  (connects_conjunction cs).mem_arguments arguments_all h

theorem mem_arguments_disjunction {a : Argument} (h : a ∈ (disjunction cs).arguments) :
    ∃ c ∈ cs, a ∈ c.arguments :=
  (connects_disjunction cs).mem_arguments arguments_any h

theorem arguments_conjunction_eq_nil (h : ∀ c ∈ cs, c.arguments = []) :
    (conjunction cs).arguments = [] := by
  refine List.eq_nil_iff_forall_not_mem.mpr fun a ha => ?_
  obtain ⟨c, hc, ha⟩ := mem_arguments_conjunction ha
  exact List.ne_nil_of_mem ha (h c hc)

theorem arguments_disjunction_eq_nil (h : ∀ c ∈ cs, c.arguments = []) :
    (disjunction cs).arguments = [] := by
  refine List.eq_nil_iff_forall_not_mem.mpr fun a ha => ?_
  obtain ⟨c, hc, ha⟩ := mem_arguments_disjunction ha
  exact List.ne_nil_of_mem ha (h c hc)

/-! A connective is a constant when its parts say so, and demands what they demand otherwise. -/

theorem filter_constant_eq_nil {b : Bool} :
    cs.filter (fun c => !isConstant b c) = [] ↔ ∀ c ∈ cs, c = constant b := by
  simp [List.filter_eq_nil_iff]

theorem conjunction_eq_true_iff : conjunction cs = constant true ↔ ∀ c ∈ cs, c = constant true := by
  rw [← filter_constant_eq_nil]
  have hwhole := connects_conjunction cs
  generalize conjunction cs = whole at hwhole
  cases hwhole with
  | settled hmem =>
    have hkept := mem_filter_constant.mpr ⟨hmem, (by simp : constant false ≠ constant true)⟩
    exact iff_of_false (by simp) (List.ne_nil_of_mem hkept)
  | nothing hnil => exact iff_of_true rfl hnil
  | single _ hone =>
    have hc : whole ∈ cs.filter fun c => !isConstant true c := by simp [hone]
    exact iff_of_false (mem_filter_constant.mp hc).2 (List.ne_nil_of_mem hc)
  | joined _ hne => exact iff_of_false (by simp) hne

def Handed (c : Condition) : Prop :=
  ∀ a ∈ c.arguments, ∃ cell, a.cell? = .ok cell

theorem handed_constant (b : Bool) : (constant b).Handed := by
  simp [Handed, arguments]

theorem handed_argumentsOf :
    (∀ a ∈ argumentsOf cs, ∃ cell, a.cell? = .ok cell) ↔ ∀ c ∈ cs, c.Handed := by
  simp only [mem_argumentsOf, Handed]
  exact ⟨fun h c hc a ha => h a ⟨c, hc, ha⟩, fun h a ⟨c, hc, ha⟩ => h c hc a ha⟩

theorem handed_filter (b : Bool) :
    (∀ c ∈ cs.filter (fun c => !isConstant b c), c.Handed) ↔ ∀ c ∈ cs, c.Handed := by
  constructor
  · intro h c hc
    by_cases hb : c = constant b
    · exact hb ▸ handed_constant b
    · exact h c (mem_filter_constant.mpr ⟨hc, hb⟩)
  · exact fun h c hc => h c (mem_filter_constant.mp hc).1

theorem Connects.handed {b : Bool} {join : List Condition → Condition} {whole : Condition}
    (h : Connects b join cs whole) (hjoin : ∀ cs, (join cs).arguments = argumentsOf cs) :
    whole.Handed ↔ constant (!b) ∈ cs ∨ ∀ c ∈ cs, c.Handed := by
  rw [← handed_filter b]
  cases h with
  | settled hmem => exact iff_of_true (handed_constant _) (.inl hmem)
  | nothing hnil => exact iff_of_true (handed_constant b) (.inr (by simp [hnil]))
  | single hfree hone => simp [hfree, hone]
  | joined hfree _ =>
    rw [or_iff_right hfree, ← handed_argumentsOf, ← hjoin]
    rfl

theorem handed_conjunction :
    (conjunction cs).Handed ↔ constant false ∈ cs ∨ ∀ c ∈ cs, c.Handed :=
  (connects_conjunction cs).handed arguments_all

theorem handed_disjunction :
    (disjunction cs).Handed ↔ constant true ∈ cs ∨ ∀ c ∈ cs, c.Handed :=
  (connects_disjunction cs).handed arguments_any

/-! A connective is true when its parts are. -/

variable [Conversions] {r : SqlRow}

def IsTrue (r : SqlRow) (c : Condition) : Prop :=
  c.holds r = .ok (some true)

def Answers (r : SqlRow) (c : Condition) : Prop :=
  ∃ known, c.holds r = .ok known

theorem isTrue_iff {c : Condition} {known : Option Bool} (h : c.holds r = .ok known) :
    c.IsTrue r ↔ known = some true := by
  rw [IsTrue, h, Except.ok.injEq]

theorem holdsAll_iff (h : ∀ c ∈ cs, c.Answers r) :
    ∃ known, holdsAll r cs = .ok known ∧ (known = some true ↔ ∀ c ∈ cs, c.IsTrue r) := by
  induction cs with
  | nil => exact ⟨some true, rfl, by simp⟩
  | cons c cs ih =>
    obtain ⟨known, hc⟩ := h c (by simp)
    obtain ⟨rest, hrest, hiff⟩ := ih fun d hd => h d (List.mem_cons_of_mem _ hd)
    by_cases ht : known = some true
    · refine ⟨rest, ?_, ?_⟩
      · rw [holdsAll, hc]
        simp [ht, hrest]
      · simp [isTrue_iff hc, ht, hiff]
    · refine ⟨known, ?_, ?_⟩
      · rw [holdsAll, hc]
        simp [ht]
      · simp [isTrue_iff hc, ht]

theorem holdsAny_iff (h : ∀ c ∈ cs, c.Answers r) :
    ∃ known, holdsAny r cs = .ok known ∧ (known = some true ↔ ∃ c ∈ cs, c.IsTrue r) := by
  induction cs with
  | nil => exact ⟨some false, rfl, by simp⟩
  | cons c cs ih =>
    obtain ⟨known, hc⟩ := h c (by simp)
    obtain ⟨rest, hrest, hiff⟩ := ih fun d hd => h d (List.mem_cons_of_mem _ hd)
    by_cases ht : known = some true
    · refine ⟨known, ?_, ?_⟩
      · rw [holdsAny, hc]
        simp [ht]
      · simp [isTrue_iff hc, ht]
    · refine ⟨either known rest, ?_, ?_⟩
      · rw [holdsAny, hc]
        simp [ht, hrest]
      · simp [isTrue_iff hc, ht, hiff]

theorem isTrue_filter_all :
    (∀ c ∈ cs.filter (fun c => !isConstant true c), c.IsTrue r) ↔ ∀ c ∈ cs, c.IsTrue r := by
  constructor
  · intro h c hc
    by_cases ht : c = constant true
    · rw [ht]
      rfl
    · exact h c (mem_filter_constant.mpr ⟨hc, ht⟩)
  · exact fun h c hc => h c (mem_filter_constant.mp hc).1

theorem conjunction_iff (h : ∀ c ∈ cs, c.Answers r) :
    ∃ known, (conjunction cs).holds r = .ok known ∧
      (known = some true ↔ ∀ c ∈ cs, c.IsTrue r) := by
  have hkept : ∀ c ∈ cs.filter (fun c => !isConstant true c), c.Answers r :=
    fun c hc => h c (mem_filter_constant.mp hc).1
  rw [← isTrue_filter_all]
  have hwhole := connects_conjunction cs
  generalize conjunction cs = whole at hwhole
  cases hwhole with
  | settled hmem =>
    have hfalse : ¬(constant false).IsTrue r := nofun
    refine ⟨some false, rfl, iff_of_false (by simp) fun hall => ?_⟩
    exact hfalse (hall _ (mem_filter_constant.mpr ⟨hmem, by simp⟩))
  | nothing hnil => exact ⟨some true, rfl, by simp [hnil]⟩
  | single _ hone =>
    obtain ⟨known, hc⟩ := hkept whole (by simp [hone])
    exact ⟨known, hc, by simp [hone, isTrue_iff hc]⟩
  | joined => exact holdsAll_iff hkept

theorem isTrue_filter_any :
    (∃ c ∈ cs.filter (fun c => !isConstant false c), c.IsTrue r) ↔ ∃ c ∈ cs, c.IsTrue r := by
  constructor
  · rintro ⟨c, hc, ht⟩
    exact ⟨c, (mem_filter_constant.mp hc).1, ht⟩
  · rintro ⟨c, hc, ht⟩
    refine ⟨c, mem_filter_constant.mpr ⟨hc, ?_⟩, ht⟩
    rintro rfl
    cases ht

theorem disjunction_iff (h : ∀ c ∈ cs, c.Answers r) :
    ∃ known, (disjunction cs).holds r = .ok known ∧
      (known = some true ↔ ∃ c ∈ cs, c.IsTrue r) := by
  have hkept : ∀ c ∈ cs.filter (fun c => !isConstant false c), c.Answers r :=
    fun c hc => h c (mem_filter_constant.mp hc).1
  rw [← isTrue_filter_any]
  have hwhole := connects_disjunction cs
  generalize disjunction cs = whole at hwhole
  cases hwhole with
  | settled hmem =>
    refine ⟨some true, rfl, iff_of_true rfl ⟨constant true, ?_, rfl⟩⟩
    exact mem_filter_constant.mpr ⟨hmem, by simp⟩
  | nothing hnil => exact ⟨some false, rfl, by simp [hnil]⟩
  | single _ hone =>
    obtain ⟨known, hc⟩ := hkept whole (by simp [hone])
    exact ⟨known, hc, by simp [hone, isTrue_iff hc]⟩
  | joined => exact holdsAny_iff hkept

end Condition

namespace Filter

variable {doc : Value} {fs : List Filter}

theorem evaluateAll_iff (h : ∀ f ∈ fs, ∃ b, f.evaluate doc = .ok b) :
    ∃ b, evaluateAll doc fs = .ok b ∧ (b = true ↔ ∀ f ∈ fs, f.evaluate doc = .ok true) := by
  induction fs with
  | nil => exact ⟨true, rfl, by simp⟩
  | cons f fs ih =>
    obtain ⟨b, hb⟩ := h f (by simp)
    obtain ⟨rest, hrest, hiff⟩ := ih fun g hg => h g (List.mem_cons_of_mem _ hg)
    rw [evaluateAll, hb]
    cases b with
    | true => exact ⟨rest, hrest, by simp [hb, hiff]⟩
    | false => exact ⟨false, rfl, by simp [hb]⟩

theorem evaluateAny_iff (h : ∀ f ∈ fs, ∃ b, f.evaluate doc = .ok b) :
    ∃ b, evaluateAny doc fs = .ok b ∧ (b = true ↔ ∃ f ∈ fs, f.evaluate doc = .ok true) := by
  induction fs with
  | nil => exact ⟨false, rfl, by simp⟩
  | cons f fs ih =>
    obtain ⟨b, hb⟩ := h f (by simp)
    obtain ⟨rest, hrest, hiff⟩ := ih fun g hg => h g (List.mem_cons_of_mem _ hg)
    rw [evaluateAny, hb]
    cases b with
    | true => exact ⟨true, rfl, by simp [hb]⟩
    | false => exact ⟨rest, hrest, by simp [hb, hiff]⟩

end Filter

end DocGrid

import DocGrid.Proofs.Text.Case
import DocGrid.Proofs.Text.Split

/-! Texts joined by the space character. The space keeps them apart: what stands on its other side
has no influence on the small form of a letter, and what is looked for without a space is found in
one of the texts or not at all. -/

namespace DocGrid.Text

/-! Small letters on both sides of a space. -/

@[simp] theorem nextIsCased_append_space (cs ds : List Char) :
    nextIsCased (cs ++ ' ' :: ds) = nextIsCased cs := by
  have hspace : caseIgnorableChars.contains ' ' = false ∧ casedChars.contains ' ' = false := by
    decide +kernel
  induction cs with
  | nil =>
    unfold nextIsCased
    rw [List.nil_append, List.dropWhile_cons_of_neg (by simp [hspace.1])]
    exact hspace.2
  | cons c cs ih =>
    by_cases hc : caseIgnorableChars.contains c = true
    · unfold nextIsCased at ih ⊢
      rwa [List.cons_append, List.dropWhile_cons_of_pos hc, List.dropWhile_cons_of_pos hc]
    · unfold nextIsCased
      rw [List.cons_append, List.dropWhile_cons_of_neg hc, List.dropWhile_cons_of_neg hc]

@[simp]
theorem lowerBetween_space (before after : List Char) : lowerBetween before ' ' after = [' '] := by
  have hsmall : lowerChar ' ' = ' ' := by decide +kernel
  simp [lowerBetween, hsmall]

theorem lowerFrom_after_space (near far cs : List Char) :
    lowerFrom (near ++ ' ' :: far) cs = lowerFrom near cs := by
  induction cs generalizing near with
  | nil => rfl
  | cons c cs ih =>
    rw [lowerFrom, lowerFrom, lowerBetween, lowerBetween, nextIsCased_append_space]
    exact congrArg _ (ih (c :: near))

theorem lowerFrom_append_space (before cs ds : List Char) :
    lowerFrom before (cs ++ ' ' :: ds) = lowerFrom before cs ++ ' ' :: lower ds := by
  induction cs generalizing before with
  | nil =>
    change lowerBetween before ' ' ds ++ lowerFrom (' ' :: before) ds = ' ' :: lowerFrom [] ds
    rw [lowerBetween_space]
    exact congrArg (' ' :: ·) (lowerFrom_after_space [] before ds)
  | cons c cs ih =>
    rw [List.cons_append, lowerFrom, lowerFrom, ih, lowerBetween, lowerBetween,
      nextIsCased_append_space, List.append_assoc]

theorem lower_join (pieces : List (List Char)) :
    lower (join [' '] pieces) = join [' '] (pieces.map lower) := by
  induction pieces with
  | nil => rfl
  | cons p ps ih =>
    cases ps with
    | nil => rfl
    | cons q qs =>
      simp only [List.map_cons, join, List.append_assoc, List.singleton_append] at ih ⊢
      rw [← ih]
      exact lowerFrom_append_space [] p _

/-- No letter has the space as its small form. -/
theorem lowerChar_ne_space {c : Char} (h : c ≠ ' ') : lowerChar c ≠ ' ' := by
  have hruns : ∀ r ∈ caseRuns, 0x20 < (r.first : Int) + r.shift := by decide +kernel
  have hcode : lowerIn caseRuns c.toNat ≠ 0x20 := by
    rcases lowerIn_eq_or caseRuns c.toNat with heq | ⟨r, hr, hcovers, heq⟩
    · rw [heq]
      intro hspace
      exact h (Char.toNat_inj.mp hspace)
    · have hfirst : r.first ≤ c.toNat := by
        simp only [CaseRun.covers, Bool.and_eq_true, decide_eq_true_eq] at hcovers
        exact hcovers.1.1
      have hfar := hruns r hr
      rw [heq, CaseRun.apply]
      omega
  intro hspace
  by_cases hvalid : (lowerIn caseRuns c.toNat).isValidChar
  · have hchar : lowerChar c = Char.ofNatAux (lowerIn caseRuns c.toNat) hvalid := dif_pos hvalid
    exact hcode (congrArg Char.toNat (hchar.symm.trans hspace))
  · have hchar : lowerChar c = Char.ofNat 0 := dif_neg hvalid
    cases hchar.symm.trans hspace

theorem space_notMem_lower {cs : List Char} (h : ' ' ∉ cs) : ' ' ∉ lower cs := by
  have hfrom (before : List Char) : ' ' ∉ lowerFrom before cs := by
    induction cs generalizing before with
    | nil => exact List.not_mem_nil
    | cons c cs ih =>
      obtain ⟨hc, hcs⟩ := List.ne_and_not_mem_of_not_mem_cons h
      rw [lowerFrom, List.mem_append]
      rintro (hmem | hmem)
      · unfold lowerBetween at hmem
        split at hmem
        · split at hmem <;> simp at hmem
        · split at hmem
          · simp at hmem
          · exact lowerChar_ne_space hc.symm (List.mem_singleton.mp hmem).symm
      · exact ih hcs _ hmem
  exact hfrom []

theorem space_mem_lower {cs : List Char} (h : ' ' ∈ cs) : ' ' ∈ lower cs := by
  obtain ⟨before, after, rfl⟩ := List.append_of_mem h
  rw [lower, lowerFrom_append_space]
  exact List.mem_append_right _ List.mem_cons_self

theorem lower_ne_nil {cs : List Char} (h : cs ≠ []) : lower cs ≠ [] := by
  obtain ⟨c, rest, rfl⟩ := List.exists_cons_of_ne_nil h
  have hfirst : lowerBetween [] c rest ≠ [] := by
    unfold lowerBetween
    split
    · simp
    · split <;> simp
  exact List.append_ne_nil_of_left_ne_nil hfirst _

/-! Looking inside. -/

@[simp]
theorem startsWith_iff {needle cs : List Char} : startsWith needle cs = true ↔ needle <+: cs := by
  rw [startsWith, Option.isSome_iff_exists]
  exact exists_congr fun rest => dropLead?_eq_some_iff.trans eq_comm

@[simp]
theorem occursIn_iff {needle cs : List Char} : occursIn needle cs = true ↔ needle <:+: cs := by
  induction cs with
  | nil => simp [occursIn]
  | cons c cs ih => rw [occursIn, Bool.or_eq_true, startsWith_iff, ih, List.infix_cons_iff]

section Needle

variable {needle : List Char} {sep : Char}

theorem prefix_append_sep (hsep : sep ∉ needle) {a b : List Char} :
    needle <+: a ++ sep :: b ↔ needle <+: a := by
  induction a generalizing needle with
  | nil =>
    cases needle with
    | nil => simp
    | cons c cs =>
      have hc : c ≠ sep := fun heq => hsep (heq ▸ List.mem_cons_self)
      simp [List.cons_prefix_cons, hc]
  | cons x a ih =>
    cases needle with
    | nil => simp
    | cons c cs =>
      have hcs : sep ∉ cs := fun hmem => hsep (List.mem_cons_of_mem c hmem)
      rw [List.cons_append, List.cons_prefix_cons, List.cons_prefix_cons, ih hcs]

variable (hne : needle ≠ []) (hsep : sep ∉ needle)

include hne hsep

theorem infix_append_sep {a b : List Char} :
    needle <:+: a ++ sep :: b ↔ needle <:+: a ∨ needle <:+: b := by
  induction a with
  | nil =>
    have hnone : ¬needle <+: sep :: b := by
      rw [← List.nil_append (sep :: b), prefix_append_sep hsep]
      simpa using hne
    simp [List.infix_cons_iff, hnone, hne]
  | cons x a ih =>
    have hlead : needle <+: x :: (a ++ sep :: b) ↔ needle <+: x :: a :=
      prefix_append_sep (a := x :: a) hsep
    rw [List.cons_append, List.infix_cons_iff, ih, hlead, List.infix_cons_iff, or_assoc]

/-- What has no separator inside does not reach from one piece into the next. -/
theorem infix_join_iff {pieces : List (List Char)} :
    needle <:+: join [sep] pieces ↔ ∃ p ∈ pieces, needle <:+: p := by
  induction pieces with
  | nil => simp [join, hne]
  | cons p ps ih =>
    cases ps with
    | nil => simp [join]
    | cons q qs =>
      simp only [join, List.append_assoc, List.singleton_append] at ih ⊢
      rw [infix_append_sep hne hsep, ih]
      exact (List.exists_mem_cons_iff (needle <:+: ·) p (q :: qs)).symm

end Needle

theorem infix_join_of_mem {sep p : List Char} {pieces : List (List Char)} (h : p ∈ pieces) :
    p <:+: join sep pieces := by
  induction pieces with
  | nil => cases h
  | cons q qs ih =>
    cases qs with
    | nil =>
      obtain rfl := List.mem_singleton.mp h
      exact List.infix_refl _
    | cons r rs =>
      change p <:+: q ++ sep ++ join sep (r :: rs)
      rw [List.append_assoc]
      rcases List.mem_cons.mp h with rfl | h
      · exact (List.prefix_append _ _).isInfix
      · exact (ih h).trans ((List.suffix_append _ _).trans (List.suffix_append _ _)).isInfix

end DocGrid.Text

import DocGrid.Text.Case
import Mathlib.Data.List.Basic

/-! Characters that differ in case only. Every character is among its own variants, since the runs
of capital letters lead to no code point below zero. -/

namespace DocGrid.Text

theorem CaseRun.undo?_apply {r : CaseRun} {n : Nat} (hshift : 0 ≤ (r.first : Int) + r.shift)
    (h : r.covers n = true) : r.undo? (r.apply n) = some n := by
  have hfirst : r.first ≤ n := by
    simp only [covers, Bool.and_eq_true, decide_eq_true_eq] at h
    exact h.1.1
  have happly : ((r.apply n : Nat) : Int) = n + r.shift := by
    unfold apply
    omega
  have hback : ((r.apply n : Int) - r.shift).toNat = n := by
    rw [happly]
    omega
  simp [undo?, hback, h]

theorem lowerIn_eq_or (runs : List CaseRun) (n : Nat) :
    lowerIn runs n = n ∨ ∃ r ∈ runs, r.covers n = true ∧ lowerIn runs n = r.apply n := by
  induction runs with
  | nil => exact .inl rfl
  | cons r rest ih =>
    by_cases hbelow : n < r.first
    · exact .inl (by simp [lowerIn, hbelow])
    · by_cases hcovers : r.covers n = true
      · exact .inr ⟨r, by simp, hcovers, by simp [lowerIn, hbelow, hcovers]⟩
      · have hrest : lowerIn (r :: rest) n = lowerIn rest n := by
          simp [lowerIn, hbelow, hcovers]
        rw [hrest]
        rcases ih with h | ⟨q, hq, hcovers, h⟩
        · exact .inl h
        · exact .inr ⟨q, List.mem_cons_of_mem r hq, hcovers, h⟩

theorem shift_caseRuns : ∀ r ∈ caseRuns, 0 ≤ (r.first : Int) + r.shift := by
  decide +kernel

theorem mem_caseVariants_self (c : Char) : c ∈ caseVariants c := by
  have hcode : c.toNat ∈ lowerIn caseRuns c.toNat :: sharing (lowerIn caseRuns c.toNat) ++
      (lowerIn caseRuns c.toNat :: sharing (lowerIn caseRuns c.toNat)).flatMap
        (fun n => caseRuns.filterMap (·.undo? n)) := by
    rcases lowerIn_eq_or caseRuns c.toNat with h | ⟨r, hr, hcovers, h⟩
    · simp [h]
    · have hundo := CaseRun.undo?_apply (shift_caseRuns r hr) hcovers
      refine List.mem_append_right _ (List.mem_flatMap.mpr ⟨_, List.mem_cons_self, ?_⟩)
      exact List.mem_filterMap.mpr ⟨r, hr, h ▸ hundo⟩
  exact List.mem_map.mpr ⟨c.toNat, hcode, Char.ofNat_toNat c⟩

end DocGrid.Text

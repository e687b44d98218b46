import DocGrid.Proofs.Number.Nearest
import DocGrid.Store.Sql.Cell
import Mathlib.Algebra.Group.Nat.Defs

/-! Whole numbers of sixty-four bits round to finite doubles. -/

namespace DocGrid

namespace Binary64

theorem isInfinite_ofWord {negative : Bool} {w : Nat} (h : w / 0x10000000000000 < 2047) :
    (ofWord negative w).isInfinite = false := by
  have hne : w / 0x10000000000000 ≠ 2047 := by omega
  simp [ofWord, h, isInfinite, hne]

theorem isInfinite_ofUnits {negative : Bool} {n e : Nat} (h : n < 2 ^ e) (he : e ≤ 2000) :
    (ofUnits negative n 1).isInfinite = false := by
  have hlog : Nat.log2 n < e + 1 := by
    by_cases hn : n = 0
    · simp [hn]
    · have hlt := (Nat.log2_lt hn).mpr h
      omega
  have hsize : n < 2 ^ (Nat.log2 n - 52 + 53) :=
    Nat.lt_of_lt_of_le Nat.lt_log2_self (Nat.pow_le_pow_right (by decide) (by omega))
  have hshifted : n / 2 ^ (Nat.log2 n - 52) < 2 ^ 53 :=
    Nat.div_lt_of_lt_mul (by rwa [← Nat.pow_add])
  have hrounded := roundHalfEven_le n (1 * Nat.pow 2 (Nat.log2 n - 52))
  rw [Nat.one_mul] at hrounded
  unfold ofUnits
  simp only [Nat.div_one, Nat.one_mul]
  refine isInfinite_ofWord ?_
  have hrounded' : roundHalfEven n (Nat.pow 2 (Nat.log2 n - 52)) ≤ 2 ^ 53 :=
    Nat.le_trans hrounded hshifted
  omega

theorem unitsInOne_eq : ∃ k, k = 1074 ∧ unitsInOne = Nat.pow 2 k := by
  unfold unitsInOne
  exact ⟨_, rfl, rfl⟩

/-- Whole numbers of sixty-four bits are far from the largest double. -/
theorem ofInt?_of_fitsWord {n : Int} (h : Cell.fitsWord n = true) : ofInt? n = some (ofInt n) := by
  simp only [Cell.fitsWord, Bool.and_eq_true, decide_eq_true_eq] at h
  have hsize : n.natAbs < 2 ^ 64 := by omega
  obtain ⟨k, hk, hunits⟩ := unitsInOne_eq
  have hscaled : n.natAbs * unitsInOne < 2 ^ (64 + k) := by
    rw [hunits, Nat.pow_eq, Nat.pow_add]
    exact Nat.mul_lt_mul_of_pos_right hsize (Nat.two_pow_pos k)
  have hfinite : (ofInt n).isInfinite = false := isInfinite_ofUnits hscaled (by omega)
  simp [ofInt?, hfinite]

end Binary64

end DocGrid

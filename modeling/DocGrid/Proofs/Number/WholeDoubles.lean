import DocGrid.Proofs.Number.Rounding
import DocGrid.Proofs.Number.Texts

/-! Whole numbers of up to fifty-three binary digits are doubles, and the text of one is read as the
double that is worth as much. -/

namespace DocGrid

namespace Binary64

/-- Shifted so that fifty-three binary digits remain, a number with at most as many is a double. -/
theorem exists_units {m k : Nat} (hne : m ≠ 0) (hm : m < 2 ^ 53) (hlow : 52 ≤ k) (hhigh : k < 2046)
    (negative : Bool) :
    ∃ x : Binary64, x.isFinite = true ∧ x.negative = negative ∧ x.units = m * 2 ^ k := by
  have hlog : Nat.log2 m < 53 := (Nat.log2_lt hne).mpr hm
  obtain ⟨s, hs⟩ : ∃ s, Nat.log2 m + s = 52 := ⟨52 - Nat.log2 m, by omega⟩
  have hleast : 2 ^ 52 ≤ m * 2 ^ s := by
    calc 2 ^ 52 = 2 ^ Nat.log2 m * 2 ^ s := by rw [← Nat.pow_add, hs]
      _ ≤ m * 2 ^ s := Nat.mul_le_mul_right _ (Nat.log2_self_le hne)
  have hmost : m * 2 ^ s < 2 ^ 53 := by
    have hexp : Nat.log2 m + 1 + s = 53 := by omega
    calc m * 2 ^ s < 2 ^ (Nat.log2 m + 1) * 2 ^ s :=
          Nat.mul_lt_mul_of_pos_right Nat.lt_log2_self (Nat.two_pow_pos s)
      _ = 2 ^ 53 := by rw [← Nat.pow_add, hexp]
  -- The leading digit of the shifted number is the one that the fraction leaves out.
  refine ⟨⟨negative, ⟨k - s + 1, by omega⟩, ⟨m * 2 ^ s - 2 ^ 52, by omega⟩⟩, ?_, rfl, ?_⟩
  · have hexponent : k - s + 1 ≠ 2047 := by omega
    simpa [isFinite] using hexponent
  · have hfraction : 0x10000000000000 + (m * 2 ^ s - 2 ^ 52) = m * 2 ^ s := by omega
    have hexp : k = s + (k - s) := by omega
    simp only [units, Nat.succ_ne_zero, if_false, hfraction, Nat.add_sub_cancel, Nat.pow_eq]
    rw [Nat.mul_assoc, ← Nat.pow_add, ← hexp]

theorem isZero_eq_false {x : Binary64} (h : x.units ≠ 0) : x.isZero = false := by
  rw [Bool.eq_false_iff]
  intro hzero
  obtain ⟨hexponent, hfraction⟩ := Bool.and_eq_true_iff.mp hzero
  rw [beq_iff_eq] at hexponent hfraction
  exact h (by rw [units, if_pos hexponent, hfraction])

theorem near_self {u : Nat} (h : u ≠ 0) : Near u u 1 := by
  constructor <;> omega

theorem toRat_of_units {x : Binary64} {n : Nat} (h : x.units = n * unitsInOne) :
    x.toRat = if x.negative then -(n : Rat) else n := by
  have hone : (unitsInOne : Int) ≠ 0 := by exact_mod_cast unitsInOne_pos.ne'
  have hscaled (z : Int) : mkRat (z * unitsInOne) unitsInOne = z := by
    have hcancel := Rat.mkRat_mul_right (n := z) (d := 1) unitsInOne_pos.ne'
    rwa [Nat.one_mul, Rat.mkRat_one] at hcancel
  unfold toRat signedUnits
  rw [h]
  split
  · have hz := hscaled (-n)
    push_cast at hz ⊢
    rwa [neg_mul] at hz
  · exact_mod_cast hscaled n

theorem ofRatio_whole {n : Nat} (hne : n ≠ 0) (hn : n ≤ 2 ^ 53) (negative : Bool) :
    (ofRatio negative n 1).isFinite = true ∧ (ofRatio negative n 1).negative = negative ∧
      (ofRatio negative n 1).units = n * unitsInOne := by
  obtain ⟨k, hk, hunits⟩ := unitsInOne_eq
  have hdouble : ∃ x : Binary64, x.isFinite = true ∧ x.negative = negative ∧
      x.units = n * unitsInOne := by
    rw [hunits, Nat.pow_eq]
    by_cases hlast : n = 2 ^ 53
    · -- The one number with a digit more is a power of two.
      obtain ⟨x, hfinite, hsign, hx⟩ :=
        exists_units (m := 1) (k := 53 + k) (by decide) (by decide) (by omega) (by omega) negative
      refine ⟨x, hfinite, hsign, ?_⟩
      rw [hx, hlast, Nat.one_mul, Nat.pow_add]
    · exact exists_units hne (by omega) (by omega) (by omega) negative
  obtain ⟨x, hfinite, rfl, hx⟩ := hdouble
  have hpos : x.units ≠ 0 := by
    rw [hx]
    exact Nat.mul_ne_zero hne unitsInOne_pos.ne'
  have hratio : ofRatio x.negative n 1 = x := by
    rw [ofRatio, ← hx]
    exact ofUnits_of_near hfinite (near_self hpos)
  rw [hratio]
  exact ⟨hfinite, rfl, hx⟩

theorem quantity_of_finite {x : Binary64} (h : x.isFinite = true) :
    Quantity.ofBinary64 x = some (.exact x.toRat) := by
  have hexponent : x.exponent.val ≠ 2047 := by simpa [isFinite] using h
  simp [Quantity.ofBinary64, isNaN, isInfinite, hexponent]

end Binary64

namespace Reading

theorem size?_digits {ds : List Char} (hne : ds ≠ []) (hds : ∀ c ∈ ds, c.isDigit = true)
    (negative : Bool) : size? negative ds = some (nearest negative (natOf ds) 0) := by
  have hi (word : List Char) := lower_ne_word hne hds [] 'i' word rfl
  have hn (word : List Char) := lower_ne_word hne hds [] 'n' word rfl
  have htake := takeWhile_digits hds stops_nil
  have hdrop := dropWhile_digits hds stops_nil
  rw [List.append_nil] at hi hn htake hdrop
  simp [size?, hi, hn, htake, hdrop, hne, exponent?]

theorem quantity_nearest {n : Nat} (hn : n ≤ 2 ^ 53) (negative : Bool) :
    Quantity.ofBinary64 (nearest negative n 0) =
      some (.exact (if negative then -(n : Rat) else n)) := by
  by_cases hne : n = 0
  · subst hne
    have hzero : nearest negative 0 0 = Binary64.zero negative := by simp [nearest]
    have hfinite : (Binary64.zero negative).isFinite = true := by
      simp [Binary64.isFinite, Binary64.zero]
    have hunits : (Binary64.zero negative).units = 0 * Binary64.unitsInOne := by
      simp [Binary64.units, Binary64.zero]
    rw [hzero, Binary64.quantity_of_finite hfinite, Binary64.toRat_of_units hunits]
    rfl
  · obtain ⟨hfinite, hsign, hunits⟩ := Binary64.ofRatio_whole hne hn negative
    have hread : Scaled.toBinary64 negative ⟨n, 0⟩ = Binary64.ofRatio negative n 1 := by
      simp [Scaled.toBinary64]
    have hzero : (Binary64.ofRatio negative n 1).isZero = false := by
      apply Binary64.isZero_eq_false
      rw [hunits]
      exact Nat.mul_ne_zero hne Binary64.unitsInOne_pos.ne'
    rw [nearest_eq hread hfinite hzero, Binary64.quantity_of_finite hfinite,
      Binary64.toRat_of_units hunits, hsign]

/-- The text of a whole number is read as a double of the same worth, as long as doubles are no
further apart than one. -/
theorem float?_toString {n : Int} (h : n.natAbs ≤ 2 ^ 53) :
    ∃ x, float? (toString n) = some x ∧ Quantity.ofBinary64 x = some (.ofInt n) := by
  have hnumeral := isNumeral_digits n.natAbs
  refine ⟨nearest (decide (n < 0)) n.natAbs 0, ?_, ?_⟩
  · simp only [float?, toList_toString_int, joined_numeral (hnumeral.chars_withSign _),
      Option.bind_eq_bind, Option.bind_some, hnumeral.splitSign_withSign,
      size?_digits Nat.toDigits_ne_nil (fun _ => Text.isDigit_of_mem_digits), natOf_toDigits]
  · have hvalue : (if decide (n < 0) = true then -(n.natAbs : Rat) else n.natAbs) = (n : Rat) := by
      rcases Int.lt_or_le n 0 with hn | hn
      · have hneg : (n.natAbs : Int) = -n := by omega
        rw [if_pos (decide_eq_true hn), ← Int.cast_natCast, hneg]
        simp
      · have hpos : (n.natAbs : Int) = n := by omega
        rw [if_neg (by simpa using hn), ← Int.cast_natCast, hpos]
    rw [quantity_nearest h, hvalue]
    rfl

end Reading

end DocGrid

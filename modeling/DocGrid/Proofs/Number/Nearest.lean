import DocGrid.Number.Binary64
import Mathlib.Tactic.Ring

/-! A fraction that is closer to a double than half of the distance to the next one, on either side,
is rounded to it. Below a power of two the next one is only half as far away as above. -/

namespace DocGrid.Binary64

theorem roundHalfEven_cases (n d : Nat) :
    roundHalfEven n d = n / d ∧ 2 * (n % d) ≤ d ∨
      roundHalfEven n d = n / d + 1 ∧ d ≤ 2 * (n % d) := by
  unfold roundHalfEven
  simp only
  split
  · omega
  · split
    · omega
    · split <;> omega

theorem div_le_roundHalfEven (n d : Nat) : n / d ≤ roundHalfEven n d := by
  have h := roundHalfEven_cases n d
  omega

theorem roundHalfEven_le (n d : Nat) : roundHalfEven n d ≤ n / d + 1 := by
  have h := roundHalfEven_cases n d
  omega

theorem roundHalfEven_spec {d : Nat} (hd : 0 < d) (n : Nat) :
    2 * (roundHalfEven n d * d) ≤ 2 * n + d ∧ 2 * n ≤ 2 * (roundHalfEven n d * d) + d := by
  have hn := Nat.div_add_mod' n d
  have hr := Nat.mod_lt n hd
  have hnext : (n / d + 1) * d = n / d * d + d := Nat.succ_mul _ _
  rcases roundHalfEven_cases n d with ⟨he, h⟩ | ⟨he, h⟩ <;> rw [he] <;> omega

theorem roundHalfEven_eq {n d m : Nat} (hlow : 2 * (m * d) < 2 * n + d)
    (hhigh : 2 * n < 2 * (m * d) + d) : roundHalfEven n d = m := by
  have hd : 0 < d := by omega
  obtain ⟨hle, hge⟩ := roundHalfEven_spec hd n
  generalize roundHalfEven n d = r at hle hge
  have hup : r * d < (m + 1) * d := by
    rw [Nat.succ_mul]
    omega
  have hdown : m * d < (r + 1) * d := by
    rw [Nat.succ_mul]
    omega
  have := Nat.lt_of_mul_lt_mul_right hup
  have := Nat.lt_of_mul_lt_mul_right hdown
  omega

/-- Closer to `u` than one part in `2 ^ 54` of it. -/
structure Near (u n d : Nat) : Prop where
  low : u * d * 2 ^ 54 < n * 2 ^ 54 + u * d
  high : n * 2 ^ 54 < u * d * 2 ^ 54 + u * d

theorem ofWord_own {x : Binary64} (h : x.isFinite = true) :
    ofWord x.negative (x.exponent.val * 0x10000000000000 + x.fraction.val) = x := by
  obtain ⟨negative, ⟨e, he⟩, ⟨f, hf⟩⟩ := x
  have hne : e ≠ 2047 := by simpa [isFinite] using h
  have hdiv : (e * 0x10000000000000 + f) / 0x10000000000000 = e := by omega
  have hmod : (e * 0x10000000000000 + f) % 0x10000000000000 = f := by omega
  have hlt : e < 2047 := by omega
  simp only [ofWord, hdiv, hmod, hlt, dite_true]

/-- The size of a fraction says how large the units are in which it is rounded. -/
theorem ofUnits_of_log {n d k : Nat} (hlow : k = 0 ∨ 2 ^ 52 * (d * 2 ^ k) ≤ n)
    (hhigh : n < 2 ^ 53 * (d * 2 ^ k)) (negative : Bool) :
    ofUnits negative n d =
      ofWord negative (k * 0x10000000000000 + roundHalfEven n (d * 2 ^ k)) := by
  have hpow (j : Nat) : 2 ^ j * (d * 2 ^ k) = 2 ^ (j + k) * d := by ring
  rw [hpow] at hlow hhigh
  have hd : 0 < d := by
    rcases Nat.eq_zero_or_pos d with rfl | hd
    · simp at hhigh
    · exact hd
  have hlt : n / d < 2 ^ (53 + k) := (Nat.div_lt_iff_lt_mul hd).mpr hhigh
  have hlog : Nat.log2 (n / d) - 52 = k := by
    by_cases hq : n / d = 0
    · rcases hlow with rfl | hlow
      · simp [hq]
      · have hle := (Nat.le_div_iff_mul_le hd).mpr hlow
        have := Nat.two_pow_pos (52 + k)
        omega
    · have hupper := (Nat.log2_lt hq).mpr hlt
      rcases hlow with rfl | hlow
      · omega
      · have hlower := (Nat.le_log2 hq).mpr ((Nat.le_div_iff_mul_le hd).mpr hlow)
        omega
  simp only [ofUnits, hlog, Nat.pow_eq]

section Significant

variable {m n D : Nat}

theorem roundHalfEven_of_near (hm : m < 2 ^ 53) (hlow : m * D * 2 ^ 54 < n * 2 ^ 54 + m * D)
    (hhigh : n * 2 ^ 54 < m * D * 2 ^ 54 + m * D) : roundHalfEven n D = m := by
  have hD : m * D ≤ 2 ^ 53 * D := Nat.mul_le_mul_right D hm.le
  exact roundHalfEven_eq (by omega) (by omega)

theorem lt_of_near (hm : m < 2 ^ 53) (hhigh : n * 2 ^ 54 < m * D * 2 ^ 54 + m * D) :
    n < 2 ^ 53 * D := by
  have hD : m * D ≤ (2 ^ 53 - 1) * D := Nat.mul_le_mul_right D (by omega)
  omega

end Significant

/-- Where all units count, the units are the word. -/
theorem ofUnits_of_near_small {x : Binary64} (hx : x.isFinite = true) (he : x.exponent.val ≤ 1)
    {n d : Nat} (h : Near x.units n d) : ofUnits x.negative n d = x := by
  have hunits : x.units = x.exponent.val * 0x10000000000000 + x.fraction.val := by
    unfold units
    split
    · omega
    · have hone : x.exponent.val = 1 := by omega
      simp [hone]
  have hf := x.fraction.isLt
  have hm : x.units < 2 ^ 53 := by omega
  obtain ⟨hlow, hhigh⟩ := h
  have hlog := ofUnits_of_log (.inl rfl) (by simpa using lt_of_near hm hhigh) x.negative
  rw [hlog, Nat.pow_zero, Nat.mul_one, roundHalfEven_of_near hm hlow hhigh, hunits, Nat.zero_mul,
    Nat.zero_add, ofWord_own hx]

/-- Just below a power of two the units are half as large as above. -/
theorem ofUnits_of_near_below {x : Binary64} (hx : x.isFinite = true) {k n d : Nat}
    (he : x.exponent.val = k + 2) (hf : x.fraction.val = 0) (hbelow : n < 2 ^ 53 * (d * 2 ^ k))
    (hlow : 2 ^ 53 * (d * 2 ^ k) * 2 ^ 54 < n * 2 ^ 54 + 2 ^ 53 * (d * 2 ^ k)) :
    ofUnits x.negative n d = x := by
  have hround : roundHalfEven n (d * 2 ^ k) = 2 ^ 53 := roundHalfEven_eq (by omega) (by omega)
  have hword : k * 0x10000000000000 + 2 ^ 53 =
      x.exponent.val * 0x10000000000000 + x.fraction.val := by omega
  rw [ofUnits_of_log (.inr (by omega)) hbelow, hround, hword, ofWord_own hx]

theorem ofUnits_of_near_large {x : Binary64} (hx : x.isFinite = true) {k : Nat}
    (he : x.exponent.val = k + 2) {n d : Nat} (h : Near x.units n d) :
    ofUnits x.negative n d = x := by
  have hf := x.fraction.isLt
  let m := 0x10000000000000 + x.fraction.val
  let D := d * 2 ^ (k + 1)
  have hm : m < 2 ^ 53 := by omega
  have hunits : x.units * d = m * D := by
    have hne : x.exponent.val ≠ 0 := by omega
    have hpred : x.exponent.val - 1 = k + 1 := by omega
    simp only [units, hne, if_false, hpred, m, D, Nat.pow_eq]
    ring
  obtain ⟨hlow, hhigh⟩ := h
  rw [hunits] at hlow hhigh
  -- Just below a power of two there is one binary digit less to round to.
  by_cases hbelow : n < 2 ^ 52 * D
  · have hzero : x.fraction.val = 0 := by
      by_contra hne
      have hD : (2 ^ 52 + 1) * D ≤ m * D := Nat.mul_le_mul_right D (by omega)
      omega
    have hhalf : 2 ^ 52 * D = 2 ^ 53 * (d * 2 ^ k) := by
      simp only [D]
      ring
    rw [show m = 2 ^ 52 by omega, hhalf] at hlow
    rw [hhalf] at hbelow
    exact ofUnits_of_near_below hx he hzero hbelow hlow
  · have hword : (k + 1) * 0x10000000000000 + m =
        x.exponent.val * 0x10000000000000 + x.fraction.val := by omega
    rw [ofUnits_of_log (.inr (by omega)) (lt_of_near hm hhigh), roundHalfEven_of_near hm hlow hhigh,
      hword, ofWord_own hx]

theorem ofUnits_of_near {x : Binary64} (hx : x.isFinite = true) {n d : Nat}
    (h : Near x.units n d) : ofUnits x.negative n d = x := by
  by_cases he : x.exponent.val ≤ 1
  · exact ofUnits_of_near_small hx he h
  · obtain ⟨k, hk⟩ : ∃ k, x.exponent.val = k + 2 := ⟨x.exponent.val - 2, by omega⟩
    exact ofUnits_of_near_large hx hk h

end DocGrid.Binary64

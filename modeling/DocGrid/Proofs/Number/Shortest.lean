import DocGrid.Proofs.Number.Rounding

/-! The shortest digits of a double read back as the double. Seventeen digits are within one part
in `2 * 10 ^ 16` of it, which is less than half of the distance to the next double. -/

namespace DocGrid

namespace Scaled

theorem digitCount_le_iff {n k : Nat} (hk : 0 < k) : digitCount n ≤ k ↔ n < 10 ^ k :=
  Nat.length_toDigits_le_iff (by decide) hk

theorem digitCount_pos (n : Nat) : 0 < digitCount n :=
  Nat.length_toDigits_pos

theorem lt_pow_digitCount (n : Nat) : n < 10 ^ digitCount n :=
  (digitCount_le_iff (digitCount_pos n)).mp (Nat.le_refl _)

theorem pow_digitCount_le {n : Nat} (hn : n ≠ 0) : 10 ^ (digitCount n - 1) ≤ n := by
  by_cases hone : digitCount n = 1
  · rw [hone]
    exact Nat.pos_of_ne_zero hn
  · have hpos := digitCount_pos n
    by_contra hlt
    have := (digitCount_le_iff (by omega)).mpr (Nat.lt_of_not_le hlt)
    omega

theorem pow_digitCount_div_le {n d : Nat} (hd : 0 < d) (h : d ≤ n) :
    10 ^ (digitCount (n / d) - 1) * d ≤ n :=
  (Nat.le_div_iff_mul_le hd).mp (pow_digitCount_le (Nat.div_pos h hd).ne')

end Scaled

namespace Binary64

theorem unitsInOne_pos : 0 < unitsInOne := by
  obtain ⟨k, -, h⟩ := unitsInOne_eq
  rw [h]
  exact Nat.two_pow_pos k

theorem unitsInOne_lt_pow {e : Nat} (he : 400 ≤ e) : 2 * unitsInOne < 10 ^ e := by
  obtain ⟨k, hk, h⟩ := unitsInOne_eq
  obtain ⟨m, hm⟩ : ∃ m, m = 83 := ⟨_, rfl⟩
  calc 2 * unitsInOne = 2 ^ (k + 1) := by rw [h, Nat.pow_eq, Nat.pow_succ, Nat.mul_comm]
    _ ≤ 2 ^ (13 * m) := Nat.pow_le_pow_right (by decide) (by omega)
    _ = (2 ^ 13) ^ m := Nat.pow_mul ..
    _ ≤ (10 ^ 4) ^ m := Nat.pow_le_pow_left (by decide) _
    _ = 10 ^ (4 * m) := (Nat.pow_mul ..).symm
    _ < 10 ^ e := Nat.pow_lt_pow_right (by decide) (by omega)

section Multiples

variable {k : Nat} (hk : 0 < k) (n d : Nat)

include hk

theorem roundHalfEven_mul : roundHalfEven (n * k) (d * k) = roundHalfEven n d := by
  have hbelow : 2 * (n % d * k) < d * k ↔ 2 * (n % d) < d := by
    rw [← Nat.mul_assoc]
    exact Nat.mul_lt_mul_right hk
  have habove : d * k < 2 * (n % d * k) ↔ d < 2 * (n % d) := by
    rw [← Nat.mul_assoc]
    exact Nat.mul_lt_mul_right hk
  simp only [roundHalfEven, Nat.mul_div_mul_right _ _ hk, Nat.mul_mod_mul_right, hbelow, habove]

theorem ofUnits_mul (negative : Bool) : ofUnits negative (n * k) (d * k) = ofUnits negative n d := by
  simp only [ofUnits, Nat.mul_div_mul_right _ _ hk, Nat.mul_right_comm d k,
    roundHalfEven_mul hk]

theorem ofRatio_mul (negative : Bool) : ofRatio negative (n * k) (d * k) = ofRatio negative n d := by
  rw [ofRatio, ofRatio, Nat.mul_right_comm, ofUnits_mul hk]

end Multiples

theorem ofUnits_of_small {n d : Nat} (h : 2 * n < d) (negative : Bool) :
    ofUnits negative n d = zero negative := by
  have hdiv : n / d = 0 := Nat.div_eq_of_lt (by omega)
  have hround : roundHalfEven n (d * Nat.pow 2 0) = 0 :=
    roundHalfEven_eq (by simp; omega) (by simpa using h)
  simp only [ofUnits, hdiv, show Nat.log2 0 - 52 = 0 from rfl, hround]
  rfl

theorem ofUnits_of_large {n d e : Nat} (hd : 0 < d) (he : 2098 ≤ e) (h : 2 ^ e * d ≤ n)
    (negative : Bool) : ofUnits negative n d = infinity negative := by
  have hq : 2 ^ e ≤ n / d := (Nat.le_div_iff_mul_le hd).mpr h
  have hne : n / d ≠ 0 := by
    have := Nat.two_pow_pos e
    omega
  have hlog : e ≤ Nat.log2 (n / d) := (Nat.le_log2 hne).mpr hq
  obtain ⟨s, hs⟩ : ∃ s, Nat.log2 (n / d) = s + 52 := ⟨Nat.log2 (n / d) - 52, by omega⟩
  have hround : 0x10000000000000 ≤ roundHalfEven n (d * Nat.pow 2 s) := by
    have hle := div_le_roundHalfEven n (d * Nat.pow 2 s)
    have hself : 2 ^ (s + 52) ≤ n / d := hs ▸ Nat.log2_self_le hne
    rw [Nat.add_comm, Nat.pow_add] at hself
    rw [← Nat.div_div_eq_div_mul] at hle
    exact Nat.le_trans ((Nat.le_div_iff_mul_le (Nat.two_pow_pos s)).mpr hself) hle
  simp only [ofUnits, hs, Nat.add_sub_cancel, ofWord]
  rw [dif_neg]
  omega

end Binary64

namespace Scaled

theorem toBinary64_mk (negative : Bool) (s : Scaled) :
    toBinary64 negative ⟨s.digits, s.scale⟩ = s.toBinary64 negative := rfl

theorem toBinary64_mul_pow (negative : Bool) (digits j : Nat) (scale : Int) :
    toBinary64 negative ⟨digits * 10 ^ j, scale⟩ = toBinary64 negative ⟨digits, scale + j⟩ := by
  unfold toBinary64
  simp only [Nat.pow_eq]
  by_cases hs : 0 ≤ scale
  · have hexp : (scale + j).toNat = j + scale.toNat := by omega
    rw [if_pos hs, if_pos (by omega), hexp, Nat.pow_add, Nat.mul_assoc]
  · rw [if_neg hs]
    by_cases hsum : 0 ≤ scale + j
    · have hexp : j = (scale + j).toNat + (-scale).toNat := by omega
      have hpos : 0 < 10 ^ (-scale).toNat := Nat.pow_pos (by decide)
      rw [if_pos hsum, ← Binary64.ofRatio_mul hpos (digits * 10 ^ (scale + j).toNat),
        Nat.mul_assoc, ← Nat.pow_add, ← hexp, Nat.one_mul]
    · have hexp : (-scale).toNat = (-(scale + j)).toNat + j := by omega
      rw [if_neg hsum, hexp, Nat.pow_add, Binary64.ofRatio_mul (Nat.pow_pos (by decide))]

theorem toBinary64_trimZeros (negative : Bool) (fuel : Nat) (s : Scaled) :
    (trimZeros fuel s).toBinary64 negative = s.toBinary64 negative := by
  induction fuel generalizing s with
  | zero => rfl
  | succ fuel ih =>
    rw [trimZeros]
    split
    · next h =>
      have hdigits : s.digits / 10 * 10 ^ 1 = s.digits := by omega
      rw [ih, ← Int.natCast_one, ← toBinary64_mul_pow, hdigits]
    · rfl

theorem toBinary64_zero (negative : Bool) (scale : Int) :
    toBinary64 negative ⟨0, scale⟩ = Binary64.zero negative := by
  have hpow : 0 < Nat.pow 10 (-scale).toNat := Nat.pow_pos (by decide)
  simp only [toBinary64, Binary64.ofRatio, Nat.zero_mul]
  split
  · exact Binary64.ofUnits_of_small (by decide) negative
  · exact Binary64.ofUnits_of_small hpow negative

theorem toBinary64_of_small {digits : Nat} {scale : Int}
    (h : (digitCount digits : Int) + scale < -400) (negative : Bool) :
    toBinary64 negative ⟨digits, scale⟩ = Binary64.zero negative := by
  obtain ⟨e, he, hscale⟩ : ∃ e, 400 ≤ e ∧ (-scale).toNat = digitCount digits + e :=
    ⟨(-scale).toNat - digitCount digits, by omega, by omega⟩
  have hlt : 2 * (digits * Binary64.unitsInOne) < 10 ^ (-scale).toNat := by
    calc 2 * (digits * Binary64.unitsInOne) = digits * (2 * Binary64.unitsInOne) :=
          Nat.mul_left_comm ..
      _ ≤ digits * 10 ^ e := Nat.mul_le_mul_left _ (Binary64.unitsInOne_lt_pow he).le
      _ < 10 ^ digitCount digits * 10 ^ e :=
        Nat.mul_lt_mul_of_pos_right (lt_pow_digitCount digits) (Nat.pow_pos (by decide))
      _ = 10 ^ (-scale).toNat := by rw [hscale, Nat.pow_add]
  rw [toBinary64, if_neg (by dsimp only; omega), Binary64.ofRatio]
  exact Binary64.ofUnits_of_small hlt negative

theorem toBinary64_of_large {digits : Nat} {scale : Int} (hd : digits ≠ 0)
    (h : 400 < (digitCount digits : Int) + scale) (negative : Bool) :
    toBinary64 negative ⟨digits, scale⟩ = Binary64.infinity negative := by
  obtain ⟨k, hk, hunits⟩ := Binary64.unitsInOne_eq
  -- The bound has a name so that its powers are not worked out.
  obtain ⟨m, hm⟩ : ∃ m, m = 400 := ⟨_, rfl⟩
  have hlead := pow_digitCount_le hd
  have htwo : 2 ^ (3 * m) ≤ 10 ^ m := by
    rw [Nat.pow_mul]
    exact Nat.pow_le_pow_left (by decide) m
  have hsize {n d : Nat} (hn : 10 ^ m * d ≤ n) :
      2 ^ (3 * m + k) * d ≤ n * Binary64.unitsInOne := by
    calc 2 ^ (3 * m + k) * d = 2 ^ (3 * m) * d * 2 ^ k := by
          rw [Nat.pow_add, Nat.mul_right_comm]
      _ ≤ n * 2 ^ k := Nat.mul_le_mul_right _ ((Nat.mul_le_mul_right d htwo).trans hn)
      _ = n * Binary64.unitsInOne := by rw [hunits, Nat.pow_eq]
  unfold toBinary64 Binary64.ofRatio
  simp only [Nat.pow_eq]
  split
  · next hs =>
    refine Binary64.ofUnits_of_large (by decide) (by omega) (hsize ?_) negative
    calc 10 ^ m * 1 = 10 ^ m := Nat.mul_one _
      _ ≤ 10 ^ (digitCount digits - 1 + scale.toNat) :=
        Nat.pow_le_pow_right (by decide) (by omega)
      _ ≤ digits * 10 ^ scale.toNat := by
        rw [Nat.pow_add]
        exact Nat.mul_le_mul_right _ hlead
  · next hs =>
    refine Binary64.ofUnits_of_large (Nat.pow_pos (by decide)) (by omega) (hsize ?_) negative
    calc 10 ^ m * 10 ^ (-scale).toNat = 10 ^ (m + (-scale).toNat) := (Nat.pow_add ..).symm
      _ ≤ 10 ^ (digitCount digits - 1) := Nat.pow_le_pow_right (by decide) (by omega)
      _ ≤ digits := hlead

end Scaled

/-- The bounds on the size do not cut off anything that is a double. -/
theorem Reading.nearest_eq {digits : Nat} {scale : Int} {negative : Bool} {x : Binary64}
    (h : Scaled.toBinary64 negative ⟨digits, scale⟩ = x) (hx : x.isFinite = true)
    (hzero : x.isZero = false) : nearest negative digits scale = x := by
  have hne : x ≠ Binary64.zero negative := by
    rintro rfl
    simp [Binary64.isZero, Binary64.zero] at hzero
  have hfinite : x ≠ Binary64.infinity negative := by
    rintro rfl
    exact Bool.false_ne_true hx
  have hd : digits ≠ 0 := by
    rintro rfl
    exact hne (h.symm.trans (Scaled.toBinary64_zero negative scale))
  have hlow : ¬(Scaled.digitCount digits : Int) + scale < -400 :=
    fun hlow => hne (h.symm.trans (Scaled.toBinary64_of_small hlow negative))
  have hhigh : ¬400 < (Scaled.digitCount digits : Int) + scale :=
    fun hhigh => hfinite (h.symm.trans (Scaled.toBinary64_of_large hd hhigh negative))
  simp only [nearest, hd, hlow, hhigh, or_self, if_false, h]

namespace Binary64

theorem decimalExponent_eq (x : Binary64) : ∃ e, e = 400 ∧
    x.decimalExponent = (Scaled.digitCount (x.units * Nat.pow 10 e / unitsInOne) : Int) - 401 := by
  unfold decimalExponent
  exact ⟨_, rfl, rfl⟩

/-- With `c` digits before the point after a shift by `e`, the unit of the seventeenth digit is
at most one part in `10 ^ 16`. -/
theorem pow_mul_overScale_le {x : Binary64} {c e : Nat} {scale : Int} (hc : 0 < c)
    (hscale : scale + 17 = c - e) (h : 10 ^ (c - 1) * unitsInOne ≤ x.units * 10 ^ e) :
    10 ^ 16 * (x.overScale scale).2 ≤ (x.overScale scale).1 := by
  refine Nat.le_of_mul_le_mul_right ?_ (Nat.pow_pos (by decide) : 0 < 10 ^ e)
  unfold overScale
  simp only [Nat.pow_eq]
  generalize unitsInOne = one at h ⊢
  split
  · obtain ⟨j, hj⟩ : ∃ j, scale.toNat = j := ⟨_, rfl⟩
    have hexp : c - 1 = 16 + j + e := by omega
    calc 10 ^ 16 * (one * 10 ^ scale.toNat) * 10 ^ e =
        10 ^ (16 + j + e) * one := by
          rw [hj, Nat.pow_add, Nat.pow_add]
          ring
      _ ≤ x.units * 10 ^ e := hexp ▸ h
  · obtain ⟨j, hj⟩ : ∃ j, (-scale).toNat = j := ⟨_, rfl⟩
    have hexp : 16 + e = c - 1 + j := by omega
    calc 10 ^ 16 * one * 10 ^ e = 10 ^ (16 + e) * one := by
          rw [Nat.pow_add]
          ring
      _ = 10 ^ (c - 1) * one * 10 ^ j := by
          rw [hexp, Nat.pow_add]
          ring
      _ ≤ x.units * 10 ^ e * 10 ^ j := Nat.mul_le_mul_right _ h
      _ = x.units * 10 ^ (-scale).toNat * 10 ^ e := by
          rw [hj]
          ring

theorem pow_mul_overScale_seventeen_le {x : Binary64} (hx : x.units ≠ 0) :
    10 ^ 16 * (x.overScale (x.decimalExponent + 1 - 17)).2 ≤
      (x.overScale (x.decimalExponent + 1 - 17)).1 := by
  obtain ⟨e, he, hexponent⟩ := x.decimalExponent_eq
  rw [Nat.pow_eq] at hexponent
  have hle : unitsInOne ≤ x.units * 10 ^ e := by
    calc unitsInOne ≤ 2 * unitsInOne := Nat.le_mul_of_pos_left _ (by decide)
      _ ≤ 10 ^ e := (unitsInOne_lt_pow he.ge).le
      _ ≤ x.units * 10 ^ e := Nat.le_mul_of_pos_left _ (Nat.pos_of_ne_zero hx)
  exact pow_mul_overScale_le (Scaled.digitCount_pos _) (by omega)
    (Scaled.pow_digitCount_div_le unitsInOne_pos hle)

theorem toBinary64_overScale (x : Binary64) (scale : Int) :
    ∃ D, (x.overScale scale).1 = x.units * D ∧ 0 < (x.overScale scale).2 ∧ ∀ m negative,
      Scaled.toBinary64 negative ⟨m, scale⟩ =
        ofUnits negative (m * (x.overScale scale).2) D := by
  have hone := unitsInOne_pos
  unfold overScale Scaled.toBinary64 ofRatio
  simp only [Nat.pow_eq]
  generalize unitsInOne = one at hone ⊢
  split
  · refine ⟨1, (Nat.mul_one _).symm, Nat.mul_pos hone (Nat.pow_pos (by decide)), ?_⟩
    intro m negative
    rw [Nat.mul_assoc, Nat.mul_comm one]
  · exact ⟨_, rfl, hone, fun _ _ => rfl⟩

theorem near_of_round {u n d D : Nat} (hn : n = u * D) (hd : 0 < d) (h : 10 ^ 16 * d ≤ n) :
    Near u (roundHalfEven n d * d) D := by
  obtain ⟨hle, hge⟩ := roundHalfEven_spec hd n
  generalize roundHalfEven n d * d = r at hle hge
  constructor <;> omega

theorem near_eq_roundHalfEven (n d : Nat) (scale : Int) :
    (if roundHalfEven n d = n / d then (⟨n / d, scale⟩ : Scaled) else ⟨n / d + 1, scale⟩) =
      ⟨roundHalfEven n d, scale⟩ := by
  have hlow := div_le_roundHalfEven n d
  have hhigh := roundHalfEven_le n d
  split
  · next h => rw [h]
  · next h =>
    congr
    omega

theorem toBinary64_of_shortWith? {x : Binary64} {count : Nat} {s : Scaled}
    (h : x.shortWith? count = some s) : s.toBinary64 x.negative = x := by
  obtain ⟨near, far, hpick⟩ : ∃ near far : Scaled, x.shortWith? count =
      if near.toBinary64 x.negative = x then some near
      else if far.toBinary64 x.negative = x then some far else none := ⟨_, _, rfl⟩
  rw [hpick] at h
  split at h
  · next hnear => rwa [← Option.some.inj h]
  · split at h
    · next hfar => rwa [← Option.some.inj h]
    · cases h

theorem units_ne_zero {x : Binary64} (h : x.isZero = false) : x.units ≠ 0 := by
  unfold units
  split
  · next he => simpa [isZero, he] using h
  · exact (Nat.mul_pos (by omega) (Nat.two_pow_pos _)).ne'

theorem shortWith?_seventeen {x : Binary64} (hx : x.isFinite = true) (hzero : x.isZero = false) :
    (x.shortWith? 17).isSome = true := by
  have hlarge := pow_mul_overScale_seventeen_le (units_ne_zero hzero)
  obtain ⟨D, hn, hd, hread⟩ := x.toBinary64_overScale (x.decimalExponent + 1 - 17)
  have hnear := ofUnits_of_near hx (near_of_round hn hd hlarge)
  simp only [shortWith?, Nat.cast_ofNat, near_eq_roundHalfEven, hread, hnear, if_true,
    Option.isSome_some]

/-- The shortest digits of a double read back as the double. -/
theorem toBinary64_shortest {x : Binary64} (hx : x.isFinite = true) (hzero : x.isZero = false) :
    Scaled.toBinary64 x.negative ⟨x.shortest.digits, x.shortest.scale⟩ = x := by
  have hfound : ((List.range 17).findSome? fun n => x.shortWith? (n + 1)).isSome = true :=
    List.findSome?_isSome_iff.mpr ⟨16, by simp, shortWith?_seventeen hx hzero⟩
  obtain ⟨s, hs⟩ := Option.isSome_iff_exists.mp hfound
  obtain ⟨count, -, hcount⟩ := List.exists_of_findSome?_eq_some hs
  have hshortest : x.shortest = Scaled.trimZeros 20 s := by
    simp only [shortest, hs, Option.getD_some]
  rw [hshortest, Scaled.toBinary64_mk, Scaled.toBinary64_trimZeros]
  exact toBinary64_of_shortWith? hcount

end Binary64

end DocGrid

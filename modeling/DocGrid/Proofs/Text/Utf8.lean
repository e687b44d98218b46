import DocGrid.Text.Utf8
import Mathlib.Data.List.Basic
import Mathlib.Data.Char
import Mathlib.Order.Basic

/-! Octets are read as the text that they encode: of every text its encoding, and nothing else. -/

namespace DocGrid.Text

theorem isTail_iff {b : UInt8} : isTail b = true ↔ 0x80 ≤ b.toNat ∧ b.toNat ≤ 0xBF := by
  simp [isTail, UInt8.le_iff_toNat_le]

inductive Encodes : Nat → List UInt8 → Prop
  | one {a : UInt8} (h : a.toNat < 0x80) : Encodes a.toNat [a]
  | two {a b : UInt8} (h : 0xC2 ≤ a.toNat ∧ a.toNat ≤ 0xDF) (hb : isTail b = true) :
    Encodes ((a.toNat - 0xC0) * 0x40 + tailBits b) [a, b]
  | three {a b c : UInt8} {n : Nat} (h : 0xE0 ≤ a.toNat ∧ a.toNat ≤ 0xEF) (hb : isTail b = true)
    (hc : isTail c = true)
    (hn : n = (a.toNat - 0xE0) * 0x1000 + tailBits b * 0x40 + tailBits c) (hmin : 0x800 ≤ n)
    (hvalid : n < 0xD800 ∨ 0xE000 ≤ n) : Encodes n [a, b, c]
  | four {a b c d : UInt8} {n : Nat} (h : 0xF0 ≤ a.toNat ∧ a.toNat ≤ 0xF4) (hb : isTail b = true)
    (hc : isTail c = true) (hd : isTail d = true)
    (hn : n = (a.toNat - 0xF0) * 0x40000 + tailBits b * 0x1000 + tailBits c * 0x40 + tailBits d)
    (hmin : 0x10000 ≤ n) (hmax : n ≤ 0x10FFFF) : Encodes n [a, b, c, d]

theorem utf8Char?_of_encodes {n : Nat} {os : List UInt8} (h : Encodes n os) (rest : List UInt8) :
    utf8Char? (os ++ rest) = some (Char.ofNat n, rest) := by
  cases h with
  | one h => simp [utf8Char?, UInt8.lt_iff_toNat_lt, h]
  | @two a b h hb =>
    have h1 : ¬a.toNat < 128 := by omega
    simp [utf8Char?, UInt8.lt_iff_toNat_lt, UInt8.le_iff_toNat_le, h, hb, h1]
  | @three a b c n h hb hc hn hmin hvalid =>
    have h1 : ¬a.toNat < 128 := by omega
    have h2 : ¬(194 ≤ a.toNat ∧ a.toNat ≤ 223) := by omega
    have h3 : ¬(55296 ≤ n ∧ n < 57344) := by omega
    simp [utf8Char?, UInt8.lt_iff_toNat_lt, UInt8.le_iff_toNat_le, h, hb, hc, h1, h2, ← hn, hmin, h3]
  | @four a b c d n h hb hc hd hn hmin hmax =>
    have h1 : ¬a.toNat < 128 := by omega
    have h2 : ¬(194 ≤ a.toNat ∧ a.toNat ≤ 223) := by omega
    have h3 : ¬(224 ≤ a.toNat ∧ a.toNat ≤ 239) := by omega
    simp [utf8Char?, UInt8.lt_iff_toNat_lt, UInt8.le_iff_toNat_le, h, hb, hc, hd, h1, h2, h3, ← hn,
      hmin, hmax]

theorem encodes_of_utf8Char? {bs rest : List UInt8} {c : Char}
    (h : utf8Char? bs = some (c, rest)) :
    ∃ n os, Encodes n os ∧ bs = os ++ rest ∧ c = Char.ofNat n := by
  cases bs with
  | nil => cases h
  | cons a more =>
    simp only [utf8Char?, UInt8.lt_iff_toNat_lt, UInt8.le_iff_toNat_le] at h
    -- The first octet tells how many there are: one, two, three or four.
    split at h
    · next ha =>
      obtain ⟨rfl, rfl⟩ := Prod.mk.inj (Option.some.inj h)
      exact ⟨_, _, .one ha, rfl, rfl⟩
    · split at h
      · next ha =>
        split at h
        · split at h
          · next hb =>
            obtain ⟨rfl, rfl⟩ := Prod.mk.inj (Option.some.inj h)
            exact ⟨_, _, .two ha hb, rfl, rfl⟩
          · cases h
        · cases h
      · split at h
        · next ha =>
          split at h
          · split at h
            · next hbytes =>
              obtain ⟨rfl, rfl⟩ := Prod.mk.inj (Option.some.inj h)
              simp only [Bool.and_eq_true, decide_eq_true_eq, Bool.not_eq_true',
                Bool.and_eq_false_iff, decide_eq_false_iff_not] at hbytes
              obtain ⟨⟨⟨hb, hc⟩, hmin⟩, hvalid⟩ := hbytes
              exact ⟨_, _, .three ha hb hc rfl hmin (by omega), rfl, rfl⟩
            · cases h
          · cases h
        · split at h
          · next ha =>
            split at h
            · split at h
              · next hbytes =>
                obtain ⟨rfl, rfl⟩ := Prod.mk.inj (Option.some.inj h)
                simp only [Bool.and_eq_true, decide_eq_true_eq] at hbytes
                obtain ⟨⟨⟨⟨hb, hc⟩, hd⟩, hmin⟩, hmax⟩ := hbytes
                exact ⟨_, _, .four ha hb hc hd rfl hmin hmax, rfl, rfl⟩
              · cases h
            · cases h
          · cases h

theorem Encodes.valid {n : Nat} {os : List UInt8} (h : Encodes n os) : n.isValidChar := by
  unfold Nat.isValidChar
  cases h with
  | one h => omega
  | two h hb =>
    rw [isTail_iff] at hb
    unfold tailBits
    omega
  | three h hb hc hn hmin hvalid =>
    rw [isTail_iff] at hb hc
    unfold tailBits at hn
    omega
  | four h hb hc hd hn hmin hmax => omega

theorem Encodes.toNat {n : Nat} {os : List UInt8} (h : Encodes n os) :
    (Char.ofNat n).val.toNat = n := by
  rw [Char.ofNat, dif_pos h.valid]
  rfl

/-- A code point is encoded in one way only. -/
theorem Encodes.eq_encode {n : Nat} {os : List UInt8} (h : Encodes n os) :
    String.utf8EncodeChar (Char.ofNat n) = os := by
  rw [String.utf8EncodeChar, h.toNat]
  cases h with
  | one h => simp [Nat.le_of_lt_succ h]
  | @two a b h hb =>
    rw [isTail_iff] at hb
    unfold tailBits
    have h1 : ¬(a.toNat - 0xC0) * 0x40 + (b.toNat - 0x80) ≤ 127 := by omega
    have h2 : (a.toNat - 0xC0) * 0x40 + (b.toNat - 0x80) ≤ 2047 := by omega
    simp only [h1, h2, if_true, if_false, List.cons.injEq, and_true, ← UInt8.toNat_inj,
      UInt8.toNat_ofNat']
    omega
  | @three a b c n h hb hc hn hmin hvalid =>
    rw [isTail_iff] at hb hc
    unfold tailBits at hn
    have h1 : ¬n ≤ 127 := by omega
    have h2 : ¬n ≤ 2047 := by omega
    have h3 : n ≤ 65535 := by omega
    simp only [h1, h2, h3, if_true, if_false, List.cons.injEq, and_true, ← UInt8.toNat_inj,
      UInt8.toNat_ofNat']
    omega
  | @four a b c d n h hb hc hd hn hmin hmax =>
    rw [isTail_iff] at hb hc hd
    unfold tailBits at hn
    have h1 : ¬n ≤ 127 := by omega
    have h2 : ¬n ≤ 2047 := by omega
    have h3 : ¬n ≤ 65535 := by omega
    simp only [h1, h2, h3, if_false, List.cons.injEq, and_true, ← UInt8.toNat_inj,
      UInt8.toNat_ofNat']
    omega

theorem toNat_ofNat {n : Nat} (h : n < 256) : (UInt8.ofNat n).toNat = n :=
  UInt8.toNat_ofNat_of_lt' h

theorem isTail_ofNat (n : Nat) : isTail (UInt8.ofNat (n % 64 + 128)) = true := by
  rw [isTail_iff, toNat_ofNat (by omega)]
  omega

theorem tailBits_ofNat (n : Nat) : tailBits (UInt8.ofNat (n % 64 + 128)) = n % 64 := by
  unfold tailBits
  rw [toNat_ofNat (by omega)]
  omega

theorem encodes_encode (c : Char) : Encodes c.val.toNat (String.utf8EncodeChar c) := by
  have hvalid : c.val.toNat < 0xD800 ∨ 0xDFFF < c.val.toNat ∧ c.val.toNat < 0x110000 := c.valid
  rw [String.utf8EncodeChar]
  generalize c.val.toNat = n at hvalid
  split
  · next h =>
    have ha : (UInt8.ofNat n).toNat = n := toNat_ofNat (by omega)
    have hone := Encodes.one (a := UInt8.ofNat n) (by omega)
    rwa [ha] at hone
  · split
    · next h1 h2 =>
      have ha : (UInt8.ofNat (n / 64 % 32 + 192)).toNat = n / 64 + 192 := by
        rw [toNat_ofNat (by omega)]
        omega
      have htwo := Encodes.two (a := UInt8.ofNat (n / 64 % 32 + 192)) (by omega) (isTail_ofNat n)
      have hn : (n / 64 + 192 - 0xC0) * 0x40 + n % 64 = n := by omega
      rwa [ha, tailBits_ofNat, hn] at htwo
    · split
      · next h1 h2 h3 =>
        have ha : (UInt8.ofNat (n / 4096 % 16 + 224)).toNat = n / 4096 + 224 := by
          rw [toNat_ofNat (by omega)]
          omega
        refine .three (by omega) (isTail_ofNat _) (isTail_ofNat _) ?_ (by omega) (by omega)
        rw [ha, tailBits_ofNat, tailBits_ofNat]
        omega
      · next h1 h2 h3 =>
        have ha : (UInt8.ofNat (n / 262144 % 8 + 240)).toNat = n / 262144 + 240 := by
          rw [toNat_ofNat (by omega)]
          omega
        refine .four (by omega) (isTail_ofNat _) (isTail_ofNat _) (isTail_ofNat _) ?_ (by omega)
          (by omega)
        rw [ha, tailBits_ofNat, tailBits_ofNat, tailBits_ofNat]
        omega

theorem utf8Char?_eq_some_iff {bs rest : List UInt8} {c : Char} :
    utf8Char? bs = some (c, rest) ↔ bs = String.utf8EncodeChar c ++ rest := by
  constructor
  · intro h
    obtain ⟨n, os, hn, rfl, rfl⟩ := encodes_of_utf8Char? h
    rw [hn.eq_encode]
  · rintro rfl
    rw [utf8Char?_of_encodes (encodes_encode c)]
    exact congrArg (fun d => some (d, rest)) (Char.ofNat_toNat c)

theorem utf8From_eq_some_iff {fuel : Nat} {bs : List UInt8} {cs : List Char}
    (h : bs.length ≤ fuel) :
    utf8From fuel bs = some cs ↔ bs = cs.flatMap String.utf8EncodeChar := by
  induction fuel generalizing bs cs with
  | zero =>
    obtain rfl : bs = [] := List.length_eq_zero_iff.mp (by omega)
    cases cs with
    | nil => simp [utf8From]
    | cons c cs => simp [utf8From, eq_comm (a := ([] : List UInt8)), String.utf8EncodeChar_ne_nil]
  | succ fuel ih =>
    cases bs with
    | nil =>
      cases cs <;> simp [utf8From, eq_comm (a := ([] : List UInt8)), String.utf8EncodeChar_ne_nil]
    | cons b bs =>
      have hlater {c : Char} {rest : List UInt8} (hb : b :: bs = String.utf8EncodeChar c ++ rest) :
          rest.length ≤ fuel := by
        have hlen := congrArg List.length hb
        have hpos := List.length_pos_iff.mpr (String.utf8EncodeChar_ne_nil (c := c))
        simp only [List.length_cons, List.length_append] at hlen h
        omega
      simp only [utf8From, Option.bind_eq_bind, Option.bind_eq_some_iff, Prod.exists,
        utf8Char?_eq_some_iff, Option.pure_def, Option.some.injEq]
      constructor
      · rintro ⟨c, rest, hb, more, hmore, rfl⟩
        rw [hb, (ih (hlater hb)).mp hmore, List.flatMap_cons]
      · intro hb
        cases cs with
        | nil => cases hb
        | cons c more =>
          rw [List.flatMap_cons] at hb
          exact ⟨c, _, hb, more, (ih (hlater hb)).mpr rfl, rfl⟩

/-- Octets are read exactly when they encode a text, and then as this text. -/
theorem utf8?_eq_some_iff {bs : List UInt8} {cs : List Char} :
    utf8? bs = some cs ↔ bs = cs.flatMap String.utf8EncodeChar :=
  utf8From_eq_some_iff (Nat.le_refl _)

end DocGrid.Text

import DocGrid.Json.Printer
import DocGrid.Json.Reader
import Mathlib.Data.List.Basic

/-! Texts are read back from their quoted forms, character by character: each escape stands for the
code units of its character, and the units of all characters in a row are the characters again. -/

namespace DocGrid

namespace Text

@[simp] theorem hexDigit?_digitChar {d : Nat} (h : d < 16) : hexDigit? d.digitChar = some d := by
  have hall : ∀ d < 16, hexDigit? d.digitChar = some d := by decide
  exact hall d h

theorem hexValue?_append (cs : List Char) (c : Char) : hexValue? (cs ++ [c]) =
    (hexValue? cs).bind fun n => (hexDigit? c).map (n * 16 + ·) := by
  simp [hexValue?, List.foldlM_append]

@[simp] theorem hexValue?_toDigits (n : Nat) : hexValue? (Nat.toDigits 16 n) = some n := by
  induction n using Nat.strongRecOn with
  | _ n ih =>
    by_cases h : n < 16
    · rw [Nat.toDigits_of_lt_base h]
      simp [hexValue?, h]
    · have hdigit : n % 16 < 16 := Nat.mod_lt _ (by decide)
      rw [Nat.toDigits_of_base_le (by decide) (by omega), hexValue?_append, ih (n / 16) (by omega),
        Option.bind_some, hexDigit?_digitChar hdigit, Option.map_some]
      congr 1
      omega

theorem hexValue?_hex (width n : Nat) : hexValue? (hex width n) = some n := by
  have hzeros (k : Nat) (cs : List Char) :
      hexValue? (List.replicate k '0' ++ cs) = hexValue? cs := by
    induction k with
    | zero => rfl
    | succ k ih => exact ih
  rw [hex, hzeros, hexValue?_toDigits]

theorem length_hex {n : Nat} (h : n < 0x10000) : (hex 4 n).length = 4 := by
  have hle := (Nat.length_toDigits_le_iff (by decide : 1 < 16) (by decide : 0 < 4)).mpr h
  simp only [hex, List.length_append, List.length_replicate]
  omega

end Text

namespace Json

variable {c : Char} {cs rest : List Char} {u : Nat}

/-- Characters are no surrogates. -/
theorem toNat_valid (c : Char) : c.toNat < 0xD800 ∨ 0xDFFF < c.toNat ∧ c.toNat < 0x110000 :=
  c.valid

theorem units?_hex (h : u < 0x10000) (rest : List Char) :
    units? ('\\' :: 'u' :: Text.hex 4 u ++ rest) =
      (units? rest).map fun found => (u :: found.1, found.2) := by
  have hvalue := Text.hexValue?_hex 4 u
  have hlen := Text.length_hex h
  generalize Text.hex 4 u = digits at hvalue hlen
  match digits, hlen with
  | [a, b, c, d], _ =>
    simp only [List.cons_append, List.nil_append, units?, hvalue, Option.bind_eq_bind,
      Option.bind_some]
    cases units? rest <;> rfl

theorem units?_short {e : Char} (he : e ≠ 'u') (hu : unescape? e = some u) (rest : List Char) :
    units? ('\\' :: e :: rest) = (units? rest).map fun found => (u :: found.1, found.2) := by
  rw [units?]
  · rw [hu]
    cases units? rest <;> rfl
  · intro a b c d more hmark
    exact absurd hmark he

theorem units?_plain (hquote : c ≠ '"') (hslash : c ≠ '\\') (hlow : ' ' ≤ c) (rest : List Char) :
    units? (c :: rest) = (units? rest).map fun found => (c.toNat :: found.1, found.2) := by
  have hnot : ¬(c < ' ' ∨ c = '\\') := not_or.mpr ⟨Char.not_lt.mpr hlow, hslash⟩
  rw [units?, if_neg hnot]
  · exact hquote
  · exact fun _ _ _ _ _ hmark => absurd hmark hslash
  · exact fun _ _ hmark => absurd hmark hslash

theorem units_lt (c : Char) : ∀ u ∈ units c, u < 0x10000 := by
  have hc := toNat_valid c
  simp only [units]
  split
  · simpa
  · simp
    omega

theorem units?_flatMap_hex {us : List Nat} (h : ∀ u ∈ us, u < 0x10000) (rest : List Char) :
    units? ((us.flatMap fun u => '\\' :: 'u' :: Text.hex 4 u) ++ rest) =
      (units? rest).map fun found => (us ++ found.1, found.2) := by
  induction us with
  | nil => simp
  | cons u us ih =>
    obtain ⟨hu, hus⟩ := List.forall_mem_cons.mp h
    rw [List.flatMap_cons, List.append_assoc, units?_hex hu, ih hus, Option.map_map]
    rfl

/-- The escape of a character is read as the units of the character. -/
theorem units?_escape (c : Char) (rest : List Char) : units? (escape c ++ rest) =
    (units? rest).map fun found => (units c ++ found.1, found.2) := by
  unfold escape
  cases hfind : shortEscapes.find? (fun e => e.1 == c) with
  | some e =>
    have hshort : ∀ e ∈ shortEscapes, e.2 ≠ 'u' ∧ unescape? e.2 = some e.1.toNat ∧
        units e.1 = [e.1.toNat] := by
      decide
    obtain ⟨hmark, hunit, hunits⟩ := hshort e (List.mem_of_find?_eq_some hfind)
    have hc : e.1 = c := by simpa using List.find?_some hfind
    rw [← hc, hunits]
    exact units?_short hmark hunit rest
  | none =>
    have hnot := List.find?_eq_none.mp hfind
    dsimp only
    split
    -- A quotation mark or a backslash would have had an escape of its own.
    · next hrange =>
      have hquote : c ≠ '"' := by
        rintro rfl
        exact hnot ('"', '"') (by decide) rfl
      have hslash : c ≠ '\\' := by
        rintro rfl
        exact hnot ('\\', '\\') (by decide) rfl
      have hunits : units c = [c.toNat] := by
        have hsmall : c.toNat < 0x10000 := Nat.lt_of_le_of_lt hrange.2 (by decide)
        simp only [units, hsmall, if_true]
      rw [hunits]
      exact units?_plain hquote hslash hrange.1 rest
    · exact units?_flatMap_hex (units_lt c) rest

@[simp] theorem charOf_toNat (c : Char) : charOf c.toNat = c := by
  have hc := toNat_valid c
  have hnot : ¬(0xD800 ≤ c.toNat ∧ c.toNat < 0xE000) := by omega
  rw [charOf, if_neg hnot, Char.ofNat_toNat]

/-- The units of a character are put together to the character. -/
@[simp]
theorem ofUnits_units (c : Char) (us : List Nat) : ofUnits (units c ++ us) = c :: ofUnits us := by
  have hc := toNat_valid c
  simp only [units]
  split
  · cases us with
    | nil => simp [ofUnits]
    | cons m us =>
      have hnot : ¬(0xD800 ≤ c.toNat ∧ c.toNat < 0xDC00 ∧ 0xDC00 ≤ m ∧ m < 0xE000) := by omega
      simp [ofUnits, hnot]
  · next hlarge =>
    have hpair : 0xD800 ≤ 0xD800 + (c.toNat - 0x10000) / 0x400 ∧
        0xD800 + (c.toNat - 0x10000) / 0x400 < 0xDC00 ∧
        0xDC00 ≤ 0xDC00 + (c.toNat - 0x10000) % 0x400 ∧
        0xDC00 + (c.toNat - 0x10000) % 0x400 < 0xE000 := by
      omega
    have hvalue : 0x10000 + (0xD800 + (c.toNat - 0x10000) / 0x400 - 0xD800) * 0x400 +
        (0xDC00 + (c.toNat - 0x10000) % 0x400 - 0xDC00) = c.toNat := by
      omega
    simp only [List.cons_append, List.nil_append, ofUnits, if_pos hpair, hvalue, Char.ofNat_toNat]

/-- A text is read back from its quoted form, after the first quotation mark. -/
theorem text_escaped (s : String) (rest : List Char) :
    text (s.toList.flatMap escape ++ '"' :: rest) = .ok (s, rest) := by
  have hunits (cs : List Char) : units? (cs.flatMap escape ++ '"' :: rest) =
      some (cs.flatMap units, rest) := by
    induction cs with
    | nil => rfl
    | cons c cs ih =>
      rw [List.flatMap_cons, List.append_assoc, units?_escape, ih]
      rfl
  have hchars (cs : List Char) : ofUnits (cs.flatMap units) = cs := by
    induction cs with
    | nil => rfl
    | cons c cs ih => rw [List.flatMap_cons, ofUnits_units, ih]
  simp only [text, hunits, hchars, String.ofList_toList]

end Json

end DocGrid

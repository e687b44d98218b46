import DocGrid.Proofs.Number.Shortest
import DocGrid.Proofs.Text.Digits
import DocGrid.Proofs.Text.Split
import DocGrid.Proofs.Text.Trim

/-! The texts of whole numbers and of doubles are read back as the same numbers. A double goes
through its digits: wherever the point and the exponent are put, the digits read are the shortest
ones with zeros around them. -/

namespace DocGrid.Reading

def numeralChars : List Char :=
  ['+', '-', '.', '0', '1', '2', '3', '4', '5', '6', '7', '8', '9', 'e']

/-- What is checked for each of these characters holds for all of them. -/
theorem forall_numeralChars {P : Char → Prop} [DecidablePred P]
    (h : numeralChars.all (fun c => decide (P c)) = true) : ∀ c ∈ numeralChars, P c :=
  fun c hc => of_decide_eq_true (List.all_eq_true.mp h c hc)

theorem mem_numeralChars_of_isDigit {c : Char} (h : c.isDigit = true) : c ∈ numeralChars := by
  have hall : ∀ k < 10, Char.ofNat (48 + k) ∈ numeralChars := by decide
  obtain ⟨hlow, hhigh⟩ := Char.isDigit_iff_toNat.mp h
  change 48 ≤ c.toNat at hlow
  change c.toNat ≤ 57 at hhigh
  have hc := hall (c.toNat - 48) (by omega)
  rwa [Nat.add_sub_cancel' hlow, Char.ofNat_toNat] at hc

theorem chars_of_digits {cs : List Char} (h : ∀ c ∈ cs, c.isDigit = true) :
    ∀ c ∈ cs, c ∈ numeralChars :=
  fun c hc => mem_numeralChars_of_isDigit (h c hc)

section Numeral

variable {cs : List Char} (h : ∀ c ∈ cs, c ∈ numeralChars)

include h

theorem trimMargin_numeral : trimMargin cs = cs := by
  have hsolid : ∀ c ∈ numeralChars, isMargin c = false := forall_numeralChars (by decide)
  exact Text.dropEnds_eq_self fun c hc => hsolid c (h c hc)

theorem map_plainDigit_numeral : cs.map plainDigit = cs := by
  have hplain : ∀ c ∈ numeralChars, plainDigit c = c := forall_numeralChars (by decide)
  conv_rhs => rw [← List.map_id cs]
  exact List.map_congr_left fun c hc => hplain c (h c hc)

theorem joinDigits?_numeral (before : Option Char) : joinDigits? before cs = some cs := by
  induction cs generalizing before with
  | nil => rfl
  | cons c rest ih =>
    have hline : ∀ c ∈ numeralChars, c ≠ '_' := forall_numeralChars (by decide)
    have hc := hline c (h c (by simp))
    have hi := ih (fun d hd => h d (List.mem_cons_of_mem _ hd)) (some c)
    unfold joinDigits?
    split
    · next heq => cases heq
    · next heq => exact absurd (List.cons.inj heq).1 hc
    · next heq =>
      obtain ⟨rfl, rfl⟩ := List.cons.inj heq
      rw [if_neg hc, hi]
      rfl

theorem joined_numeral : joinDigits? none ((trimMargin cs).map plainDigit) = some cs := by
  rw [trimMargin_numeral h, map_plainDigit_numeral h, joinDigits?_numeral h]

end Numeral

theorem isPlain_of_isDigit {c : Char} (h : c.isDigit = true) : isPlain c = true := by
  obtain ⟨hlow, hhigh⟩ := Char.isDigit_iff_toNat.mp h
  exact Bool.and_eq_true_iff.mpr ⟨decide_eq_true hlow, decide_eq_true hhigh⟩

theorem natOf_eq (cs : List Char) : natOf cs = Nat.ofDigitChars 10 cs 0 := by
  rw [Nat.ofDigitChars_eq_foldl, natOf]
  congr
  funext n c
  rw [Nat.mul_comm]
  rfl

@[simp] theorem natOf_toDigits (n : Nat) : natOf (Nat.toDigits 10 n) = n := by
  rw [natOf_eq]
  exact Nat.ofDigitChars_ten_toDigits

theorem splitSign_of_digit {c : Char} (h : c.isDigit = true) (rest : List Char) :
    splitSign (c :: rest) = (false, c :: rest) := by
  unfold splitSign
  split
  · next heq =>
    cases heq
    cases h
  · next heq =>
    cases heq
    cases h
  · rfl

structure IsNumeral (cs : List Char) : Prop where
  starts : ∃ c rest, cs = c :: rest ∧ c.isDigit = true
  chars : ∀ c ∈ cs, c ∈ numeralChars

theorem isNumeral_append {ds cs : List Char} (hne : ds ≠ []) (hds : ∀ c ∈ ds, c.isDigit = true)
    (hcs : ∀ c ∈ cs, c ∈ numeralChars) : IsNumeral (ds ++ cs) := by
  obtain ⟨d, more, rfl⟩ := List.exists_cons_of_ne_nil hne
  refine ⟨⟨d, more ++ cs, rfl, hds d (by simp)⟩, fun c hc => ?_⟩
  exact (List.mem_append.mp hc).elim (fun h => mem_numeralChars_of_isDigit (hds c h)) (hcs c)

theorem isNumeral_digits (n : Nat) : IsNumeral (Nat.toDigits 10 n) := by
  rw [← List.append_nil (Nat.toDigits 10 n)]
  exact isNumeral_append Nat.toDigits_ne_nil (fun _ => Text.isDigit_of_mem_digits) (by simp)

def withSign (negative : Bool) (cs : List Char) : List Char :=
  if negative then '-' :: cs else cs

namespace IsNumeral

variable {cs : List Char} (h : IsNumeral cs)

include h

theorem splitSign_withSign (negative : Bool) : splitSign (withSign negative cs) = (negative, cs) := by
  obtain ⟨c, rest, rfl, hc⟩ := h.starts
  cases negative with
  | false => exact splitSign_of_digit hc rest
  | true => rfl

theorem chars_withSign (negative : Bool) : ∀ c ∈ withSign negative cs, c ∈ numeralChars := by
  cases negative with
  | false => exact h.chars
  | true => exact List.forall_mem_cons.mpr ⟨by decide, h.chars⟩

theorem withSign_ne_nil (negative : Bool) : withSign negative cs ≠ [] := by
  obtain ⟨c, rest, rfl, -⟩ := h.starts
  cases negative <;> simp [withSign]

end IsNumeral

theorem toList_toString_int (n : Int) :
    (toString n).toList = withSign (decide (n < 0)) (Nat.toDigits 10 n.natAbs) := by
  cases n <;> simp [Int.toString_eq_repr, Int.repr, withSign]

/-- A whole number of not too many digits is read back from its text. -/
theorem int?_toString {n : Int} (h : Scaled.digitCount n.natAbs ≤ maxDigits) :
    int? (toString n) = some n := by
  have hnumeral := isNumeral_digits n.natAbs
  have hne : (Nat.toDigits 10 n.natAbs).isEmpty = false :=
    List.isEmpty_eq_false_iff.mpr Nat.toDigits_ne_nil
  have hall : (Nat.toDigits 10 n.natAbs).all isPlain = true :=
    List.all_eq_true.mpr fun c hc => isPlain_of_isDigit (Text.isDigit_of_mem_digits hc)
  have hlen : ¬maxDigits < (Nat.toDigits 10 n.natAbs).length := Nat.not_lt.mpr h
  have hvalue : (if decide (n < 0) = true then -(n.natAbs : Int) else n.natAbs) = n := by
    simp only [decide_eq_true_eq]
    split <;> omega
  simp only [int?, toList_toString_int, joined_numeral (hnumeral.chars_withSign _),
    Option.bind_eq_bind, Option.bind_some, hnumeral.splitSign_withSign, hne, hall, hlen,
    natOf_toDigits, hvalue]
  rfl

/-- What may follow digits without being read as one more of them. -/
def Stops (cs : List Char) : Prop :=
  ∀ c ∈ cs.head?, isPlain c = false

theorem stops_nil : Stops [] := by
  intro c hc
  cases hc

theorem takeWhile_digits {ds rest : List Char} (h : ∀ c ∈ ds, c.isDigit = true)
    (hr : Stops rest) : (ds ++ rest).takeWhile isPlain = ds :=
  Text.takeWhile_run (fun c hc => isPlain_of_isDigit (h c hc)) hr

theorem dropWhile_digits {ds rest : List Char} (h : ∀ c ∈ ds, c.isDigit = true)
    (hr : Stops rest) : (ds ++ rest).dropWhile isPlain = rest :=
  Text.dropWhile_run (fun c hc => isPlain_of_isDigit (h c hc)) hr

theorem lower_of_digit {c : Char} (h : c.isDigit = true) (rest : List Char) :
    Text.lower (c :: rest) = c :: Text.lowerFrom [c] rest := by
  have hall : ∀ c ∈ numeralChars, c.toNat ≠ 0x3A3 ∧ c.toNat ≠ 0x130 ∧ Text.lowerChar c = c :=
    forall_numeralChars (by decide)
  obtain ⟨hsigma, hdotted, hlower⟩ := hall c (mem_numeralChars_of_isDigit h)
  simp only [Text.lower, Text.lowerFrom, Text.lowerBetween, hsigma, hdotted, if_false, hlower,
    List.singleton_append]

section Size

variable {whole : List Char} (hne : whole ≠ []) (hwhole : ∀ c ∈ whole, c.isDigit = true)

include hne hwhole

theorem lower_ne_word (rest : List Char) (first : Char) (word : List Char)
    (hfirst : first.isDigit = false) : Text.lower (whole ++ rest) ≠ first :: word := by
  obtain ⟨c, more, rfl⟩ := List.exists_cons_of_ne_nil hne
  have hc := hwhole c (by simp)
  rw [List.cons_append, lower_of_digit hc]
  intro heq
  obtain ⟨rfl, -⟩ := List.cons.inj heq
  exact Bool.false_ne_true (hfirst.symm.trans hc)

theorem size?_point {part tail : List Char} (hpart : ∀ c ∈ part, c.isDigit = true)
    (htail : Stops tail) (negative : Bool) :
    size? negative (whole ++ '.' :: (part ++ tail)) = (exponent? tail).map fun e =>
      nearest negative (natOf (whole ++ part)) (e - part.length) := by
  have hstop : Stops ('.' :: (part ++ tail)) := by simp [Stops]; decide
  have hi (word : List Char) := lower_ne_word hne hwhole ('.' :: (part ++ tail)) 'i' word rfl
  have hn (word : List Char) := lower_ne_word hne hwhole ('.' :: (part ++ tail)) 'n' word rfl
  simp [size?, hi, hn, takeWhile_digits hwhole hstop, dropWhile_digits hwhole hstop,
    takeWhile_digits hpart htail, dropWhile_digits hpart htail, hne]

theorem size?_point_only {part : List Char} (hpart : ∀ c ∈ part, c.isDigit = true)
    (negative : Bool) : size? negative (whole ++ '.' :: part) =
      some (nearest negative (natOf (whole ++ part)) (-part.length)) := by
  have hread := size?_point hne hwhole hpart stops_nil negative
  rw [List.append_nil] at hread
  simpa [exponent?] using hread

theorem size?_exponent (more : List Char) (negative : Bool) :
    size? negative (whole ++ 'e' :: more) = (exponent? ('e' :: more)).map fun e =>
      nearest negative (natOf whole) e := by
  have hstop : Stops ('e' :: more) := by simp [Stops]; decide
  have hi (word : List Char) := lower_ne_word hne hwhole ('e' :: more) 'i' word rfl
  have hn (word : List Char) := lower_ne_word hne hwhole ('e' :: more) 'n' word rfl
  simp [size?, hi, hn, takeWhile_digits hwhole hstop, dropWhile_digits hwhole hstop, hne]

end Size

theorem exponent?_exponentText (style : FloatStyle) (e : Int) :
    exponent? (style.exponentText e) = some e := by
  have hdigit : ∀ c ∈ Text.padded style.exponentWidth e.natAbs, c.isDigit = true :=
    fun _ => Text.isDigit_of_mem_padded
  have hall : (Text.padded style.exponentWidth e.natAbs).all isPlain = true :=
    List.all_eq_true.mpr fun c hc => isPlain_of_isDigit (hdigit c hc)
  have hne := List.isEmpty_eq_false_iff.mpr (Text.padded_ne_nil style.exponentWidth e.natAbs)
  have hnat : natOf (Text.padded style.exponentWidth e.natAbs) = e.natAbs := by
    rw [natOf_eq, Text.ofDigitChars_padded]
  unfold FloatStyle.exponentText
  by_cases he : e < 0
  · have hvalue : -(e.natAbs : Int) = e := by omega
    simp only [exponent?, splitSign, he, hall, hne, hnat, hvalue, if_true]
    rfl
  · have hvalue : (e.natAbs : Int) = e := by omega
    simp only [exponent?, splitSign, he, hall, hne, hnat, hvalue, if_false]
    rfl

theorem stops_exponentText (style : FloatStyle) (e : Int) : Stops (style.exponentText e) := by
  intro c hc
  cases hc
  decide

@[simp] theorem natOf_append_zeros (cs : List Char) (k : Nat) :
    natOf (cs ++ List.replicate k '0') = natOf cs * 10 ^ k := by
  rw [natOf_eq, natOf_eq, Nat.ofDigitChars_append, Nat.ofDigitChars_replicate_zero, Nat.mul_comm]

@[simp] theorem natOf_zeros_append (cs : List Char) (k : Nat) :
    natOf (List.replicate k '0' ++ cs) = natOf cs := by
  rw [natOf_eq, natOf_eq, Nat.ofDigitChars_append, Nat.ofDigitChars_replicate_zero, Nat.mul_zero]

/-- A number without an exponent: its digits stand around the point, with zeros on the side that
they do not reach. -/
structure PointText (digits : List Char) (e : Int) (whole part : List Char) : Prop where
  text : FloatStyle.positional digits e = whole ++ '.' :: part
  whole_digits : ∀ c ∈ whole, c.isDigit = true
  part_digits : ∀ c ∈ part, c.isDigit = true
  part_ne : part ≠ []
  lead : whole = ['0'] ∨ whole ≠ [] ∧ whole.head? = digits.head?
  worth : ∃ k : Nat, natOf (whole ++ part) = natOf digits * 10 ^ k ∧
    (k : Int) - part.length = e + 1 - digits.length

theorem PointText.whole_ne {digits whole part : List Char} {e : Int}
    (h : PointText digits e whole part) : whole ≠ [] := by
  rcases h.lead with rfl | ⟨hne, -⟩
  · simp
  · exact hne

theorem exists_pointText {digits : List Char} (hne : digits ≠ [])
    (hdigit : ∀ c ∈ digits, c.isDigit = true) (e : Int) :
    ∃ whole part, PointText digits e whole part := by
  -- The digits all stand behind the point, all stand before it, or go on across it.
  by_cases hneg : e < 0
  · let zeros := List.replicate ((-e).toNat - 1) '0'
    refine ⟨['0'], zeros ++ digits, ?_, by simp, ?_, by simp [hne], .inl rfl, 0, ?_, ?_⟩
    · rw [FloatStyle.positional, if_pos hneg]
      rfl
    · exact List.forall_mem_append.mpr ⟨fun _ => Text.isDigit_of_mem_zeros, hdigit⟩
    · rw [← List.replicate_one, natOf_zeros_append, natOf_zeros_append, pow_zero, mul_one]
    · simp [zeros]
      omega
  · by_cases hlong : digits.length ≤ e.toNat + 1
    · let zeros := List.replicate (e.toNat + 1 - digits.length) '0'
      refine ⟨digits ++ zeros, ['0'], ?_, ?_, by simp, by simp, .inr ⟨by simp [hne], ?_⟩,
        e.toNat + 1 - digits.length + 1, ?_, ?_⟩
      · rw [FloatStyle.positional, if_neg hneg]
        exact if_pos hlong
      · exact List.forall_mem_append.mpr ⟨hdigit, fun _ => Text.isDigit_of_mem_zeros⟩
      · exact List.head?_append_of_ne_nil _ hne
      · rw [← List.replicate_one, List.append_assoc, List.replicate_append_replicate,
          natOf_append_zeros]
      · simp
        omega
    · refine ⟨digits.take (e.toNat + 1), digits.drop (e.toNat + 1), ?_,
        fun c hc => hdigit c (List.mem_of_mem_take hc),
        fun c hc => hdigit c (List.mem_of_mem_drop hc), by simpa using hlong,
        .inr ⟨by simp [hne], by simp [List.head?_take]⟩, 0, ?_, ?_⟩
      · rw [FloatStyle.positional, if_neg hneg]
        exact if_neg hlong
      · rw [List.take_append_drop, pow_zero, mul_one]
      · simp
        omega

section Shown

variable {x : Binary64} (hx : x.isFinite = true) (hzero : x.isZero = false)

include hx hzero

/-- Zeros after the digits only shift them. -/
theorem nearest_zeros {n k : Nat} {scale : Int} (hn : n = x.shortest.digits * 10 ^ k)
    (hscale : scale + k = x.shortest.scale) : nearest x.negative n scale = x := by
  refine nearest_eq ?_ hx hzero
  rw [hn, Scaled.toBinary64_mul_pow, hscale]
  exact Binary64.toBinary64_shortest hx hzero

theorem nearest_digits {n : Nat} {scale : Int} (hn : n = x.shortest.digits)
    (hscale : scale = x.shortest.scale) : nearest x.negative n scale = x := by
  refine nearest_eq ?_ hx hzero
  rw [hn, hscale]
  exact Binary64.toBinary64_shortest hx hzero

variable {digits : List Char} (hd : digits = Nat.toDigits 10 x.shortest.digits) {e : Int}
  (he : e = x.shortest.scale + digits.length - 1)

include hd he

theorem size?_positional : size? x.negative (FloatStyle.positional digits e) = some x := by
  have hdigit : ∀ c ∈ digits, c.isDigit = true := hd ▸ fun _ => Text.isDigit_of_mem_digits
  have hvalue : natOf digits = x.shortest.digits := hd ▸ natOf_toDigits _
  obtain ⟨whole, part, h⟩ := exists_pointText (hd ▸ Nat.toDigits_ne_nil) hdigit e
  obtain ⟨k, hnat, hscale⟩ := h.worth
  rw [hvalue] at hnat
  rw [h.text]
  refine (size?_point_only h.whole_ne h.whole_digits h.part_digits x.negative).trans
    (congrArg some (nearest_zeros hx hzero hnat ?_))
  omega

theorem size?_scientific (style : FloatStyle) :
    size? x.negative (style.scientific digits e) = some x := by
  have hdigit : ∀ c ∈ digits, c.isDigit = true := hd ▸ fun _ => Text.isDigit_of_mem_digits
  have hne : digits ≠ [] := hd ▸ Nat.toDigits_ne_nil
  have hvalue : natOf digits = x.shortest.digits := hd ▸ natOf_toDigits _
  have hexponent := exponent?_exponentText style e
  cases digits with
  | nil => exact absurd rfl hne
  | cons d rest =>
    have hfirst : ∀ c ∈ [d], c.isDigit = true := by simpa using hdigit d (by simp)
    cases rest with
    | nil =>
      obtain ⟨more, hmore⟩ : ∃ more, style.exponentText e = 'e' :: more := ⟨_, rfl⟩
      have hread := size?_exponent (by simp) hfirst more x.negative
      rw [← hmore, hexponent] at hread
      refine hread.trans (congrArg some (nearest_digits hx hzero hvalue ?_))
      simpa using he
    | cons c rest =>
      have hrest : ∀ a ∈ c :: rest, a.isDigit = true := fun a ha =>
        hdigit a (List.mem_cons_of_mem _ ha)
      have hread := size?_point (by simp) hfirst hrest (stops_exponentText style e) x.negative
      rw [hexponent] at hread
      refine hread.trans (congrArg some (nearest_digits hx hzero hvalue ?_))
      simp at he ⊢
      omega

end Shown

theorem size?_zero {x : Binary64} (h : x.isZero = true) :
    size? x.negative ['0', '.', '0'] = some x := by
  have hzero : ∀ c ∈ ['0'], c.isDigit = true := by simp
  refine (size?_point_only (by simp) hzero hzero x.negative).trans (congrArg some ?_)
  obtain ⟨negative, exponent, fraction⟩ := x
  obtain ⟨he, hf⟩ : exponent = 0 ∧ fraction = 0 := by
    simpa [Binary64.isZero] using h
  rw [he, hf]
  rfl

theorem size?_size {x : Binary64} (hx : x.isFinite = true) (style : FloatStyle) :
    size? x.negative (style.size x) = some x := by
  unfold FloatStyle.size
  split
  · next hzero => exact size?_zero hzero
  · next hzero =>
    have hnonzero : x.isZero = false := Bool.eq_false_iff.mpr hzero
    dsimp only
    split
    · exact size?_positional hx hnonzero rfl rfl
    · exact size?_scientific hx hnonzero rfl rfl style

section Chars

variable {digits : List Char} (hne : digits ≠ []) (hdigit : ∀ c ∈ digits, c.isDigit = true)

include hne hdigit

theorem isNumeral_positional (e : Int) : IsNumeral (FloatStyle.positional digits e) := by
  obtain ⟨whole, part, h⟩ := exists_pointText hne hdigit e
  rw [h.text]
  exact isNumeral_append h.whole_ne h.whole_digits
    (List.forall_mem_cons.mpr ⟨by decide, chars_of_digits h.part_digits⟩)

theorem isNumeral_scientific (style : FloatStyle) (e : Int) :
    IsNumeral (style.scientific digits e) := by
  have hexponent : ∀ c ∈ style.exponentText e, c ∈ numeralChars := by
    refine List.forall_mem_cons.mpr ⟨by decide, List.forall_mem_cons.mpr ⟨?_, ?_⟩⟩
    · split <;> decide
    · exact chars_of_digits fun _ => Text.isDigit_of_mem_padded
  obtain ⟨d, rest, rfl⟩ := List.exists_cons_of_ne_nil hne
  obtain ⟨hd, hrest⟩ := List.forall_mem_cons.mp hdigit
  have hfirst : ∀ c ∈ [d], c.isDigit = true := by simpa using hd
  cases rest with
  | nil => exact isNumeral_append (by simp) hfirst hexponent
  | cons c rest =>
    change IsNumeral ([d] ++ '.' :: (c :: rest ++ style.exponentText e))
    exact isNumeral_append (by simp) hfirst (List.forall_mem_cons.mpr ⟨by decide,
      List.forall_mem_append.mpr ⟨chars_of_digits hrest, hexponent⟩⟩)

end Chars

theorem isNumeral_size (style : FloatStyle) (x : Binary64) : IsNumeral (style.size x) := by
  have hdigit : ∀ c ∈ Nat.toDigits 10 x.shortest.digits, c.isDigit = true :=
    fun _ => Text.isDigit_of_mem_digits
  unfold FloatStyle.size
  split
  · exact ⟨⟨'0', ['.', '0'], rfl, rfl⟩, by simp [numeralChars]⟩
  · dsimp only
    split
    · exact isNumeral_positional Nat.toDigits_ne_nil hdigit _
    · exact isNumeral_scientific Nat.toDigits_ne_nil hdigit style _

theorem toList_text {x : Binary64} (h : x.isFinite = true) :
    x.text.toList = withSign x.negative (FloatStyle.standard.size x) := by
  have he : x.exponent.val ≠ 2047 := by simpa [Binary64.isFinite] using h
  have hnan : x.isNaN = false := by simp [Binary64.isNaN, he]
  have hinfinite : x.isInfinite = false := by simp [Binary64.isInfinite, he]
  simp only [Binary64.text, hnan, hinfinite, Bool.false_eq_true, if_false, String.toList_ofList,
    withSign]

/-- A finite double is read back from its text. -/
theorem float?_text {x : Binary64} (h : x.isFinite = true) : float? x.text = some x := by
  have hnumeral := isNumeral_size FloatStyle.standard x
  simp only [float?, toList_text h, joined_numeral (hnumeral.chars_withSign _),
    Option.bind_eq_bind, Option.bind_some, hnumeral.splitSign_withSign, size?_size h]

end DocGrid.Reading

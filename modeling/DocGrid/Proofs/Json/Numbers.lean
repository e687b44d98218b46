import DocGrid.Json.Printer
import DocGrid.Json.Reader
import DocGrid.Proofs.Number.Texts

/-! Numbers are read back from their JSON texts. The text of a double is cut into digits without
leading zeros, a part after the point and an exponent, in front of whatever ends a value. -/

namespace DocGrid

theorem Text.head_digits_ne_zero {n : Nat} (hn : n ≠ 0) :
    ∀ c ∈ (Nat.toDigits 10 n).head?, c ≠ '0' := by
  induction n using Nat.strongRecOn with
  | _ n ih =>
    by_cases h : n < 10
    · have hall : ∀ d < 10, d ≠ 0 → d.digitChar ≠ '0' := by decide
      rw [Nat.toDigits_of_lt_base h]
      simpa using hall n h hn
    · obtain ⟨d, more, hdigits⟩ := List.exists_cons_of_ne_nil
        (Nat.toDigits_ne_nil : Nat.toDigits 10 (n / 10) ≠ [])
      have hhead := ih (n / 10) (by omega) (by omega)
      rw [Nat.toDigits_of_base_le (by decide) (by omega), hdigits]
      rw [hdigits] at hhead
      exact hhead

theorem Binary64.shortest_digits_ne_zero {x : Binary64} (hx : x.isFinite = true)
    (hzero : x.isZero = false) : x.shortest.digits ≠ 0 := by
  intro hdigits
  have hread := toBinary64_shortest hx hzero
  rw [hdigits, Scaled.toBinary64_zero] at hread
  have hsame : (zero x.negative).isZero = x.isZero := congrArg isZero hread
  exact Bool.false_ne_true (hzero.symm.trans (hsame.symm.trans rfl))

namespace Json

open Reading

/-- What may follow a value in a text. -/
def Ends (rest : List Char) : Prop :=
  ∀ c ∈ rest.head?, c = ',' ∨ c = ']' ∨ c = '\x7d'

/-- The digits of a whole number, without zeros in front. -/
structure IsWhole (ds : List Char) : Prop where
  digits : ∀ c ∈ ds, c.isDigit = true
  lead : ds = ['0'] ∨ ∃ d more, ds = d :: more ∧ d ≠ '0'

/-- A point with digits after it, or nothing. -/
inductive IsPart : List Char → Prop
  | none : IsPart []
  | digits {ds : List Char} (hne : ds ≠ []) (h : ∀ c ∈ ds, c.isDigit = true) : IsPart ('.' :: ds)

inductive IsPower : List Char → Prop
  | none : IsPower []
  | exponent (style : FloatStyle) (e : Int) : IsPower (style.exponentText e)

variable {ds part power rest : List Char}

theorem Ends.stops (h : Ends rest) : Stops rest := by
  intro c hc
  rcases h c hc with rfl | rfl | rfl <;> decide

theorem IsPower.stops (h : IsPower power) (hr : Ends rest) : Stops (power ++ rest) := by
  cases h with
  | none => exact hr.stops
  | exponent style e =>
    intro c hc
    cases hc
    decide

theorem IsPart.stops (h : IsPart part) (hr : Stops rest) : Stops (part ++ rest) := by
  cases h with
  | none => exact hr
  | digits _ _ =>
    intro c hc
    cases hc
    decide

theorem whole?_append (h : IsWhole ds) (hr : Stops rest) :
    whole? (ds ++ rest) = some (ds, rest) := by
  obtain rfl | ⟨d, more, rfl, hd⟩ := h.lead
  · rfl
  · unfold whole?
    split
    · next heq => exact absurd (List.cons.inj heq).1 hd
    · rw [takeWhile_digits h.digits hr, dropWhile_digits h.digits hr]
      rfl

theorem fraction_append (h : IsPart part) (hr : Stops rest) (hpoint : ∀ c ∈ rest.head?, c ≠ '.') :
    fraction (part ++ rest) = (part, rest) := by
  cases h with
  | none =>
    unfold fraction
    split
    · next heq =>
      rw [List.nil_append] at heq
      exact absurd rfl (hpoint '.' (by rw [heq]; rfl))
    · rfl
  | @digits ds hne hds =>
    have hempty : ds.isEmpty = false := List.isEmpty_eq_false_iff.mpr hne
    simp [fraction, takeWhile_digits hds hr, dropWhile_digits hds hr, hne]

theorem exponent_append (h : IsPower power) (hr : Ends rest) :
    exponent (power ++ rest) = (power, rest) := by
  cases h with
  | none =>
    cases rest with
    | nil => rfl
    | cons c rest =>
      have hc : ¬(c = 'e' ∨ c = 'E') := by
        rcases hr c rfl with rfl | rfl | rfl <;> decide
      simp only [exponent, List.nil_append, hc, false_and, if_false]
  | exponent style e =>
    have hdigit : ∀ c ∈ Text.padded style.exponentWidth e.natAbs, c.isDigit = true :=
      fun _ => Text.isDigit_of_mem_padded
    have htake := takeWhile_digits hdigit hr.stops
    have hdrop := dropWhile_digits hdigit hr.stops
    have hne := Text.padded_ne_nil style.exponentWidth e.natAbs
    unfold FloatStyle.exponentText
    split <;> simp [exponent, htake, hdrop, hne]

theorem number_whole (h : IsWhole ds) (hr : Ends rest) (hlen : ds.length ≤ maxDigits)
    (negative : Bool) : number negative (ds ++ rest) =
      .ok (.int (if negative then -(natOf ds : Int) else natOf ds), rest) := by
  have hpoint : ∀ c ∈ rest.head?, c ≠ '.' := by
    intro c hc
    rcases hr c hc with rfl | rfl | rfl <;> decide
  have hfraction := fraction_append .none hr.stops hpoint
  have hexponent := exponent_append .none hr
  rw [List.nil_append] at hfraction hexponent
  simp [number, whole?_append h hr.stops, hfraction, hexponent, Nat.not_lt.mpr hlen]

theorem number_double (h : IsWhole ds) (hpart : IsPart part) (hpower : IsPower power)
    (hne : part ++ power ≠ []) (hr : Ends rest) {negative : Bool} {x : Binary64}
    (hx : size? negative (ds ++ (part ++ power)) = some x) :
    number negative (ds ++ (part ++ power) ++ rest) = .ok (.float x, rest) := by
  have hpoint : ∀ c ∈ (power ++ rest).head?, c ≠ '.' := by
    intro c hc
    cases hpower with
    | none => rcases hr c hc with rfl | rfl | rfl <;> decide
    | exponent style e =>
      cases hc
      decide
  have hstop := hpart.stops (hpower.stops hr)
  have hboth : (part.isEmpty && power.isEmpty) = false := by
    rw [Bool.eq_false_iff]
    simpa using hne
  rw [List.append_assoc, List.append_assoc]
  simp only [number, whole?_append h hstop, fraction_append hpart (hpower.stops hr) hpoint,
    exponent_append hpower hr, hboth, List.append_assoc, hx]
  rfl

theorem isWhole_zero : IsWhole ['0'] :=
  ⟨by simp, .inl rfl⟩

theorem isWhole_digits (n : Nat) : IsWhole (Nat.toDigits 10 n) := by
  refine ⟨fun _ => Text.isDigit_of_mem_digits, ?_⟩
  by_cases hn : n = 0
  · exact .inl (by rw [hn]; rfl)
  · obtain ⟨d, more, hdigits⟩ := List.exists_cons_of_ne_nil
      (Nat.toDigits_ne_nil : Nat.toDigits 10 n ≠ [])
    exact .inr ⟨d, more, hdigits, Text.head_digits_ne_zero hn d (by rw [hdigits]; rfl)⟩

section Size

variable {digits : List Char} (hne : digits ≠ []) (hdigit : ∀ c ∈ digits, c.isDigit = true)
  (hlead : ∀ c ∈ digits.head?, c ≠ '0')

include hne hdigit hlead

theorem positional_parts (e : Int) : ∃ ds part, FloatStyle.positional digits e = ds ++ (part ++ []) ∧
    IsWhole ds ∧ IsPart part ∧ part ++ [] ≠ [] := by
  obtain ⟨whole, part, h⟩ := exists_pointText hne hdigit e
  refine ⟨whole, '.' :: part, by simpa using h.text, ⟨h.whole_digits, ?_⟩,
    .digits h.part_ne h.part_digits, by simp⟩
  refine h.lead.imp_right fun ⟨hwhole, hhead⟩ => ?_
  obtain ⟨d, more, rfl⟩ := List.exists_cons_of_ne_nil hwhole
  exact ⟨d, more, rfl, hlead d hhead.symm⟩

theorem scientific_parts (style : FloatStyle) (e : Int) : ∃ ds part,
    style.scientific digits e = ds ++ (part ++ style.exponentText e) ∧
      IsWhole ds ∧ IsPart part := by
  obtain ⟨d, rest, rfl⟩ := List.exists_cons_of_ne_nil hne
  obtain ⟨hd, hrest⟩ := List.forall_mem_cons.mp hdigit
  have hfirst : IsWhole [d] := ⟨by simpa using hd, .inr ⟨d, [], rfl, hlead d rfl⟩⟩
  cases rest with
  | nil => exact ⟨[d], [], rfl, hfirst, .none⟩
  | cons c rest => exact ⟨[d], '.' :: c :: rest, by simp [FloatStyle.scientific], hfirst,
      .digits (by simp) hrest⟩

end Size

/-- The text of a double is cut where the reader cuts it. -/
theorem size_parts (style : FloatStyle) {x : Binary64} (hx : x.isFinite = true) :
    ∃ ds part power, style.size x = ds ++ (part ++ power) ∧ IsWhole ds ∧ IsPart part ∧
      IsPower power ∧ part ++ power ≠ [] := by
  unfold FloatStyle.size
  split
  · exact ⟨['0'], ['.', '0'], [], rfl, isWhole_zero, .digits (by simp) (by simp), .none, by simp⟩
  · next hzero =>
    have hdigit : ∀ c ∈ Nat.toDigits 10 x.shortest.digits, c.isDigit = true :=
      fun _ => Text.isDigit_of_mem_digits
    have hlead := Text.head_digits_ne_zero
      (Binary64.shortest_digits_ne_zero hx (Bool.eq_false_iff.mpr hzero))
    dsimp only
    split
    · obtain ⟨ds, part, hsize, hds, hpart, hne⟩ :=
        positional_parts Nat.toDigits_ne_nil hdigit hlead _
      exact ⟨ds, part, [], hsize, hds, hpart, .none, hne⟩
    · obtain ⟨ds, part, hsize, hds, hpart⟩ :=
        scientific_parts Nat.toDigits_ne_nil hdigit hlead style _
      exact ⟨ds, part, _, hsize, hds, hpart, .exponent style _, by simp [FloatStyle.exponentText]⟩

theorem number_size {x : Binary64} (hx : x.isFinite = true) (hr : Ends rest) :
    number x.negative (FloatStyle.standard.size x ++ rest) = .ok (.float x, rest) := by
  obtain ⟨ds, part, power, hsize, hds, hpart, hpower, hne⟩ := size_parts FloatStyle.standard hx
  have hread := size?_size hx FloatStyle.standard
  rw [hsize] at hread ⊢
  exact number_double hds hpart hpower hne hr hread

/-- Numbers are no words. -/
theorem atom_withSign {cs : List Char} (h : ∃ c more, cs = c :: more ∧ c.isDigit = true)
    (negative : Bool) : atom (withSign negative cs) = number negative cs := by
  obtain ⟨c, more, rfl, hc⟩ := h
  have hne (d : Char) (hd : d.isDigit = false) : d ≠ c := by
    rintro rfl
    exact Bool.false_ne_true (hd.symm.trans hc)
  have hlead (d : Char) (word : List Char) (hd : d.isDigit = false) :
      Text.dropLead? (d :: word) (c :: more) = none := if_neg (hne d hd)
  have hword : words.findSome? (fun w =>
      (Text.dropLead? w.1 (withSign negative (c :: more))).map fun rest => (w.2, rest)) = none := by
    refine List.findSome?_eq_none_iff.mpr fun w hw => ?_
    have hsecond := hlead 'I' "nfinity".toList rfl
    simp only [words, List.mem_cons, List.not_mem_nil, or_false] at hw
    cases negative
    · rcases hw with rfl | rfl | rfl | rfl | rfl | rfl <;> exact congrArg _ (hlead _ _ rfl)
    · rcases hw with rfl | rfl | rfl | rfl | rfl | rfl
      · rfl
      · rfl
      · rfl
      · rfl
      · rfl
      · exact congrArg _ hsecond
  unfold atom
  rw [hword]
  cases negative with
  | true => rfl
  | false =>
    dsimp only
    split
    · next heq => exact absurd (List.cons.inj heq).1.symm (hne '-' rfl)
    · rfl

theorem withSign_append (negative : Bool) (cs rest : List Char) :
    withSign negative cs ++ rest = withSign negative (cs ++ rest) := by
  cases negative <;> rfl

/-- A whole number of not too many digits is read back from its text. -/
theorem atom_int {n : Int} (h : Scaled.digitCount n.natAbs ≤ maxDigits) (hr : Ends rest) :
    atom ((toString n).toList ++ rest) = .ok (.int n, rest) := by
  obtain ⟨c, more, hdigits, hc⟩ := (isNumeral_digits n.natAbs).starts
  have hvalue : (if decide (n < 0) = true then -(n.natAbs : Int) else n.natAbs) = n := by
    simp only [decide_eq_true_eq]
    split <;> omega
  rw [toList_toString_int, withSign_append,
    atom_withSign ⟨c, more ++ rest, by rw [hdigits]; rfl, hc⟩,
    number_whole (isWhole_digits n.natAbs) hr h, natOf_toDigits, hvalue]

theorem floatText_finite {x : Binary64} (h : x.isFinite = true) :
    floatText x = withSign x.negative (FloatStyle.standard.size x) := by
  have hexponent : x.exponent.val ≠ 2047 := by simpa [Binary64.isFinite] using h
  have hnan : x.isNaN = false := by simp [Binary64.isNaN, hexponent]
  have hinfinite : x.isInfinite = false := by simp [Binary64.isInfinite, hexponent]
  simp only [floatText, hnan, hinfinite, Bool.false_eq_true, if_false, toList_text h]

/-- A double is a number or one of the two infinities. -/
theorem eq_infinity {x : Binary64} (h : x.isNaN = false) (hfinite : ¬x.isFinite = true) :
    x = .infinity x.negative := by
  obtain ⟨negative, exponent, fraction⟩ := x
  have hexponent : exponent.val = 2047 := by simpa [Binary64.isFinite] using hfinite
  have hfraction : fraction.val = 0 := by simpa [Binary64.isNaN, hexponent] using h
  exact congrArg₂ (Binary64.mk negative) (Fin.ext hexponent) (Fin.ext hfraction)

theorem floatText_infinity (negative : Bool) : floatText (.infinity negative) =
    withSign negative "Infinity".toList := by
  cases negative <;> rfl

/-- A double that is a number is read back from its text. -/
theorem atom_float {x : Binary64} (h : x.isNaN = false) (hr : Ends rest) :
    atom (floatText x ++ rest) = .ok (.float x, rest) := by
  by_cases hfinite : x.isFinite = true
  · obtain ⟨c, more, hsize, hc⟩ := (isNumeral_size FloatStyle.standard x).starts
    rw [floatText_finite hfinite, withSign_append,
      atom_withSign ⟨c, more ++ rest, by rw [hsize]; rfl, hc⟩, number_size hfinite hr]
  · rw [eq_infinity h hfinite]
    cases x.negative <;> rfl

end Json

end DocGrid

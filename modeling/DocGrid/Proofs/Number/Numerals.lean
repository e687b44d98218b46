import DocGrid.Proofs.Json.Numbers
import DocGrid.Store.Sql.Numeral

/-! Texts that look like numbers to a database. The text of a number is one; most other texts show
by their first character that they are none. -/

namespace DocGrid.Numeral

open Reading

variable {c : Char} {cs : List Char}

theorem trim_cons (h : isSpace c = false) (cs : List Char) : ∃ more, trim (c :: cs) = c :: more := by
  have hlead : (c :: cs).dropWhile isSpace = c :: cs := List.dropWhile_cons_of_neg (by simp [h])
  have hlast : [c].dropWhile isSpace = [c] := List.dropWhile_cons_of_neg (by simp [h])
  rw [trim, hlead, List.reverse_cons, List.dropWhile_append]
  split
  · exact ⟨[], by rw [hlast]; rfl⟩
  · exact ⟨_, List.reverse_concat⟩

/-- A text is no number when neither a sign nor a digit nor a point comes first. -/
theorem read?_eq_none (hspace : isSpace c = false) (hdigit : isPlain c = false)
    (hsign : c ≠ '-' ∧ c ≠ '+') (hpoint : c ≠ '.') :
    read? (String.ofList (c :: cs)) = none := by
  obtain ⟨more, htrim⟩ := trim_cons hspace cs
  have hsplit : splitSign (c :: more) = (false, c :: more) := by
    unfold splitSign
    split
    · next heq => exact absurd (List.cons.inj heq).1 hsign.1
    · next heq => exact absurd (List.cons.inj heq).1 hsign.2
    · rfl
  simp [read?, String.toList_ofList, htrim, hsplit, hdigit, hpoint]

theorem trim_of_ends (hfirst : ∀ c ∈ cs.head?, isSpace c = false)
    (hlast : ∀ c ∈ cs.getLast?, isSpace c = false) : trim cs = cs := by
  have hkeep {ds : List Char} (hd : ∀ c ∈ ds.head?, isSpace c = false) :
      ds.dropWhile isSpace = ds := by
    cases ds with
    | nil => rfl
    | cons d ds => exact List.dropWhile_cons_of_neg (by simp [hd d rfl])
  have hback : ∀ c ∈ cs.reverse.head?, isSpace c = false := by rwa [List.head?_reverse]
  rw [trim, hkeep hfirst, hkeep hback, List.reverse_reverse]

theorem trim_numeral (h : ∀ c ∈ cs, c ∈ numeralChars) : trim cs = cs := by
  have hsolid : ∀ c ∈ numeralChars, isSpace c = false := forall_numeralChars (by decide)
  exact Text.dropEnds_eq_self fun c hc => hsolid c (h c hc)

/-- A database takes for numbers what is read as a number elsewhere. -/
theorem read?_withSign (h : IsNumeral cs) (negative : Bool) :
    (read? (String.ofList (withSign negative cs))).map (·.isWhole) =
      (size? negative cs).map fun _ => (cs.dropWhile isPlain).isEmpty := by
  obtain ⟨c, rest, hcs, hc⟩ := h.starts
  have hlower : ∀ first word, first.isDigit = false → Text.lower cs ≠ first :: word := by
    intro first word hfirst
    have hne := lower_ne_word (List.cons_ne_nil c []) (by simpa using hc) rest first word hfirst
    rwa [hcs]
  simp only [read?, String.toList_ofList, trim_numeral (h.chars_withSign negative),
    h.splitSign_withSign, size?, hlower 'i' _ rfl, hlower 'n' _ rfl, decide_false, Bool.or_self,
    Bool.false_eq_true, if_false]
  -- Both readers cut the text in the same places.
  generalize cs.takeWhile isPlain = whole
  generalize cs.dropWhile isPlain = after
  have hcut (part tail : List Char) (isWhole : Bool) :
      (if (whole.isEmpty && part.isEmpty) = true then none
        else (exponent? tail).map fun e => (⟨negative, whole, part, e, isWhole⟩ : Numeral)).map
          (·.isWhole) =
      (if (whole.isEmpty && part.isEmpty) = true then none
        else (exponent? tail).map fun e => nearest negative (natOf (whole ++ part))
          (e - part.length)).map fun _ => isWhole := by
    split
    · rfl
    · rw [Option.map_map, Option.map_map]
      rfl
  exact hcut _ _ _

theorem read?_int (n : Int) : read? (toString n) =
    some ⟨decide (n < 0), Nat.toDigits 10 n.natAbs, [], 0, true⟩ := by
  have hnumeral := isNumeral_digits n.natAbs
  have hdigit : ∀ c ∈ Nat.toDigits 10 n.natAbs, c.isDigit = true :=
    fun _ => Text.isDigit_of_mem_digits
  have htake := takeWhile_digits hdigit stops_nil
  have hdrop := dropWhile_digits hdigit stops_nil
  have hne : (Nat.toDigits 10 n.natAbs).isEmpty = false :=
    List.isEmpty_eq_false_iff.mpr Nat.toDigits_ne_nil
  rw [List.append_nil] at htake hdrop
  simp only [read?, toList_toString_int, trim_numeral (hnumeral.chars_withSign _),
    hnumeral.splitSign_withSign, htake, hdrop, hne, exponent?, Bool.false_and, Bool.false_eq_true,
    if_false, Option.map_some, List.isEmpty_nil]

/-- Digits are no number when something else than a point or an exponent follows. -/
theorem read?_digits_eq_none {ds : List Char} (hne : ds ≠ []) (hds : ∀ c ∈ ds, c.isDigit = true)
    (hc : isPlain c = false ∧ c ≠ '.' ∧ c ≠ 'e' ∧ c ≠ 'E')
    (hlast : ∀ d ∈ (c :: cs).getLast?, isSpace d = false) :
    read? (String.ofList (ds ++ c :: cs)) = none := by
  obtain ⟨hplain, hpoint, he, he'⟩ := hc
  have hstop : Stops (c :: cs) := by
    intro d hd
    obtain rfl := Option.some.inj hd
    exact hplain
  obtain ⟨d, more, rfl⟩ := List.exists_cons_of_ne_nil hne
  have hdigit := hds d List.mem_cons_self
  have htrim : trim (d :: more ++ c :: cs) = d :: more ++ c :: cs := by
    refine trim_of_ends ?_ ?_
    · have hsolid : ∀ c ∈ numeralChars, isSpace c = false := forall_numeralChars (by decide)
      simpa using hsolid d (mem_numeralChars_of_isDigit hdigit)
    · rwa [List.getLast?_append_of_ne_nil _ (by simp)]
  have hsplit : splitSign (d :: more ++ c :: cs) = (false, d :: more ++ c :: cs) :=
    splitSign_of_digit hdigit _
  simp only [read?, String.toList_ofList, htrim, hsplit, takeWhile_digits hds hstop,
    dropWhile_digits hds hstop]
  simp [hpoint, exponent?, he, he']

/-- The text of a finite double has a point or an exponent. -/
theorem read?_double {x : Binary64} (hx : x.isFinite = true) : ∃ n : Numeral,
    read? (String.ofList (Json.floatText x)) = some n ∧ n.isWhole = false := by
  have hread := read?_withSign (isNumeral_size FloatStyle.standard x) x.negative
  rw [size?_size hx, Option.map_some, Option.map_eq_some_iff] at hread
  obtain ⟨n, hn, hwhole⟩ := hread
  rw [Json.floatText_finite hx]
  refine ⟨n, hn, hwhole.trans ?_⟩
  obtain ⟨ds, part, power, hsize, hds, hpart, hpower, hne⟩ := Json.size_parts FloatStyle.standard hx
  have hstop : Stops (part ++ power) := by
    have hstops := hpart.stops (hpower.stops (by simp [Json.Ends] : Json.Ends []))
    rwa [List.append_nil] at hstops
  rw [hsize, dropWhile_digits hds.digits hstop]
  exact List.isEmpty_eq_false_iff.mpr hne

end DocGrid.Numeral

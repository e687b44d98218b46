import DocGrid.Text.Blank
import Mathlib.Data.List.DropRight
import Mathlib.Data.List.Infix

/-! Texts without white space at their ends: what trimming keeps, and where it stops. -/

namespace DocGrid.Text

/-- Where nothing is to be dropped, nothing is dropped from either end. -/
theorem dropEnds_eq_self {p : Char → Bool} {cs : List Char} (h : ∀ c ∈ cs, p c = false) :
    ((cs.dropWhile p).reverse.dropWhile p).reverse = cs := by
  have hkeep {ds : List Char} (hd : ∀ c ∈ ds, p c = false) : ds.dropWhile p = ds := by
    cases ds with
    | nil => rfl
    | cons d ds => simp [hd d (by simp)]
  rw [hkeep h, hkeep fun c hc => h c (List.mem_reverse.mp hc), List.reverse_reverse]

theorem trim_of_solid {cs : List Char} (h : ∀ c ∈ cs, isBlank c = false) : trim cs = cs :=
  dropEnds_eq_self h

theorem trimEnd_eq (cs : List Char) : trimEnd cs = cs.rdropWhile isBlank := rfl

theorem trimStart_suffix (cs : List Char) : trimStart cs <:+ cs :=
  List.dropWhile_suffix _

theorem prefix_trimEnd (cs : List Char) : trimEnd cs <+: cs := by
  rw [trimEnd_eq]
  exact List.rdropWhile_prefix _ cs

theorem infix_trim (cs : List Char) : trim cs <:+: cs :=
  (prefix_trimEnd _).isInfix.trans (trimStart_suffix cs).isInfix

theorem mem_of_mem_trim {c : Char} {cs : List Char} (h : c ∈ trim cs) : c ∈ cs :=
  (infix_trim cs).subset h

theorem count_trimStart {c : Char} (h : isBlank c = false) (cs : List Char) :
    (trimStart cs).count c = cs.count c := by
  induction cs with
  | nil => rfl
  | cons d cs ih =>
    cases hd : isBlank d with
    | true =>
      have hne : d ≠ c := by
        rintro rfl
        simp [h] at hd
      rw [List.count_cons_of_ne hne, ← ih, trimStart, trimStart, List.dropWhile_cons_of_pos hd]
    | false => rw [trimStart, List.dropWhile_cons_of_neg (by simp [hd])]

/-- Only white space is trimmed. -/
theorem count_trim {c : Char} (h : isBlank c = false) (cs : List Char) :
    (trim cs).count c = cs.count c := by
  have hback : (trimEnd (trimStart cs)).count c = (trimStart (trimStart cs).reverse).count c :=
    List.count_reverse
  rw [trim, hback, count_trimStart h, List.count_reverse, count_trimStart h]

theorem trimStart_cons_blank {c : Char} (h : isBlank c = true) (cs : List Char) :
    trimStart (c :: cs) = trimStart cs := by
  simp [trimStart, h]

theorem trimStart_cons_solid {c : Char} (h : isBlank c = false) (cs : List Char) :
    trimStart (c :: cs) = c :: cs := by
  simp [trimStart, h]

theorem trimEnd_concat_solid {c : Char} (h : isBlank c = false) (cs : List Char) :
    trimEnd (cs ++ [c]) = cs ++ [c] := by
  rw [trimEnd_eq]
  exact List.rdropWhile_concat_neg _ _ _ (by simp [h])

theorem trimStart_append {b : List Char} {c : Char} (h : isBlank c = false) (a : List Char) :
    trimStart (a ++ c :: b) = trimStart a ++ c :: b := by
  induction a with
  | nil => exact trimStart_cons_solid h b
  | cons x a ih =>
    cases hx : isBlank x with
    | true => simpa [trimStart_cons_blank hx] using ih
    | false => simp [trimStart_cons_solid hx]

theorem trimStart_head {c : Char} {cs rest : List Char} (h : trimStart cs = c :: rest) :
    isBlank c = false := by
  have hd := List.head?_dropWhile_not isBlank cs
  rw [show cs.dropWhile isBlank = c :: rest from h] at hd
  simpa using hd

@[simp] theorem trimEnd_trimEnd (cs : List Char) : trimEnd (trimEnd cs) = trimEnd cs := by
  simp only [trimEnd_eq, List.rdropWhile_idempotent]

@[simp] theorem trim_trim (cs : List Char) : trim (trim cs) = trim cs := by
  change trimEnd (trimStart (trimEnd (trimStart cs))) = trimEnd (trimStart cs)
  cases hs : trimStart cs with
  | nil => rfl
  | cons c rest =>
    -- the front of the text is untouched by trimming its end, unless nothing is left
    cases he : trimEnd (c :: rest) with
    | nil => rfl
    | cons d more =>
      obtain ⟨_, ht⟩ := prefix_trimEnd (c :: rest)
      rw [he] at ht
      have hd : d = c := (List.cons.inj ht).1
      rw [trimStart_cons_solid (hd ▸ trimStart_head hs), ← he, trimEnd_trimEnd]

theorem trim_cons_blank {c : Char} (h : isBlank c = true) (cs : List Char) :
    trim (c :: cs) = trim cs := by
  simp only [trim, trimStart_cons_blank h]

theorem trim_append_concat {c d : Char} (hc : isBlank c = false) (hd : isBlank d = false)
    (a b : List Char) : trim (a ++ c :: b ++ [d]) = trimStart a ++ c :: b ++ [d] := by
  have hs : trimStart (a ++ c :: (b ++ [d])) = trimStart a ++ c :: (b ++ [d]) :=
    trimStart_append hc a
  have he := trimEnd_concat_solid hd (trimStart a ++ c :: b)
  simp only [List.append_assoc, List.cons_append] at hs he ⊢
  rw [trim, hs, he]

theorem stripped_eq_self_iff {s : String} : stripped s = s ↔ trim s.toList = s.toList := by
  constructor
  · intro h
    rw [← String.toList_ofList (l := trim s.toList)]
    exact congrArg String.toList h
  · intro h
    rw [stripped, h, String.ofList_toList]

end DocGrid.Text

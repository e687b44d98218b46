import DocGrid.Config.Placeholder
import DocGrid.Proofs.Results
import DocGrid.Proofs.Text.Joined

/-! Placeholders filled in by one pass over the text as it stands in the file. The scan from left to
right finds every place where a placeholder is written, since no two of them overlap. What is put in
for a placeholder is not looked at again, and the first variable that is not set is reported. -/

namespace DocGrid

namespace Placeholder

def Opens (name cs : List Char) : Prop :=
  isName name = true ∧ (Piece.hole name).written <+: cs

/-- A text cut by a scan from left to right: no placeholder is written where a character is left
alone, so that each one is found at the first place after the one before. -/
structure Scan (cs : List Char) (ps : List Piece) : Prop where
  text : ps.flatMap Piece.written = cs
  names : ∀ name, .hole name ∈ ps → isName name = true
  gaps : ∀ before c after, ps = before ++ .char c :: after →
    ∀ name, ¬Opens name (c :: after.flatMap Piece.written)

/-- What stands for a piece in the end: the character itself, the value of the variable as it is. -/
inductive Piece.FilledBy (env : Environment) : Piece → List Char → Prop where
  | char (c : Char) : FilledBy env (.char c) [c]
  | hole {name : List Char} {value : String} (h : env.lookup (String.ofList name) = some value) :
    FilledBy env (.hole name) value.toList

variable {env : Environment} {cs rest name : List Char} {ps qs : List Piece} {c : Char}

theorem isNameChar_of_isName (h : isName name = true) : ∀ c ∈ name, isNameChar c = true := by
  cases name with
  | nil => simp
  | cons first more =>
    simp only [isName, Bool.and_eq_true, Bool.or_eq_true, List.all_eq_true] at h
    refine List.forall_mem_cons.mpr ⟨?_, h.2⟩
    simp only [isNameChar, Char.isAlphanum, Bool.or_eq_true]
    exact h.1.imp_left .inl

theorem name?_eq_some_iff :
    name? cs = some (name, rest) ↔ isName name = true ∧ cs = (Piece.hole name).written ++ rest := by
  constructor
  · intro h
    unfold name? at h
    split at h
    · cases h
    · next body hbody =>
      have hcut := List.takeWhile_append_dropWhile (p := isNameChar) (l := body)
      dsimp only at h
      split at h
      · next more hmore =>
        split at h
        · next hname =>
          obtain ⟨rfl, rfl⟩ := Prod.mk.inj (Option.some.inj h)
          rw [hmore] at hcut
          refine ⟨hname, ?_⟩
          calc
            cs = opening ++ body := Text.dropLead?_eq_some_iff.mp hbody
            _ = opening ++ (body.takeWhile isNameChar ++ '\x7d' :: more) := by rw [hcut]
            _ = _ := by simp [Piece.written]
        · cases h
      · cases h
  · rintro ⟨hname, rfl⟩
    have hchars := isNameChar_of_isName hname
    have hbody : Text.dropLead? opening ((Piece.hole name).written ++ rest) =
        some (name ++ '\x7d' :: rest) := by
      rw [Text.dropLead?_eq_some_iff]
      simp [Piece.written]
    have hclose : ∀ c ∈ ('\x7d' :: rest).head?, isNameChar c = false := by
      simp only [List.head?_cons, Option.mem_some_iff, forall_eq']
      decide
    unfold name?
    simp only [hbody, Text.takeWhile_run hchars hclose, Text.dropWhile_run hchars hclose, hname,
      if_true]

theorem name?_eq_none_iff : name? cs = none ↔ ∀ name, ¬Opens name cs := by
  rw [Option.eq_none_iff_forall_ne_some]
  constructor
  · rintro h name ⟨hname, rest, rfl⟩
    exact h (name, rest) (name?_eq_some_iff.mpr ⟨hname, rfl⟩)
  · rintro h ⟨name, rest⟩ heq
    obtain ⟨hname, rfl⟩ := name?_eq_some_iff.mp heq
    exact h name ⟨hname, List.prefix_append _ _⟩

@[simp] theorem pieces_nil : pieces [] = [] := by
  rw [pieces]
  rfl

@[simp] theorem pieces_hole (h : isName name = true) (rest : List Char) :
    pieces ((Piece.hole name).written ++ rest) = .hole name :: pieces rest := by
  have hname : name? ((Piece.hole name).written ++ rest) = some (name, rest) :=
    name?_eq_some_iff.mpr ⟨h, rfl⟩
  rw [pieces]
  split
  · next heq =>
    obtain ⟨rfl, rfl⟩ := Prod.mk.inj (Option.some.inj (hname.symm.trans heq))
    rfl
  · next heq =>
    cases hname.symm.trans heq

theorem pieces_char (h : ∀ name, ¬Opens name (c :: cs)) :
    pieces (c :: cs) = .char c :: pieces cs := by
  have hname := name?_eq_none_iff.mpr h
  rw [pieces]
  split
  · next heq =>
    cases hname.symm.trans heq
  · rfl

/-! The pieces are the only ones that a scan may give -/

namespace Scan

theorem nil : Scan [] [] :=
  ⟨rfl, by simp, by simp⟩

theorem hole (hname : isName name = true) (h : Scan rest ps) :
    Scan ((Piece.hole name).written ++ rest) (.hole name :: ps) := by
  refine ⟨by rw [List.flatMap_cons, h.text], ?_, fun before c after heq => ?_⟩
  · intro other hmem
    rcases List.mem_cons.mp hmem with heq | hmem
    · rwa [Piece.hole.inj heq]
    · exact h.names other hmem
  · cases before with
    | nil => cases heq
    | cons p before => exact h.gaps before c after (List.cons.inj heq).2

theorem char (hfree : ∀ name, ¬Opens name (c :: cs)) (h : Scan cs ps) :
    Scan (c :: cs) (.char c :: ps) := by
  refine ⟨?_, fun name hmem => ?_, fun before d after heq => ?_⟩
  · rw [List.flatMap_cons, h.text]
    rfl
  · exact h.names name (List.mem_of_ne_of_mem (by simp) hmem)
  · cases before with
    | nil =>
      obtain ⟨hchar, rfl⟩ := List.cons.inj heq
      rw [h.text, ← Piece.char.inj hchar]
      exact hfree
    | cons p before => exact h.gaps before d after (List.cons.inj heq).2

theorem tail {p : Piece} (h : Scan cs (p :: ps)) : Scan (ps.flatMap Piece.written) ps where
  text := rfl
  names name hmem := h.names name (List.mem_cons_of_mem p hmem)
  gaps before c after heq := h.gaps (p :: before) c after (by rw [heq, List.cons_append])

theorem eq_pieces (h : Scan cs ps) : ps = pieces cs := by
  induction ps generalizing cs with
  | nil =>
    rw [← h.text]
    exact pieces_nil.symm
  | cons p ps ih =>
    have htail := ih h.tail
    rw [← h.text]
    cases p with
    | char c =>
      have hchar := pieces_char (h.gaps [] c ps rfl)
      rw [← htail] at hchar
      exact hchar.symm
    | hole name =>
      rw [List.flatMap_cons, pieces_hole (h.names name List.mem_cons_self), ← htail]

end Scan

theorem scan_pieces (cs : List Char) : Scan cs (pieces cs) := by
  induction cs using pieces.induct with
  | case1 cs name rest hread _ ih =>
    obtain ⟨hname, rfl⟩ := name?_eq_some_iff.mp hread
    rw [pieces_hole hname]
    exact ih.hole hname
  | case2 _ =>
    rw [pieces_nil]
    exact .nil
  | case3 c rest hnone ih =>
    have hfree := name?_eq_none_iff.mp hnone
    rw [pieces_char hfree]
    exact ih.char hfree

theorem scan_iff : Scan cs ps ↔ ps = pieces cs :=
  ⟨Scan.eq_pieces, fun h => h ▸ scan_pieces cs⟩

/-! Placeholders do not overlap: only the first character of one is a dollar sign -/

theorem dollar_notMem (hname : isName name = true) :
    ∃ more, (Piece.hole name).written = '$' :: more ∧ '$' ∉ more := by
  refine ⟨"\x7benv.".toList ++ name ++ ['\x7d'], rfl, ?_⟩
  have hdollar : isNameChar '$' = false := by decide
  have hchars : '$' ∉ name := fun hmem => by
    rw [isNameChar_of_isName hname '$' hmem] at hdollar
    cases hdollar
  simp [hchars]

theorem pieces_of_dollar_notMem (h : '$' ∉ cs) : pieces cs = cs.map .char := by
  induction cs with
  | nil => exact pieces_nil
  | cons c cs ih =>
    obtain ⟨hc, hcs⟩ := List.ne_and_not_mem_of_not_mem_cons h
    have hfree (name : List Char) : ¬Opens name (c :: cs) := by
      rintro ⟨hname, hin⟩
      obtain ⟨more, hwritten, -⟩ := dollar_notMem hname
      rw [hwritten, List.cons_prefix_cons] at hin
      exact hc hin.1
    rw [pieces_char hfree, ih hcs, List.map_cons]

theorem Opens.of_append (h : Opens name (c :: cs ++ '$' :: rest)) : Opens name (c :: cs) := by
  obtain ⟨hname, hin⟩ := h
  obtain ⟨more, hwritten, hdollar⟩ := dollar_notMem hname
  rw [hwritten, List.cons_append, List.cons_prefix_cons, Text.prefix_append_sep hdollar] at hin
  rw [Opens, hwritten, List.cons_prefix_cons]
  exact ⟨hname, hin⟩

theorem Scan.append (h : Scan cs ps) (h' : Scan ('$' :: rest) qs) :
    Scan (cs ++ '$' :: rest) (ps ++ qs) := by
  refine ⟨by rw [List.flatMap_append, h.text, h'.text], fun name hmem => ?_,
    fun before c after heq => ?_⟩
  · exact (List.mem_append.mp hmem).elim (h.names name) (h'.names name)
  · rcases List.append_eq_append_iff.mp heq with ⟨more, rfl, hqs⟩ | ⟨more, hps, hqs⟩
    · exact h'.gaps more c after hqs
    · -- what is written at a character of the first part ends before the dollar sign
      cases more with
      | nil => exact h'.gaps [] c after hqs.symm
      | cons p more =>
        rw [List.cons_append] at hqs
        obtain ⟨rfl, rfl⟩ := List.cons.inj hqs
        intro name hopens
        rw [List.flatMap_append, h'.text] at hopens
        exact h.gaps before c more hps name hopens.of_append

theorem pieces_at (hname : isName name = true) (cs rest : List Char) :
    pieces (cs ++ ((Piece.hole name).written ++ rest)) =
      pieces cs ++ .hole name :: pieces rest := by
  obtain ⟨more, hwritten, -⟩ := dollar_notMem hname
  have hlater := (scan_pieces rest).hole hname
  rw [hwritten, List.cons_append] at hlater ⊢
  exact ((scan_pieces cs).append hlater).eq_pieces.symm

/-- The holes of the scan are all the places at which a placeholder is written. -/
theorem written_at_iff {a b : List Char} :
    isName name = true ∧ cs = a ++ ((Piece.hole name).written ++ b) ↔
      ∃ before after, pieces cs = before ++ .hole name :: after ∧
        before.flatMap Piece.written = a ∧ after.flatMap Piece.written = b := by
  constructor
  · rintro ⟨hname, rfl⟩
    exact ⟨pieces a, pieces b, pieces_at hname a b, (scan_pieces a).text, (scan_pieces b).text⟩
  · rintro ⟨before, after, hpieces, rfl, rfl⟩
    have hscan := scan_pieces cs
    refine ⟨hscan.names name (by simp [hpieces]), ?_⟩
    rw [← hscan.text, hpieces, List.flatMap_append, List.flatMap_cons]

/-! Filling in -/

theorem Piece.filledBy_iff {p : Piece} {out : List Char} :
    p.FilledBy env out ↔ p.fill env = .ok out := by
  constructor
  · rintro (c | h)
    · rfl
    · rw [fill, h]
  · intro h
    cases p with
    | char c =>
      obtain rfl := Except.ok.inj h
      exact .char c
    | hole name =>
      rw [fill] at h
      split at h
      · next value hvalue =>
        obtain rfl := Except.ok.inj h
        exact .hole hvalue
      · cases h

theorem Piece.fill_eq_error_iff {p : Piece} {e : Failure} : p.fill env = .error e ↔
    ∃ name, p = .hole name ∧ env.lookup (String.ofList name) = none ∧
      e = .config (.unsetVariable (String.ofList name)) := by
  cases p with
  | char c => simp [fill]
  | hole name =>
    rw [fill]
    cases h : env.lookup (String.ofList name) with
    | none => simp [h, eq_comm]
    | some value =>
      refine iff_of_false (fun hok => nomatch hok) ?_
      rintro ⟨other, heq, hunset, -⟩
      rw [← Piece.hole.inj heq, h] at hunset
      cases hunset

theorem expand_eq_ok_iff {out : List Char} : expand env cs = .ok out ↔
    ∃ parts, List.Forall₂ (Piece.FilledBy env) (pieces cs) parts ∧ out = parts.flatten := by
  have hparts (parts : List (List Char)) :
      List.Forall₂ (Piece.FilledBy env) (pieces cs) parts ↔
        (pieces cs).mapM (Piece.fill env) = .ok parts := by
    rw [Result.mapM_eq_ok_iff]
    exact ⟨fun h => h.imp fun _ _ => Piece.filledBy_iff.mp,
      fun h => h.imp fun _ _ => Piece.filledBy_iff.mpr⟩
  constructor
  · intro h
    obtain ⟨parts, hfilled, h⟩ := Result.ok_of_bind h
    exact ⟨parts, (hparts parts).mpr hfilled, (Except.ok.inj h).symm⟩
  · rintro ⟨parts, hfilled, rfl⟩
    rw [expand, (hparts parts).mp hfilled]
    rfl

structure FirstUnset (env : Environment) (ps : List Piece) (name : List Char) : Prop where
  found : ∃ before after, ps = before ++ .hole name :: after ∧
    ∀ other, .hole other ∈ before → (env.lookup (String.ofList other)).isSome
  unset : env.lookup (String.ofList name) = none

theorem FirstUnset.cons {p : Piece} (h : FirstUnset env ps name)
    (hp : ∀ other, p = .hole other → (env.lookup (String.ofList other)).isSome) :
    FirstUnset env (p :: ps) name := by
  obtain ⟨⟨before, after, rfl, hbefore⟩, hunset⟩ := h
  refine ⟨⟨p :: before, after, rfl, fun other hmem => ?_⟩, hunset⟩
  exact (List.mem_cons.mp hmem).elim (fun heq => hp other heq.symm) (hbefore other)

theorem exists_firstUnset_iff : (∃ name, FirstUnset env ps name) ↔
    ∃ name, .hole name ∈ ps ∧ env.lookup (String.ofList name) = none := by
  constructor
  · rintro ⟨name, ⟨before, after, rfl, -⟩, hunset⟩
    exact ⟨name, by simp, hunset⟩
  · rintro ⟨name, hmem, hunset⟩
    induction ps with
    | nil => cases hmem
    | cons p ps ih =>
      by_cases hp : ∀ other, p = .hole other → (env.lookup (String.ofList other)).isSome
      · have hne : .hole name ≠ p := by
          rintro rfl
          exact absurd (hp name rfl) (by simp [hunset])
        obtain ⟨first, hfirst⟩ := ih (List.mem_of_ne_of_mem hne hmem)
        exact ⟨first, hfirst.cons hp⟩
      · simp only [not_forall, Option.not_isSome_iff_eq_none] at hp
        obtain ⟨first, rfl, hfirst⟩ := hp
        exact ⟨first, ⟨[], ps, rfl, by simp⟩, hfirst⟩

theorem expand_eq_error_iff {e : Failure} : expand env cs = .error e ↔
    ∃ name, FirstUnset env (pieces cs) name ∧
      e = .config (.unsetVariable (String.ofList name)) := by
  have hfills (before : List Piece) : (∀ p ∈ before, ∃ out, p.fill env = .ok out) ↔
      ∀ other, .hole other ∈ before → (env.lookup (String.ofList other)).isSome := by
    constructor
    · intro h other hmem
      obtain ⟨out, hout⟩ := h _ hmem
      obtain hvalue := Piece.filledBy_iff.mpr hout
      cases hvalue with
      | hole h => simp [h]
    · intro h p hmem
      cases p with
      | char c => exact ⟨[c], rfl⟩
      | hole other =>
        obtain ⟨value, hvalue⟩ := Option.isSome_iff_exists.mp (h other hmem)
        exact ⟨_, Piece.filledBy_iff.mp (.hole hvalue)⟩
  constructor
  · intro h
    rcases Result.error_of_bind h with h | ⟨parts, -, h⟩
    · obtain ⟨before, p, after, hpieces, hbefore, hp⟩ := Result.mapM_eq_error_iff.mp h
      obtain ⟨name, rfl, hunset, rfl⟩ := Piece.fill_eq_error_iff.mp hp
      exact ⟨name, ⟨⟨before, after, hpieces, (hfills before).mp hbefore⟩, hunset⟩, rfl⟩
    · cases h
  · rintro ⟨name, ⟨⟨before, after, hpieces, hbefore⟩, hunset⟩, rfl⟩
    have hfails := Result.mapM_eq_error_iff.mpr ⟨before, .hole name, after, hpieces,
      (hfills before).mpr hbefore, Piece.fill_eq_error_iff.mpr ⟨name, rfl, hunset, rfl⟩⟩
    rw [expand, hfails]
    rfl

end Placeholder

end DocGrid

import DocGrid.Filter.TextSearch
import DocGrid.Proofs.Text.Joined

/-! A search looks into all texts of a document joined by spaces. A term without a space is found
there exactly if one of the texts has it, in whatever order they stand. A phrase with a space may
also be put together by the end of one text and the beginning of the next. -/

namespace DocGrid

theorem SearchTerm.text_ne_nil {search : String} {t : SearchTerm} (h : t ∈ ofText search) :
    t.text ≠ [] := by
  have hscan : ∀ fuel cs, t ∈ scan fuel cs → t.isVoid = false := by
    intro fuel
    induction fuel with
    | zero => intro cs hmem; cases hmem
    | succ fuel ih =>
      intro cs hmem
      cases cs with
      | nil => cases hmem
      | cons c cs =>
        rw [scan] at hmem
        split at hmem
        · exact ih _ hmem
        · dsimp only at hmem
          split at hmem
          · exact ih _ hmem
          · next hsolid =>
            rcases List.mem_cons.mp hmem with rfl | hmem
            · simpa using hsolid
            · exact ih _ hmem
  have hvoid := hscan _ _ h
  intro hnil
  simp [isVoid, hnil] at hvoid

namespace TextSearch

theorem isWord_space : Text.isWord ' ' = false := by decide +kernel

/-! The words of joined texts. -/

theorem words_cons_of_blank {c : Char} (hc : Text.isWord c = false) (cs : List Char) :
    words (c :: cs) = words cs := by
  simp [words, hc]

theorem words_word_then {c : Char} (hc : Text.isWord c = true) {cs : List Char}
    (h : ∀ d ∈ cs.head?, Text.isWord d = false) : words (c :: cs) = [c] :: words cs := by
  rw [words.eq_def]
  simp only [hc]
  cases cs with
  | nil => simp [words]
  | cons d rest =>
    have hd := h d rfl
    generalize words (d :: rest) = ws
    cases ws with
    | nil => simp
    | cons w ws => simp [hd]

theorem words_word_more {c d : Char} (hc : Text.isWord c = true) (hd : Text.isWord d = true)
    {cs : List Char} {w : List Char} {ws : List (List Char)} (h : words (d :: cs) = w :: ws) :
    words (c :: d :: cs) = (c :: w) :: ws := by
  rw [words.eq_2 c d cs w ws h]
  simp [hc, hd]

theorem words_ne_nil {c : Char} (hc : Text.isWord c = true) (cs : List Char) :
    words (c :: cs) ≠ [] := by
  induction cs generalizing c with
  | nil => simp [words, hc]
  | cons d rest ih =>
    by_cases hd : Text.isWord d = true
    · obtain ⟨w, ws, hw⟩ := List.exists_cons_of_ne_nil (ih hd)
      rw [words_word_more hc hd hw]
      exact List.cons_ne_nil _ _
    · rw [words_word_then hc (by simpa using hd)]
      exact List.cons_ne_nil _ _

theorem words_append_space (cs ds : List Char) :
    words (cs ++ ' ' :: ds) = words cs ++ words ds := by
  induction cs with
  | nil => exact words_cons_of_blank isWord_space ds
  | cons c cs ih =>
    by_cases hc : Text.isWord c = true
    · cases cs with
      | nil =>
        rw [List.cons_append, words_word_then hc (by simpa using isWord_space), ih,
          words_word_then hc (by simp)]
        rfl
      | cons d rest =>
        by_cases hd : Text.isWord d = true
        · -- The first word goes on, and the induction has it as the first word of the rest.
          obtain ⟨w, ws, hw⟩ := List.exists_cons_of_ne_nil (words_ne_nil hd rest)
          rw [hw] at ih
          rw [words_word_more hc hd hw]
          exact words_word_more hc hd ih
        · have hhead : ∀ e ∈ (d :: rest).head?, Text.isWord e = false := by simpa using hd
          rw [List.cons_append, words_word_then hc (by simpa using hd), ih,
            words_word_then hc hhead]
          rfl
    · have hblank : Text.isWord c = false := by simpa using hc
      rw [List.cons_append, words_cons_of_blank hblank, words_cons_of_blank hblank, ih]

theorem words_join (pieces : List (List Char)) :
    words (Text.join [' '] pieces) = pieces.flatMap words := by
  induction pieces with
  | nil => rfl
  | cons p ps ih =>
    cases ps with
    | nil => simp [Text.join]
    | cons q qs =>
      simp only [Text.join, List.append_assoc, List.singleton_append] at ih ⊢
      rw [words_append_space, ih]
      exact List.flatMap_cons.symm

/-! A text in the form in which it is searched. -/

def shape (caseSensitive : Bool) (cs : List Char) : List Char :=
  if caseSensitive then cs else Text.lower cs

theorem shape_join (caseSensitive : Bool) (pieces : List (List Char)) :
    shape caseSensitive (Text.join [' '] pieces) =
      Text.join [' '] (pieces.map (shape caseSensitive)) := by
  cases caseSensitive with
  | false => exact Text.lower_join pieces
  | true => exact congrArg (Text.join [' ']) (List.map_id' pieces).symm

/-- What is looked for anywhere, and not as a whole word. -/
def isLoose (needle : List Char) : Bool :=
  needle.isEmpty || needle.contains ' ' || !needle.all Text.isWord

/-- Whether a term is found in texts that are joined. -/
def finds (caseSensitive : Bool) (texts : List String) (term : List Char) : Bool :=
  contains caseSensitive (shape caseSensitive (Text.join [' '] (texts.map String.toList))) term

def findsIn (caseSensitive : Bool) (term : List Char) (s : String) : Bool :=
  contains caseSensitive (shape caseSensitive s.toList) term

/-- A term is found in the joined texts, but in none of them. -/
def Straddles (caseSensitive : Bool) (texts : List String) (term : List Char) : Prop :=
  finds caseSensitive texts term = true ∧ ∀ s ∈ texts, findsIn caseSensitive term s = false

theorem holds_eq (search : String) (options : Document) (doc : Value) :
    holds search options doc =
      matchesTerms (SearchTerm.ofText search) (finds (isCaseSensitive options) doc.texts) := rfl

section Term

variable {caseSensitive : Bool} {term : List Char} (hne : term ≠ []) {texts : List String}

theorem finds_eq (caseSensitive : Bool) (texts : List String) (term : List Char) :
    finds caseSensitive texts term = contains caseSensitive
      (Text.join [' '] (texts.map fun s => shape caseSensitive s.toList)) term := by
  rw [finds, shape_join, List.map_map]
  rfl

theorem contains_eq (caseSensitive : Bool) (text term : List Char) :
    contains caseSensitive text term =
      if isLoose (shape caseSensitive term) then Text.occursIn (shape caseSensitive term) text
      else (words text).contains (shape caseSensitive term) := rfl

include hne

theorem shape_ne_nil (caseSensitive : Bool) : shape caseSensitive term ≠ [] := by
  unfold shape
  split
  · exact hne
  · exact Text.lower_ne_nil hne

theorem finds_iff (hspace : ' ' ∉ term) :
    finds caseSensitive texts term = true ↔ ∃ s ∈ texts, findsIn caseSensitive term s = true := by
  have hne' := shape_ne_nil hne caseSensitive
  have hspace' : ' ' ∉ shape caseSensitive term := by
    unfold shape
    split
    · exact hspace
    · exact Text.space_notMem_lower hspace
  simp only [finds_eq, findsIn, contains_eq]
  split
  · simp [Text.infix_join_iff hne' hspace']
  · simp only [words_join, List.contains_iff_mem, List.mem_flatMap, List.mem_map,
      exists_exists_and_eq_and]

theorem not_straddles (hspace : ' ' ∉ term) : ¬Straddles caseSensitive texts term := by
  rintro ⟨hfound, hnone⟩
  obtain ⟨s, hs, hin⟩ := (finds_iff hne hspace).mp hfound
  rw [hnone s hs] at hin
  cases hin

theorem finds_of_mem {s : String} (hs : s ∈ texts) (h : findsIn caseSensitive term s = true) :
    finds caseSensitive texts term = true := by
  by_cases hspace : ' ' ∈ term
  · have hkept : ' ' ∈ shape caseSensitive term := by
      unfold shape
      split
      · exact hspace
      · exact Text.space_mem_lower hspace
    have hloose : isLoose (shape caseSensitive term) = true := by simp [isLoose, hkept]
    rw [findsIn, contains_eq, if_pos hloose, Text.occursIn_iff] at h
    rw [finds_eq, contains_eq, if_pos hloose, Text.occursIn_iff]
    exact h.trans (Text.infix_join_of_mem (List.mem_map.mpr ⟨s, hs, rfl⟩))
  · exact (finds_iff hne hspace).mpr ⟨s, hs, h⟩

theorem finds_iff_or_straddles : finds caseSensitive texts term = true ↔
    (∃ s ∈ texts, findsIn caseSensitive term s = true) ∨ Straddles caseSensitive texts term := by
  constructor
  · intro hfound
    by_cases hone : ∃ s ∈ texts, findsIn caseSensitive term s = true
    · exact .inl hone
    · refine .inr ⟨hfound, fun s hs => ?_⟩
      exact Bool.eq_false_iff.mpr fun hin => hone ⟨s, hs, hin⟩
  · rintro (⟨s, hs, hin⟩ | hacross)
    · exact finds_of_mem hne hs hin
    · exact hacross.1

/-- The order of the texts counts only for what runs across them. -/
theorem finds_perm {others : List String} (hperm : texts.Perm others)
    (hphrase : ' ' ∈ term →
      (Straddles caseSensitive texts term ↔ Straddles caseSensitive others term)) :
    finds caseSensitive texts term = finds caseSensitive others term := by
  have hacross : Straddles caseSensitive texts term ↔ Straddles caseSensitive others term := by
    by_cases hspace : ' ' ∈ term
    · exact hphrase hspace
    · exact iff_of_false (not_straddles hne hspace) (not_straddles hne hspace)
  rw [Bool.eq_iff_iff, finds_iff_or_straddles hne, finds_iff_or_straddles hne, hacross]
  simp only [hperm.mem_iff]

end Term

theorem matchesTerms_congr {terms : List SearchTerm} {has has' : List Char → Bool}
    (h : ∀ t ∈ terms, has t.text = has' t.text) :
    matchesTerms terms has = matchesTerms terms has' := by
  have hany (sign : SearchTerm → Bool) :
      ((terms.filter sign).map (·.text)).any has = ((terms.filter sign).map (·.text)).any has' := by
    rw [List.any_map, List.any_map, Bool.eq_iff_iff, List.any_eq_true, List.any_eq_true]
    refine exists_congr fun t => and_congr_right fun ht => ?_
    have hterm := h t (List.mem_filter.mp ht).1
    change has t.text = true ↔ has' t.text = true
    rw [hterm]
  unfold matchesTerms SearchTerm.wanted SearchTerm.unwanted
  rw [hany, hany]

end TextSearch

end DocGrid

import DocGrid.Filter.Terms
import DocGrid.Proofs.Text.Split

/-! Reading a search undoes writing it. Each term is read up to its own end, whatever hyphens it
starts with and whatever white space stands between its quotation marks. -/

namespace DocGrid.SearchTerm

/-- What may be written as a term without quotation marks. At the start of a wanted word a hyphen
would be a mark. -/
structure IsWord (negated : Bool) (text : List Char) : Prop where
  ne_nil : text ≠ []
  ne_hyphen : text ≠ ['-']
  solid : ∀ c ∈ text, Text.isBlank c = false
  unquoted : '"' ∉ text
  unmarked : negated = false → text.head? ≠ some '-'

structure IsPhrase (text : List Char) : Prop where
  ne_nil : text ≠ []
  ne_hyphen : text ≠ ['-']
  unquoted : '"' ∉ text

/-- A term together with the way it is written. -/
inductive Entry where
  | word (negated : Bool) (text : List Char) (h : IsWord negated text)
  | phrase (negated : Bool) (text : List Char) (h : IsPhrase text)

namespace Entry

def term : Entry → SearchTerm
  | word negated text _ => ⟨negated, text⟩
  | phrase negated text _ => ⟨negated, text⟩

def written : Entry → List Char
  | word negated text _ => if negated then '-' :: text else text
  | phrase negated text _ =>
    let quoted := '"' :: text ++ ['"']
    if negated then '-' :: quoted else quoted

end Entry

def written (entries : List Entry) : List Char :=
  Text.join [' '] (entries.map Entry.written)

/-- A word that was begun before does not go on here. -/
def Ends (rest : List Char) : Prop :=
  ∀ c ∈ rest.head?, Text.isBlank c = true

def first (cs : List Char) : SearchTerm × List Char :=
  (quoted? cs).getD (word cs)

variable {negated : Bool} {text rest : List Char}

theorem isBlank_space : Text.isBlank ' ' = true := by decide

theorem takeWhile_solid (h : ∀ c ∈ text, Text.isBlank c = false) (hrest : Ends rest) :
    (text ++ rest).takeWhile (fun c => !Text.isBlank c) = text :=
  Text.takeWhile_run (fun c hc => by simp [h c hc]) fun c hc => by simp [hrest c hc]

theorem dropWhile_solid (h : ∀ c ∈ text, Text.isBlank c = false) (hrest : Ends rest) :
    (text ++ rest).dropWhile (fun c => !Text.isBlank c) = rest :=
  Text.dropWhile_run (fun c hc => by simp [h c hc]) fun c hc => by simp [hrest c hc]

theorem phrase?_append (h : '"' ∉ text) (rest : List Char) :
    phrase? (text ++ '"' :: rest) = some (text, rest) := by
  have hinside : ∀ c ∈ text, decide (c ≠ '"') = true :=
    fun c hc => decide_eq_true (ne_of_mem_of_not_mem hc h)
  unfold phrase?
  rw [Text.takeWhile_run hinside (by simp), Text.dropWhile_run hinside (by simp)]

theorem quoted?_eq_none {c : Char} {cs : List Char} (hc : c ≠ '"')
    (hmark : c = '-' → cs.head? ≠ some '"') : quoted? (c :: cs) = none := by
  unfold quoted?
  split
  · next heq => exact absurd (List.cons.inj heq).1 hc
  · next heq =>
    obtain ⟨hhyphen, rfl⟩ := List.cons.inj heq
    exact absurd rfl (hmark hhyphen)
  · rfl

theorem first_word (h : IsWord negated text) (hrest : Ends rest) :
    first ((if negated then '-' :: text else text) ++ rest) = (⟨negated, text⟩, rest) := by
  obtain ⟨c, more, rfl⟩ := List.exists_cons_of_ne_nil h.ne_nil
  have hc : c ≠ '"' := fun heq => h.unquoted (heq ▸ List.mem_cons_self)
  cases negated with
  | false =>
    have hmark : c ≠ '-' := fun heq => h.unmarked rfl (by rw [heq, List.head?_cons])
    have hnone : quoted? (c :: more ++ rest) = none :=
      quoted?_eq_none hc fun heq => absurd heq hmark
    rw [if_neg Bool.false_ne_true, first, hnone, Option.getD_none, word]
    rw [takeWhile_solid h.solid hrest, dropWhile_solid h.solid hrest]
    split
    · next heq => exact absurd (List.cons.inj heq).1 hmark
    · rfl
  | true =>
    have hsolid : ∀ d ∈ '-' :: c :: more, Text.isBlank d = false :=
      List.forall_mem_cons.mpr ⟨by decide, h.solid⟩
    have hnone : quoted? ('-' :: c :: more ++ rest) = none :=
      quoted?_eq_none (by decide) fun _ heq => hc (Option.some.inj heq)
    rw [if_pos rfl, first, hnone, Option.getD_none, word]
    rw [takeWhile_solid hsolid hrest, dropWhile_solid hsolid hrest]
    rfl

theorem first_phrase (h : IsPhrase text) (rest : List Char) :
    first ((Entry.phrase negated text h).written ++ rest) = (⟨negated, text⟩, rest) := by
  have hphrase := phrase?_append h.unquoted rest
  cases negated with
  | false => simp [first, Entry.written, quoted?, hphrase]
  | true => simp [first, Entry.written, quoted?, hphrase]

/-- A term ends where it was written to end. -/
theorem first_written (e : Entry) (hrest : Ends rest) :
    first (e.written ++ rest) = (e.term, rest) := by
  cases e with
  | word negated text h => exact first_word h hrest
  | phrase negated text h => exact first_phrase h rest

theorem isVoid_term (e : Entry) : e.term.isVoid = false := by
  cases e with
  | word negated text h => simp [Entry.term, isVoid, h.ne_nil, h.ne_hyphen]
  | phrase negated text h => simp [Entry.term, isVoid, h.ne_nil, h.ne_hyphen]

theorem written_solid (e : Entry) : ∃ c cs, e.written = c :: cs ∧ Text.isBlank c = false := by
  cases e with
  | word negated text h =>
    obtain ⟨c, more, rfl⟩ := List.exists_cons_of_ne_nil h.ne_nil
    cases negated with
    | false => exact ⟨c, more, rfl, h.solid c List.mem_cons_self⟩
    | true => exact ⟨'-', c :: more, rfl, by decide⟩
  | phrase negated text h =>
    cases negated with
    | false => exact ⟨'"', _, rfl, by decide⟩
    | true => exact ⟨'-', _, rfl, by decide⟩

theorem scan_entry (e : Entry) (hrest : Ends rest) (fuel : Nat) :
    scan (fuel + 1) (e.written ++ rest) = e.term :: scan fuel rest := by
  have hfirst := first_written e hrest
  obtain ⟨c, cs, hwritten, hc⟩ := written_solid e
  rw [hwritten, List.cons_append] at hfirst ⊢
  rw [scan, if_neg (by simp [hc]), ← first, hfirst]
  simp [isVoid_term]

theorem scan_space (fuel : Nat) (cs : List Char) : scan (fuel + 1) (' ' :: cs) = scan fuel cs := by
  rw [scan, if_pos isBlank_space]

theorem scan_written {entries : List Entry} {fuel : Nat} (h : (written entries).length ≤ fuel) :
    scan fuel (written entries) = entries.map Entry.term := by
  induction entries generalizing fuel with
  | nil => cases fuel <;> rfl
  | cons e entries ih =>
    obtain ⟨c, cs, hwritten, -⟩ := written_solid e
    have hpos : 0 < e.written.length := by simp [hwritten]
    cases entries with
    | nil =>
      have htext : written [e] = e.written ++ [] := by simp [written, Text.join]
      have hends : Ends [] := by simp [Ends]
      rw [htext, List.append_nil] at h
      obtain ⟨fuel, rfl⟩ : ∃ more, fuel = more + 1 := ⟨fuel - 1, by omega⟩
      rw [htext, scan_entry e hends]
      cases fuel <;> rfl
    | cons d entries =>
      have htext : written (e :: d :: entries) = e.written ++ ' ' :: written (d :: entries) := by
        simp [written, Text.join]
      have hends : Ends (' ' :: written (d :: entries)) := by simp [Ends, isBlank_space]
      rw [htext, List.length_append, List.length_cons] at h
      obtain ⟨fuel, rfl⟩ : ∃ more, fuel = more + 1 + 1 := ⟨fuel - 2, by omega⟩
      rw [htext, scan_entry e hends, scan_space]
      exact congrArg (e.term :: ·) (ih (by omega))

/-- The terms of a search are those that it was written with. -/
theorem ofText_written (entries : List Entry) :
    let terms := ofText (String.ofList (written entries))
    terms = entries.map Entry.term ∧
      wanted terms = (entries.filter (fun e => !e.term.negated)).map (·.term.text) ∧
      unwanted terms = (entries.filter (·.term.negated)).map (·.term.text) := by
  have hterms : ofText (String.ofList (written entries)) = entries.map Entry.term := by
    rw [ofText, String.toList_ofList]
    exact scan_written (Nat.le_refl _)
  intro terms
  refine ⟨hterms, ?_, ?_⟩
  · rw [show terms = _ from hterms, wanted, List.filter_map, List.map_map]
    rfl
  · rw [show terms = _ from hterms, unwanted, List.filter_map, List.map_map]
    rfl

example : ofText "a --b -\"c - d\" \"-e\"" =
    [⟨false, ['a']⟩, ⟨true, "-b".toList⟩, ⟨true, "c - d".toList⟩, ⟨false, "-e".toList⟩] := by
  decide

end DocGrid.SearchTerm

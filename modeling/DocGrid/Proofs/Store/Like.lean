import DocGrid.Store.Sql.Condition
import Mathlib.Data.List.Infix
import Mathlib.Data.List.TakeWhile

/-! What a database finds of a term in a text. A percent sign in the term stands for any run of
characters and a low line for any one character; every other character stands for itself, up to
the letter case of ASCII. -/

namespace DocGrid.Condition

/-- The pieces of texts that a character of a term stands for. -/
inductive StandsFor : Char → List Char → Prop
  | run (cs : List Char) : StandsFor '%' cs
  | one (c : Char) : StandsFor '_' [c]
  | self {p c : Char} (h : foldedChar p = foldedChar c) : StandsFor p [c]

/-- The pieces of texts that a term stands for, character by character. -/
inductive Spells : List Char → List Char → Prop
  | nil : Spells [] []
  | cons {p : Char} {ps cs rest : List Char} (first : StandsFor p cs) (more : Spells ps rest) :
      Spells (p :: ps) (cs ++ rest)

/-- What a database sees of a text: nothing from the character zero on. -/
def seen (cs : List Char) : List Char :=
  cs.takeWhile (· ≠ '\x00')

/-- A piece of the text is one that the term stands for. A term that is cut has to end the text. -/
def Finds (term text : List Char) : Prop :=
  ∃ piece, Spells (seen term) piece ∧
    if '\x00' ∈ term then piece <:+ seen text else piece <:+: seen text

variable {p : Char} {ps qs cs term text : List Char}

theorem folded_eq (cs : List Char) : folded cs = (seen cs).map foldedChar := rfl

theorem eq_of_toLower {c d : Char} (h : c.toLower = d) (hd : d.toNat < 97 ∨ 122 < d.toNat) :
    c = d := by
  unfold Char.toLower at h
  split at h
  · next hc =>
    have hlow : 65 ≤ c.val.toNat := UInt32.le_iff_toNat_le.mp hc.1
    have hhigh : c.val.toNat ≤ 90 := UInt32.le_iff_toNat_le.mp hc.2
    have hval : d.toNat = c.val.toNat + 32 := by
      have hsum : (c.val + ('a'.val - 'A'.val)).toNat = c.val.toNat + 32 := by
        have hgap : ('a'.val - 'A'.val).toNat = 32 := rfl
        rw [UInt32.toNat_add, hgap]
        exact Nat.mod_eq_of_lt (by omega)
      rw [← h]
      exact hsum
    omega
  · exact h

theorem foldedChar_eq_iff {c d : Char} (hd : d = '%' ∨ d = '_') : foldedChar c = d ↔ c = d := by
  constructor
  · intro h
    unfold foldedChar at h
    split at h
    · rcases hd with rfl | rfl <;> exact absurd h (by decide)
    · exact eq_of_toLower h (by rcases hd with rfl | rfl <;> decide)
  · rintro rfl
    rcases hd with rfl | rfl <;> decide

theorem standsFor_iff :
    StandsFor p cs ↔ p = '%' ∨ ∃ c, cs = [c] ∧ (p = '_' ∨ foldedChar p = foldedChar c) := by
  constructor
  · rintro (⟨⟩ | ⟨c⟩ | h)
    · exact .inl rfl
    · exact .inr ⟨c, rfl, .inl rfl⟩
    · exact .inr ⟨_, rfl, .inr h⟩
  · rintro (rfl | ⟨c, rfl, rfl | h⟩)
    · exact .run cs
    · exact .one c
    · exact .self h

theorem spells_cons_iff :
    Spells (p :: ps) cs ↔ ∃ a b, cs = a ++ b ∧ StandsFor p a ∧ Spells ps b := by
  constructor
  · rintro (_ | ⟨first, more⟩)
    exact ⟨_, _, rfl, first, more⟩
  · rintro ⟨a, b, rfl, first, more⟩
    exact .cons first more

@[simp] theorem spells_percent : Spells ('%' :: ps) cs ↔ ∃ rest, rest <:+ cs ∧ Spells ps rest := by
  rw [spells_cons_iff]
  constructor
  · rintro ⟨a, b, rfl, -, more⟩
    exact ⟨b, List.suffix_append a b, more⟩
  · rintro ⟨b, ⟨a, rfl⟩, more⟩
    exact ⟨a, b, rfl, .run a, more⟩

theorem spells_concat_percent :
    Spells (ps ++ ['%']) cs ↔ ∃ front, front <+: cs ∧ Spells ps front := by
  induction ps generalizing cs with
  | nil =>
    refine iff_of_true (spells_percent.mpr ⟨[], List.nil_suffix, .nil⟩) ⟨[], List.nil_prefix, .nil⟩
  | cons p ps ih =>
    simp only [List.cons_append, spells_cons_iff, ih]
    constructor
    · rintro ⟨a, b, rfl, first, front, hfront, more⟩
      exact ⟨a ++ front, (List.prefix_append_right_inj a).mpr hfront, a, front, rfl, first, more⟩
    · rintro ⟨_, ⟨b, rfl⟩, a, front, rfl, first, more⟩
      exact ⟨a, front ++ b, List.append_assoc a front b, first, front, List.prefix_append front b,
        more⟩

@[simp] theorem ends_map (f : Char → Char) (cs : List Char) :
    ends (cs.map f) = (ends cs).map (List.map f) := by
  induction cs with
  | nil => rfl
  | cons c rest ih => rw [List.map_cons, ends, ends, List.map_cons, ih, List.map_cons]

@[simp] theorem mem_ends : qs ∈ ends cs ↔ qs <:+ cs := by
  induction cs with
  | nil => simp [ends]
  | cons c rest ih => rw [ends, List.mem_cons, ih, List.suffix_cons_iff]

theorem matchesLike_iff :
    matchesLike (ps.map foldedChar) (cs.map foldedChar) = true ↔ Spells ps cs := by
  induction ps generalizing cs with
  | nil =>
    cases cs with
    | nil => exact iff_of_true rfl .nil
    | cons c rest =>
      refine iff_of_false (by simp [matchesLike]) ?_
      rintro ⟨⟩
  | cons p ps ih =>
    rw [List.map_cons, matchesLike.eq_def]
    dsimp only
    -- A percent sign goes over any front of the text, so that the rest may match at any end of it.
    by_cases hp : p = '%'
    · subst hp
      have hends :
          (∃ rest ∈ ends cs, matchesLike (ps.map foldedChar) (rest.map foldedChar) = true) ↔
            ∃ rest, rest <:+ cs ∧ Spells ps rest := by
        simp [ih]
      rw [spells_percent, ← hends, if_pos ((foldedChar_eq_iff (.inl rfl)).mpr rfl), ends_map,
        List.any_map, List.any_eq_true]
      rfl
    · rw [if_neg (mt (foldedChar_eq_iff (.inl rfl)).mp hp)]
      cases cs with
      | nil => simp [spells_cons_iff, standsFor_iff, hp]
      | cons c rest =>
        have hone : (decide (foldedChar p = '_') || decide (foldedChar p = foldedChar c)) = true ↔
            StandsFor p [c] := by
          simp [standsFor_iff, hp, foldedChar_eq_iff]
        rw [List.map_cons]
        dsimp only
        rw [Bool.and_eq_true, hone, ih, spells_cons_iff]
        constructor
        · rintro ⟨first, more⟩
          exact ⟨[c], rest, rfl, first, more⟩
        · rintro ⟨a, b, heq, first, more⟩
          obtain ⟨d, rfl, -⟩ := (standsFor_iff.mp first).resolve_left hp
          obtain ⟨rfl, rfl⟩ := List.cons.inj heq
          exact ⟨first, more⟩

theorem seen_of_not_mem (h : '\x00' ∉ cs) : seen cs = cs := by
  refine List.takeWhile_eq_self_iff.mpr fun c hc => ?_
  simpa using fun heq : c = '\x00' => h (heq ▸ hc)

theorem seen_append_of_mem (h : '\x00' ∈ cs) (rest : List Char) : seen (cs ++ rest) = seen cs := by
  induction cs with
  | nil => cases h
  | cons c cs ih =>
    by_cases hc : c = '\x00'
    · simp [seen, hc]
    · have hrest := ih ((List.mem_cons.mp h).resolve_left (Ne.symm hc))
      simp only [seen, ne_eq, decide_not] at hrest
      simp [seen, hc, hrest]

theorem matchesLike_around :
    matchesLike (folded ('%' :: term ++ ['%'])) (folded text) = true ↔ Finds term text := by
  rw [folded_eq, folded_eq, matchesLike_iff, Finds]
  by_cases h : '\x00' ∈ term
  · have hseen : seen ('%' :: term ++ ['%']) = '%' :: seen term := by
      have hcut := seen_append_of_mem h ['%']
      simp only [seen, ne_eq, decide_not] at hcut
      simp [seen, hcut]
    simp only [hseen, spells_percent, h, if_true, and_comm]
  · have hnot : '\x00' ∉ '%' :: term ++ ['%'] := by simp [h]
    rw [seen_of_not_mem hnot, seen_of_not_mem h, List.cons_append, spells_percent]
    simp only [spells_concat_percent, h, if_false, List.infix_iff_prefix_suffix]
    constructor
    · rintro ⟨rest, hrest, front, hfront, more⟩
      exact ⟨front, more, rest, hfront, hrest⟩
    · rintro ⟨front, more, rest, hfront, hrest⟩
      exact ⟨rest, hrest, front, hfront, more⟩

/-! Terms without wildcards are looked for as they are. -/

/-- The term is in the text, for a database that compares folded characters and sees nothing from
the character zero on: a term that is cut there has to end the text. -/
def Has (term text : List Char) : Prop :=
  if '\x00' ∈ term then folded term <:+ folded text else folded term <:+: folded text

/-- The term is in the text, up to the letter case of ASCII. -/
def Contains (term text : List Char) : Prop :=
  term.map Char.toLower <:+: text.map Char.toLower

theorem spells_plain (h : ∀ p ∈ ps, p ≠ '%' ∧ p ≠ '_') :
    Spells ps cs ↔ ps.map foldedChar = cs.map foldedChar := by
  induction ps generalizing cs with
  | nil =>
    cases cs with
    | nil => exact iff_of_true .nil rfl
    | cons c rest =>
      refine iff_of_false ?_ (by simp)
      rintro ⟨⟩
  | cons p ps ih =>
    obtain ⟨⟨hpercent, hline⟩, hrest⟩ := List.forall_mem_cons.mp h
    simp only [spells_cons_iff, standsFor_iff, hpercent, hline, false_or, ih hrest]
    cases cs with
    | nil => simp
    | cons c rest =>
      rw [List.map_cons, List.map_cons, List.cons.injEq]
      constructor
      · rintro ⟨_, b, heq, ⟨d, rfl, hd⟩, more⟩
        obtain ⟨rfl, rfl⟩ := List.cons.inj heq
        exact ⟨hd, more⟩
      · rintro ⟨hc, more⟩
        exact ⟨[c], rest, rfl, ⟨c, rfl, hc⟩, more⟩

theorem finds_plain (h : ∀ p ∈ term, p ≠ '%' ∧ p ≠ '_') : Finds term text ↔ Has term text := by
  have hseen : ∀ p ∈ seen term, p ≠ '%' ∧ p ≠ '_' := fun p hp =>
    h p ((List.takeWhile_prefix _).subset hp)
  have hpieces (piece : List Char) : Spells (seen term) piece ↔
      (seen term).map foldedChar = piece.map foldedChar := spells_plain hseen
  unfold Finds Has
  split
  · simp only [hpieces, folded_eq, List.suffix_map_iff, and_comm]
  · simp only [hpieces, folded_eq, List.infix_map_iff, and_comm]

/-- The characters that are not looked for as they are: wildcards, the character zero, and those
that are read as the replacement character. -/
def specials : List Char :=
  ['%', '_', '\x00', '\ufffd', '\ufffe', '\uffff']

theorem mem_specials {c : Char} : c ∈ specials ↔
    c = '%' ∨ c = '_' ∨ c = '\x00' ∨ c = '\ufffd' ∨ c = '\ufffe' ∨ c = '\uffff' := by
  simp [specials]

theorem toNat_specials {c : Char} (h : c ∈ specials) : c.toNat < 97 ∨ 122 < c.toNat := by
  rcases mem_specials.mp h with rfl | rfl | rfl | rfl | rfl | rfl <;> decide

theorem foldedChar_eq_foldedChar_iff {c : Char} (hc : c ∉ specials) (d : Char) :
    foldedChar c = foldedChar d ↔ c.toLower = d.toLower := by
  have hlower (x : Char) (hx : x ∈ specials) : c.toLower ≠ x := fun h =>
    hc (eq_of_toLower h (toNat_specials hx) ▸ hx)
  have hfirst : foldedChar c = c.toLower := by
    refine if_neg ?_
    rintro (rfl | rfl) <;> exact hc (by decide)
  rw [hfirst]
  by_cases hd : d = '\ufffe' ∨ d = '\uffff'
  · have hsecond : foldedChar d = '\ufffd' := if_pos hd
    have hsame : d.toLower = d := by rcases hd with rfl | rfl <;> decide
    rw [hsecond, hsame]
    refine iff_of_false (hlower _ (by decide)) (hlower _ ?_)
    rcases hd with rfl | rfl <;> decide
  · rw [show foldedChar d = d.toLower from if_neg hd]

theorem map_foldedChar_eq_iff (h : ∀ c ∈ term, c ∉ specials) (piece : List Char) :
    term.map foldedChar = piece.map foldedChar ↔
      term.map Char.toLower = piece.map Char.toLower := by
  induction term generalizing piece with
  | nil => cases piece <;> simp
  | cons c rest ih =>
    obtain ⟨hc, hrest⟩ := List.forall_mem_cons.mp h
    cases piece with
    | nil => simp
    | cons d more =>
      simp only [List.map_cons, List.cons.injEq, foldedChar_eq_foldedChar_iff hc, ih hrest]

/-- Without special characters a term is in a text up to the letter case of ASCII, and no more. -/
theorem has_iff_contains (h : ∀ c ∈ term, c ∉ specials) (htext : '\x00' ∉ text) :
    Has term text ↔ Contains term text := by
  have hzero : '\x00' ∉ term := fun hmem => h _ hmem (by decide)
  rw [Has, if_neg hzero, folded_eq, folded_eq, seen_of_not_mem hzero, seen_of_not_mem htext,
    Contains, List.infix_map_iff, List.infix_map_iff]
  simp only [map_foldedChar_eq_iff h]

/-- A text that a term finds, without a given character that is special. -/
def pieceWithout (c p : Char) : List Char :=
  if p = '%' then []
  else if p = '_' then ['x']
  else if p ∈ specials then [if c = '\ufffd' then '\ufffe' else '\ufffd']
  else [p]

theorem standsFor_pieceWithout {c p : Char} (hp : p ≠ '\x00') : StandsFor p (pieceWithout c p) := by
  unfold pieceWithout
  split
  · next h => exact h ▸ .run []
  · split
    · next h => exact h ▸ .one 'x'
    · split
      · next hpercent hline hmem =>
        have hfold (x : Char) (hx : x = '\ufffd' ∨ x = '\ufffe') : foldedChar p = foldedChar x := by
          simp only [specials, List.mem_cons, hpercent, hline, hp, List.not_mem_nil, or_false,
            false_or] at hmem
          rcases hmem with rfl | rfl | rfl <;> rcases hx with rfl | rfl <;> decide
        exact .self (hfold _ (by split <;> simp))
      · exact .self rfl

theorem not_mem_pieceWithout {c p : Char} (h : c ∈ specials) : c ∉ pieceWithout c p := by
  have hplain : c ≠ 'x' := by
    rcases mem_specials.mp h with rfl | rfl | rfl | rfl | rfl | rfl <;> decide
  have hother : c ≠ if c = '\ufffd' then '\ufffe' else '\ufffd' := by
    rcases mem_specials.mp h with rfl | rfl | rfl | rfl | rfl | rfl <;> decide
  unfold pieceWithout
  split
  · exact List.not_mem_nil
  · split
    · exact mt List.mem_singleton.mp hplain
    · split
      · exact mt List.mem_singleton.mp hother
      · next hmem => exact mt List.mem_singleton.mp fun heq => hmem (heq ▸ h)

theorem toLower_specials {c : Char} (h : c ∈ specials) : c.toLower = c := by
  rcases mem_specials.mp h with rfl | rfl | rfl | rfl | rfl | rfl <;> decide

theorem zero_not_mem_flatMap {c : Char} (h : ∀ p ∈ ps, p ≠ '\x00') :
    '\x00' ∉ ps.flatMap (pieceWithout c) := by
  intro hmem
  obtain ⟨p, hp, hpiece⟩ := List.mem_flatMap.mp hmem
  unfold pieceWithout at hpiece
  split at hpiece
  · cases hpiece
  · split at hpiece
    · revert hpiece
      decide
    · split at hpiece
      · split at hpiece
        all_goals
          revert hpiece
          decide
      · exact h p hp (List.mem_singleton.mp hpiece).symm

theorem spells_flatMap_pieceWithout {c : Char} (h : ∀ p ∈ ps, p ≠ '\x00') :
    Spells ps (ps.flatMap (pieceWithout c)) := by
  induction ps with
  | nil => exact .nil
  | cons p ps ih =>
    obtain ⟨hp, hps⟩ := List.forall_mem_cons.mp h
    exact .cons (standsFor_pieceWithout hp) (ih hps)

/-- Texts are searched for a term as it is when it has no special character, and only then. -/
theorem finds_iff_contains : (∀ text, '\x00' ∉ text → (Finds term text ↔ Contains term text)) ↔
    ∀ c ∈ term, c ∉ specials := by
  constructor
  · intro h c hc hspecial
    let text := (seen term).flatMap (pieceWithout c)
    have hseen : ∀ p ∈ seen term, p ≠ '\x00' := fun p hp => by
      simpa using List.mem_takeWhile_imp hp
    have hzero : '\x00' ∉ text := zero_not_mem_flatMap hseen
    have hfinds : Finds term text := by
      refine ⟨text, spells_flatMap_pieceWithout hseen, ?_⟩
      rw [seen_of_not_mem hzero]
      split
      · exact List.suffix_refl text
      · exact List.infix_refl text
    have hlower : c.toLower ∈ text.map Char.toLower :=
      ((h text hzero).mp hfinds).subset (List.mem_map_of_mem hc)
    obtain ⟨d, hd, heq⟩ := List.mem_map.mp hlower
    have hsame : c.toLower = c := toLower_specials hspecial
    have hmem : c ∈ text := eq_of_toLower (heq.trans hsame) (toNat_specials hspecial) ▸ hd
    obtain ⟨p, -, hp⟩ := List.mem_flatMap.mp hmem
    exact not_mem_pieceWithout hspecial hp
  · intro h text htext
    have hplain : ∀ p ∈ term, p ≠ '%' ∧ p ≠ '_' := fun p hp =>
      ⟨fun heq => h p hp (heq ▸ by decide), fun heq => h p hp (heq ▸ by decide)⟩
    rw [finds_plain hplain, has_iff_contains h htext]

end DocGrid.Condition

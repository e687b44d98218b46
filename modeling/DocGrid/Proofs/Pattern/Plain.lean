import DocGrid.Pattern.Search
import DocGrid.Proofs.Pattern.Readings
import DocGrid.Proofs.Text.Case
import Mathlib.Data.List.Forall2

/-! Patterns without repeats, sets, groups and escapes. Such a text is always a pattern, and it is
found where a stretch of the text is spelled like it. -/

namespace DocGrid.Pattern

/-- The characters that start something longer than themselves, or end it. -/
def structureChars : List Char :=
  ['\\', '[', '(', ')', '|', '*', '+', '?', '\x7b']

/-- The characters that do not stand for a character of the text. -/
def signs : List Char :=
  ['^', '$'] ++ structureChars

theorem ne_ends_of_notMem {c : Char} (h : c ∉ signs) : c ≠ '^' ∧ c ≠ '$' := by
  constructor <;> rintro rfl <;> simp [signs] at h

theorem notMem_structureChars {c : Char} (h : c ∉ signs) : c ∉ structureChars :=
  fun hm => h (List.mem_append_right _ hm)

/-- The node of a character that is no part of anything longer. -/
def plainNode (c : Char) : Node :=
  if c = '.' then .char ⟨true, [.code 10], some false, false⟩
  else if c = '^' then .anchor .textStart
  else if c = '$' then .anchor .lastLineEnd
  else charNode (.ofWhole []) false [.code c.toNat]

theorem plainNode_of_ne {c : Char} (hpoint : c ≠ '.') (hstart : c ≠ '^') (hend : c ≠ '$') :
    plainNode c = charNode (.ofWhole []) false [.code c.toNat] := by
  rw [plainNode, if_neg hpoint, if_neg hstart, if_neg hend]

section Reading

theorem tokens_of_notMem {cs : List Char} (h : '\\' ∉ cs) : tokens cs = cs.map .plain := by
  induction cs with
  | nil => rfl
  | cons c rest ih =>
    have hc : c ≠ '\\' := fun he => h (he ▸ List.mem_cons_self)
    have hrest := ih fun hr => h (List.mem_cons_of_mem c hr)
    rw [tokens, hrest, List.map_cons]
    · exact fun he _ => hc he
    · exact fun _ _ he _ => hc he

theorem repeat?_of_notMem {c : Char} (h : c ∉ structureChars) : repeat? c = return none := by
  unfold repeat?
  split
  · simp [structureChars] at h
  · simp [structureChars] at h
  · simp [structureChars] at h
  · simp [structureChars] at h
  · rfl

/-- A character that is no part of anything longer is read as one node. -/
theorem sequence_plain_cons (outermost first : Bool) {c : Char} (hc : c ∉ structureChars)
    (fuel : Nat) (found : List Node) {r : Reader} {ts : List Token} (hr : r.rest = .plain c :: ts)
    (hts : ts.head? ≠ some .broken) :
    sequence (.ofWhole []) outermost first (fuel + 1) found r =
      sequence (.ofWhole []) outermost first fuel (plainNode c :: found) { r with rest := ts } := by
  have hnext : Parse.next r = .ok (some (.plain c), { r with rest := ts }) := by
    rw [run_next, hr]
    exact if_neg hts
  have hstop : ¬(Token.plain c = .plain '|' ∨ Token.plain c = .plain ')') := by
    rintro (he | he) <;> cases he <;> simp [structureChars] at hc
  have hverbose : (Flags.ofWhole []).verbose = false := rfl
  have hmultiline : (Flags.ofWhole []).multiline = false := rfl
  have hdotAll : (Flags.ofWhole []).dotAll = false := rfl
  rw [sequence, run_bind, run_peek, hr]
  simp only [List.head?_cons, Except.bind, if_neg hstop, hverbose, hmultiline, hdotAll,
    Bool.false_and, Bool.false_eq_true, if_false]
  rw [run_bind, run_discard, hnext]
  -- The two readings are compared as such, so that the cases are those of the character.
  refine congrFun (?_ : _ = sequence (.ofWhole []) outermost first fuel (plainNode c :: found)) _
  split
  · next he => cases he
  · next he => cases he
  · next he =>
    cases he
    simp [structureChars] at hc
  · next he =>
    cases he
    rfl
  · next he =>
    cases he
    rfl
  · next he =>
    cases he
    rfl
  · next he =>
    cases he
    simp [structureChars] at hc
  · next d _ hpoint hstart hend _ he =>
    cases he
    rw [repeat?_of_notMem hc, plainNode_of_ne hpoint hstart hend]
    rfl

theorem sequence_plain (outermost first : Bool) {cs : List Char}
    (h : ∀ c ∈ cs, c ∉ structureChars) {fuel : Nat} (hfuel : cs.length < fuel)
    (found : List Node) {r : Reader} (hr : r.rest = cs.map .plain) :
    sequence (.ofWhole []) outermost first fuel found r =
      .ok (inRow ((cs.map plainNode).reverse ++ found), { r with rest := [] }) := by
  induction cs generalizing fuel found r with
  | nil =>
    obtain ⟨fuel, rfl⟩ := Nat.exists_eq_add_of_lt hfuel
    obtain ⟨rest, widths, names, hidden, asked, whole⟩ := r
    obtain rfl : rest = [] := hr
    rw [sequence, run_bind, run_peek]
    rfl
  | cons c cs ih =>
    obtain ⟨hc, hcs⟩ := List.forall_mem_cons.mp h
    obtain ⟨more, rfl⟩ := Nat.exists_eq_add_of_lt hfuel
    have hwhole : (cs.map Token.plain).head? ≠ some .broken := by
      cases cs <;> simp
    rw [List.map_cons] at hr
    have hlength : cs.length < (c :: cs).length + more := by
      simp only [List.length_cons]
      omega
    rw [sequence_plain_cons outermost first hc _ found hr hwhole, ih hcs hlength _ rfl,
      List.map_cons, List.reverse_cons, List.append_assoc]
    rfl

/-- A node with what stands after it in a row. -/
def Node.before (n after : Node) : Node :=
  if after matches .empty then n else .seq n after

theorem Node.before_of_ne {n after : Node} (h : after ≠ .empty) :
    n.before after = .seq n after := by
  cases after with
  | empty => exact absurd rfl h
  | _ => rfl

theorem inRow_reverse (nodes : List Node) :
    inRow nodes.reverse = nodes.foldr Node.before .empty := by
  rw [inRow, List.foldl_reverse]
  rfl

theorem looksFixed_inRow {nodes : List Node} (h : ∀ n ∈ nodes, n.looksFixed = true) :
    (inRow nodes.reverse).looksFixed = true := by
  rw [inRow_reverse]
  induction nodes with
  | nil => rfl
  | cons n rest ih =>
    obtain ⟨hn, hrest⟩ := List.forall_mem_cons.mp h
    have hafter := ih hrest
    rw [List.foldr_cons]
    by_cases hrow : rest.foldr Node.before .empty = .empty
    · rw [hrow]
      exact hn
    · rw [Node.before_of_ne hrow, Node.looksFixed, hn, hafter, Bool.and_self]

@[simp] theorem looksFixed_plainNode (c : Char) : (plainNode c).looksFixed = true := by
  unfold plainNode
  split_ifs <;> rfl

theorem Node.ofText?_plain {cs : List Char} (h : ∀ c ∈ cs, c ∉ structureChars) :
    Node.ofText? cs = .ok (inRow (cs.map plainNode).reverse) := by
  have hslash : '\\' ∉ cs := fun hm => h _ hm (by simp [structureChars])
  let n := inRow (cs.map plainNode).reverse
  have hfixed : n.looksFixed = true := looksFixed_inRow (by simp)
  have halternatives (r : Reader) (hr : r.rest = cs.map .plain) :
      alternatives (.ofWhole []) true (4 * cs.length + 8) r = .ok (n, { r with rest := [] }) := by
    have hfuel : cs.length < 4 * cs.length + 7 := by omega
    have hsequence := sequence_plain true true h hfuel [] hr
    rw [List.append_nil] at hsequence
    rw [alternatives, run_bind, hsequence]
    rfl
  have hbroken : tokens cs ≠ [.broken] := by
    rw [tokens_of_notMem hslash]
    cases cs <;> simp
  have hpattern : pattern (4 * cs.length + 8) ⟨cs.map .plain, [], [], none, [], []⟩ =
      .ok (n, ⟨[], [], [], none, [], []⟩) := by
    rw [pattern, run_bind, halternatives _ rfl]
    change (if (!n.looksFixed) = true then Parse.fail
      else if (([] : List Char).contains 't' && n.hasLoop) = true then Parse.fail
      else pure n : Parse Node) _ = _
    rw [hfixed]
    rfl
  rw [Node.ofText?, if_neg hbroken, tokens_of_notMem hslash]
  exact congrArg (Except.map Prod.fst) hpattern

end Reading

section Search

/-- Whether a character of such a pattern stands for a character of a text. -/
def standsFor (ignoring : Bool) (c d : Char) : Bool :=
  if c = '.' then d != '\n'
  else if ignoring then (Text.caseVariants d).contains c else d == c

/-- Whether a stretch of a text is spelled like such a pattern. -/
def Spells (ignoring : Bool) : List Char → List Char → Prop :=
  List.Forall₂ fun c d => standsFor ignoring c d = true

theorem standsFor_self (ignoring : Bool) (c : Char) : standsFor ignoring c c = true := by
  unfold standsFor
  by_cases hpoint : c = '.'
  · subst hpoint
    rfl
  · cases ignoring with
    | false => simp [hpoint]
    | true => simpa [hpoint] using Text.mem_caseVariants_self c

theorem spells_self (ignoring : Bool) (cs : List Char) : Spells ignoring cs cs :=
  List.forall₂_same.mpr fun c _ => standsFor_self ignoring c

theorem spells_iff_eq {cs ds : List Char} (h : '.' ∉ cs) : Spells false cs ds ↔ ds = cs := by
  constructor
  · intro hspells
    induction hspells with
    | nil => rfl
    | @cons c d cs ds hc _ ih =>
      have hpoint : c ≠ '.' := fun he => h (he ▸ List.mem_cons_self)
      simp only [standsFor, hpoint, if_false, Bool.false_eq_true, beq_iff_eq] at hc
      rw [hc, ih fun hm => h (List.mem_cons_of_mem c hm)]
  · rintro rfl
    exact spells_self false _

theorem run_inRow (ignoring : Bool) (nodes : List Node) (k : Rest) :
    (inRow nodes.reverse).run ignoring k = nodes.foldr (fun n after => n.run ignoring after) k := by
  rw [inRow_reverse]
  induction nodes with
  | nil => rfl
  | cons n rest ih =>
    rw [List.foldr_cons, List.foldr_cons, ← ih]
    by_cases hrow : rest.foldr Node.before .empty = .empty
    · rw [hrow]
      rfl
    · rw [Node.before_of_ne hrow]
      rfl

variable {ignoring : Bool} {cs text : List Char}

theorem run_char_isSome {test : CharTest} {k : Rest} {p : Place} :
    ((Node.char test).run ignoring k p).isSome ↔ ∃ d rest, p.after = d :: rest ∧
      test.holds ignoring d = true ∧ (k ⟨d :: p.before, rest, p.marks⟩).isSome := by
  obtain ⟨before, after, marks⟩ := p
  cases after with
  | nil => simp [Node.run, Place.advance?]
  | cons d rest =>
    by_cases hd : test.holds ignoring d = true <;> simp [Node.run, Place.advance?, hd]

theorem beq_toNat (c d : Char) : (d.toNat == c.toNat) = (d == c) := by
  rw [Bool.eq_iff_iff, beq_iff_eq, beq_iff_eq]
  exact ⟨fun h => Char.toNat_inj.mp h, congrArg Char.toNat⟩

theorem exists_test {c : Char} (h : c ∉ signs) (ignoring : Bool) :
    ∃ test : CharTest, plainNode c = .char test ∧
      ∀ d, test.holds ignoring d = standsFor ignoring c d := by
  have hc := ne_ends_of_notMem h
  by_cases hpoint : c = '.'
  · subst hpoint
    refine ⟨⟨true, [.code 10], some false, false⟩, rfl, fun d => ?_⟩
    have hbreak : (d.toNat == 10) = (d == '\n') := beq_toNat '\n' d
    simp only [CharTest.holds, CharTest.forms, Member.admits, standsFor, Option.getD_some,
      Bool.false_eq_true, if_false, if_true, List.any_cons, List.any_nil, Bool.or_false, hbreak]
    rw [Bool.bne_true]
    rfl
  · refine ⟨⟨false, [.code c.toNat], none, false⟩, ?_, fun d => ?_⟩
    · rw [plainNode_of_ne hpoint hc.1 hc.2]
      rfl
    · have hform (e : Char) : (e.toNat == c.toNat) = (e == c) := beq_toNat c e
      rw [Bool.eq_iff_iff]
      cases ignoring <;>
        simp [CharTest.holds, CharTest.forms, Member.admits, standsFor, hpoint, hform]

theorem run_plain_isSome (h : ∀ c ∈ cs, c ∉ signs) {k : Rest} {p : Place} :
    ((cs.map plainNode).foldr (fun n after => n.run ignoring after) k p).isSome ↔
      ∃ ds rest, p.after = ds ++ rest ∧ Spells ignoring cs ds ∧
        (k ⟨ds.reverse ++ p.before, rest, p.marks⟩).isSome := by
  induction cs generalizing p with
  | nil =>
    constructor
    · exact fun hk => ⟨[], p.after, rfl, .nil, hk⟩
    · rintro ⟨ds, rest, hafter, hspells, hk⟩
      cases hspells
      obtain rfl : p.after = rest := hafter
      exact hk
  | cons c cs ih =>
    obtain ⟨hc, hcs⟩ := List.forall_mem_cons.mp h
    obtain ⟨test, hnode, htest⟩ := exists_test hc ignoring
    rw [List.map_cons, List.foldr_cons, hnode, run_char_isSome]
    simp only [ih hcs, htest]
    constructor
    · rintro ⟨d, rest, hafter, hd, ds, rest', rfl, hspells, hk⟩
      exact ⟨d :: ds, rest', hafter, .cons hd hspells, by simpa using hk⟩
    · rintro ⟨_, rest, hafter, hspells, hk⟩
      cases hspells with
      | @cons _ d _ ds hd hspells =>
        exact ⟨d, ds ++ rest, hafter, hd, ds, rest, rfl, hspells, by simpa using hk⟩

theorem searchFrom_iff {n : Node} {before : List Char} :
    n.searchFrom ignoring before text = true ↔ ∃ passed after, text = passed ++ after ∧
      (n.run ignoring some ⟨passed.reverse ++ before, after, []⟩).isSome := by
  induction text generalizing before with
  | nil => simp [Node.searchFrom]
  | cons c rest ih =>
    rw [Node.searchFrom, Bool.or_eq_true, ih]
    constructor
    · rintro (hhere | ⟨passed, after, rfl, hlater⟩)
      · exact ⟨[], c :: rest, rfl, hhere⟩
      · exact ⟨c :: passed, after, rfl, by simpa using hlater⟩
    · rintro ⟨passed, after, htext, hfound⟩
      cases passed with
      | nil =>
        obtain rfl : c :: rest = after := htext
        exact .inl hfound
      | cons d passed =>
        obtain ⟨rfl, rfl⟩ := List.cons.inj htext
        exact .inr ⟨passed, after, rfl, by simpa using hfound⟩

/-- Without signs for the ends of the text, the pattern is found where it is spelled. -/
theorem search_plain (h : ∀ c ∈ cs, c ∉ signs) :
    (inRow (cs.map plainNode).reverse).search ignoring text = true ↔
      ∃ ds, ds <:+: text ∧ Spells ignoring cs ds := by
  rw [Node.search, searchFrom_iff]
  simp only [run_inRow, run_plain_isSome h, Option.isSome_some, and_true]
  constructor
  · rintro ⟨passed, after, rfl, ds, rest, rfl, hspells⟩
    exact ⟨ds, ⟨passed, rest, by simp⟩, hspells⟩
  · rintro ⟨ds, ⟨passed, rest, rfl⟩, hspells⟩
    exact ⟨passed, ds ++ rest, by simp, ds, rest, rfl, hspells⟩

/-- Between the signs for both ends, the pattern is spelled by the whole text, up to a line break at
its end. -/
theorem search_whole (h : ∀ c ∈ cs, c ∉ signs) :
    (inRow (('^' :: cs ++ ['$']).map plainNode).reverse).search ignoring text = true ↔
      Spells ignoring cs text ∨ ∃ line, text = line ++ ['\n'] ∧ Spells ignoring cs line := by
  have hnodes : ('^' :: cs ++ ['$']).map plainNode =
      .anchor .textStart :: (cs.map plainNode ++ [.anchor .lastLineEnd]) := by
    rw [List.cons_append, List.map_cons, List.map_append]
    rfl
  have hstart (after : Rest) (p : Place) :
      ((Node.anchor .textStart).run ignoring after p).isSome ↔
        p.before = [] ∧ (after p).isSome := by
    by_cases hp : p.before = [] <;> simp [Node.run, Place.holds, hp]
  have hend (p : Place) : ((Node.anchor .lastLineEnd).run ignoring some p).isSome ↔
      p.after = [] ∨ p.after = ['\n'] := by
    by_cases hp : p.after = [] ∨ p.after = ['\n'] <;> simp [Node.run, Place.holds, hp]
  rw [Node.search, searchFrom_iff]
  simp only [hnodes, run_inRow, List.foldr_cons, List.foldr_append, hstart, List.foldr_nil,
    run_plain_isSome h, hend]
  constructor
  · rintro ⟨passed, after, rfl, hpassed, ds, rest, rfl, hspells, hrest⟩
    obtain rfl : passed = [] := by simpa using hpassed
    rcases hrest with rfl | rfl
    · exact .inl (by simpa using hspells)
    · exact .inr ⟨ds, rfl, hspells⟩
  · rintro (hspells | ⟨line, rfl, hspells⟩)
    · exact ⟨[], text, rfl, rfl, text, [], by simp, hspells, .inl rfl⟩
    · exact ⟨[], line ++ ['\n'], rfl, rfl, line, ['\n'], rfl, hspells, .inr rfl⟩

end Search

section Texts

variable {s : String} (h : ∀ c ∈ s.toList, c ∉ signs)

include h

theorem ofText?_plain : ∃ p, ofText? s = .ok p ∧ ∀ ignoring text,
    p.root.search ignoring text = true ↔ ∃ ds, ds <:+: text ∧ Spells ignoring s.toList ds := by
  have hnode := Node.ofText?_plain fun c hc => notMem_structureChars (h c hc)
  refine ⟨⟨s, _⟩, by rw [ofText?, hnode]; rfl, fun ignoring text => search_plain h⟩

theorem ofText?_whole : ∃ p, ofText? ("^" ++ s ++ "$") = .ok p ∧ ∀ ignoring text,
    p.root.search ignoring text = true ↔ Spells ignoring s.toList text ∨
      ∃ line, text = line ++ ['\n'] ∧ Spells ignoring s.toList line := by
  have htext : ("^" ++ s ++ "$").toList = '^' :: s.toList ++ ['$'] := by simp
  have hstructure : ∀ c ∈ '^' :: s.toList ++ ['$'], c ∉ structureChars := by
    rw [List.cons_append, List.forall_mem_cons, List.forall_mem_append, List.forall_mem_singleton]
    exact ⟨by decide, fun c hc => notMem_structureChars (h c hc), by decide⟩
  have hnode := Node.ofText?_plain hstructure
  refine ⟨⟨"^" ++ s ++ "$", _⟩, by rw [ofText?, htext, hnode]; rfl, fun ignoring text => ?_⟩
  exact search_whole h

end Texts

end DocGrid.Pattern

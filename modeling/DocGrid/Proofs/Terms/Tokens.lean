import DocGrid.Proofs.Text.Split
import DocGrid.Terms.Token
import Mathlib.Data.List.TakeWhile

/-! The tokens of a filter text, without the fuel of the scanner: which texts are clauses, what
the scanner does at each position, and which clauses its groups hold. -/

namespace DocGrid.Token

def clauseText (name inner : List Char) : List Char :=
  name ++ '(' :: inner ++ [')']

/-- What may stand before and between the parentheses of a clause. -/
structure ClauseParts (name inner : List Char) : Prop where
  name_ne : name ≠ []
  name_plain : ∀ c ∈ name, isParenthesis c = false
  inner_ne : inner ≠ []
  inner_open : ')' ∉ inner

theorem takeWhile_name {name : List Char} (h : ∀ c ∈ name, isParenthesis c = false)
    (rest : List Char) :
    (name ++ '(' :: rest).takeWhile (fun c => !isParenthesis c) = name :=
  Text.takeWhile_run (fun c hc => by simp [h c hc]) (by simp [isParenthesis])

theorem dropWhile_name {name : List Char} (h : ∀ c ∈ name, isParenthesis c = false)
    (rest : List Char) :
    (name ++ '(' :: rest).dropWhile (fun c => !isParenthesis c) = '(' :: rest :=
  Text.dropWhile_run (fun c hc => by simp [h c hc]) (by simp [isParenthesis])

theorem takeWhile_inner {inner : List Char} (h : ')' ∉ inner) (rest : List Char) :
    (inner ++ ')' :: rest).takeWhile (fun c => decide (c ≠ ')')) = inner :=
  Text.takeWhile_run (fun _ hc => decide_eq_true (ne_of_mem_of_not_mem hc h)) (by simp)

theorem dropWhile_inner {inner : List Char} (h : ')' ∉ inner) (rest : List Char) :
    (inner ++ ')' :: rest).dropWhile (fun c => decide (c ≠ ')')) = ')' :: rest :=
  Text.dropWhile_run (fun _ hc => decide_eq_true (ne_of_mem_of_not_mem hc h)) (by simp)

theorem clauseAt?_clauseText {name inner : List Char} (h : ClauseParts name inner)
    (rest : List Char) :
    clauseAt? (clauseText name inner ++ rest) = some (clauseText name inner) := by
  have htext : clauseText name inner ++ rest = name ++ '(' :: (inner ++ ')' :: rest) := by
    simp [clauseText]
  have hne : (name.isEmpty || inner.isEmpty) = false := by
    simp [h.name_ne, h.inner_ne]
  rw [htext]
  simp only [clauseAt?, takeWhile_name h.name_plain, dropWhile_name h.name_plain,
    takeWhile_inner h.inner_open, dropWhile_inner h.inner_open, hne]
  rfl

theorem clauseAt?_eq_some {cs text : List Char} (h : clauseAt? cs = some text) :
    ∃ name inner rest, ClauseParts name inner ∧ text = clauseText name inner ∧
      cs = text ++ rest := by
  have hcs := List.takeWhile_append_dropWhile (p := fun c => !isParenthesis c) (l := cs)
  have hplain : ∀ c ∈ cs.takeWhile (fun c => !isParenthesis c), isParenthesis c = false :=
    fun c hc => by simpa using List.mem_takeWhile_imp hc
  unfold clauseAt? at h
  generalize cs.takeWhile (fun c => !isParenthesis c) = name at h hcs hplain
  generalize cs.dropWhile (fun c => !isParenthesis c) = after at h hcs
  split at h
  · next rest =>
    have hrest := List.takeWhile_append_dropWhile (p := fun c => decide (c ≠ ')')) (l := rest)
    have hopen : ')' ∉ rest.takeWhile (fun c => decide (c ≠ ')')) := fun hm => by
      simpa using List.mem_takeWhile_imp hm
    have hhead := List.head?_dropWhile_not (fun c => decide (c ≠ ')')) rest
    generalize rest.takeWhile (fun c => decide (c ≠ ')')) = inner at h hrest hopen
    generalize rest.dropWhile (fun c => decide (c ≠ ')')) = closing at h hrest hhead
    split at h
    · next c more =>
      have hc : c = ')' := by simpa using hhead
      dsimp only at h
      split at h
      · cases h
      · next hne =>
        simp only [Bool.or_eq_true, List.isEmpty_iff, not_or] at hne
        refine ⟨name, inner, more, ⟨hne.1, hplain, hne.2, hopen⟩, (Option.some.inj h).symm, ?_⟩
        rw [← Option.some.inj h, ← hcs, ← hrest, hc]
        simp
    · cases h
  · cases h

/-- What can be a token: a delimiter, or a clause that does not start with one. -/
inductive IsToken : Token → Prop
  | delimiter (c : Char) (p : Nat) (h : isDelimiter c = true) : IsToken ⟨.delimiter, [c], p⟩
  | clause (c : Char) (name inner : List Char) (p : Nat) (h : isDelimiter c = false)
      (parts : ClauseParts (c :: name) inner) : IsToken ⟨.clause, clauseText (c :: name) inner, p⟩

theorem IsToken.text_ne {t : Token} (h : IsToken t) : t.text ≠ [] := by
  cases h <;> simp [clauseText]

theorem tokenAt?_delimiter {c : Char} (h : isDelimiter c = true) (p : Nat) (cs : List Char) :
    tokenAt? p (c :: cs) = some ⟨.delimiter, [c], p⟩ := by
  simp [tokenAt?, h]

theorem tokenAt?_clause {c : Char} {name inner : List Char} (h : isDelimiter c = false)
    (parts : ClauseParts (c :: name) inner) (p : Nat) (rest : List Char) :
    tokenAt? p (clauseText (c :: name) inner ++ rest) =
      some ⟨.clause, clauseText (c :: name) inner, p⟩ := by
  have ht := clauseAt?_clauseText parts rest
  simp only [clauseText, List.cons_append] at ht ⊢
  simp only [tokenAt?, h, Bool.false_eq_true, if_false, ht, Option.map_some]

theorem tokenAt?_eq_some {p : Nat} {cs : List Char} {t : Token} (h : tokenAt? p cs = some t) :
    IsToken t ∧ t.position = p ∧ ∃ rest, cs = t.text ++ rest := by
  cases cs with
  | nil => cases h
  | cons c cs =>
    cases hc : isDelimiter c with
    | true =>
      rw [tokenAt?_delimiter hc] at h
      cases h
      exact ⟨.delimiter c p hc, rfl, cs, rfl⟩
    | false =>
      simp only [tokenAt?, hc, Bool.false_eq_true, if_false, Option.map_eq_some_iff] at h
      obtain ⟨text, ht, rfl⟩ := h
      obtain ⟨name, inner, rest, parts, rfl, hcs⟩ := clauseAt?_eq_some ht
      cases name with
      | nil => exact absurd rfl parts.name_ne
      | cons d name =>
        have hd : c = d := by simpa [clauseText] using (List.cons.inj hcs).1
        subst hd
        exact ⟨.clause c name inner p hc parts, rfl, rest, hcs⟩

def readFrom (position : Nat) (cs : List Char) : List Token :=
  scan cs.length position cs

theorem scan_of_length_le {fuel p : Nat} {cs : List Char} (h : cs.length ≤ fuel) :
    scan fuel p cs = readFrom p cs := by
  induction fuel using Nat.strong_induction_on generalizing p cs with
  | _ fuel ih =>
    cases cs with
    | nil => cases fuel <;> rfl
    | cons c cs =>
      cases fuel with
      | zero => simp at h
      | succ fuel =>
        have hle : cs.length ≤ fuel := by simpa using h
        simp only [readFrom, scan, List.length_cons]
        cases ht : tokenAt? p (c :: cs) with
        | none =>
          exact ih fuel (by omega) hle
        | some t =>
          have hpos : 0 < t.text.length := List.length_pos_iff.mpr (tokenAt?_eq_some ht).1.text_ne
          have hlen : ((c :: cs).drop t.text.length).length ≤ cs.length := by
            simp only [List.length_drop, List.length_cons]
            omega
          dsimp only
          rw [ih fuel (by omega) (hlen.trans hle)]
          by_cases hf : cs.length = fuel
          · rw [hf, ih fuel (by omega) (hlen.trans hle)]
          · rw [ih cs.length (by omega) hlen]

theorem readFrom_some {p : Nat} {cs : List Char} {t : Token} (h : tokenAt? p cs = some t) :
    readFrom p cs = t :: readFrom (p + t.text.length) (cs.drop t.text.length) := by
  cases cs with
  | nil => cases h
  | cons c cs =>
    have hpos : 0 < t.text.length := List.length_pos_iff.mpr (tokenAt?_eq_some h).1.text_ne
    have hlen : ((c :: cs).drop t.text.length).length ≤ cs.length := by
      simp only [List.length_drop, List.length_cons]
      omega
    simp only [readFrom, List.length_cons, scan, h]
    rw [scan_of_length_le hlen, readFrom]

theorem readFrom_none {p : Nat} {c : Char} {cs : List Char} (h : tokenAt? p (c :: cs) = none) :
    readFrom p (c :: cs) = readFrom (p + 1) cs := by
  simp only [readFrom, List.length_cons, scan, h]

theorem readFrom_delimiter {c : Char} (h : isDelimiter c = true) (p : Nat) (cs : List Char) :
    readFrom p (c :: cs) = ⟨.delimiter, [c], p⟩ :: readFrom (p + 1) cs := by
  simpa using readFrom_some (tokenAt?_delimiter h p cs)

theorem readFrom_clause {c : Char} {name inner : List Char} (h : isDelimiter c = false)
    (parts : ClauseParts (c :: name) inner) (p : Nat) (rest : List Char) :
    readFrom p (clauseText (c :: name) inner ++ rest) =
      ⟨.clause, clauseText (c :: name) inner, p⟩ ::
        readFrom (p + (clauseText (c :: name) inner).length) rest := by
  simpa using readFrom_some (tokenAt?_clause h parts p rest)

theorem readFrom_induction {motive : Nat → List Char → Prop} (nil : ∀ p, motive p [])
    (skip : ∀ p c cs, tokenAt? p (c :: cs) = none → motive (p + 1) cs → motive p (c :: cs))
    (read : ∀ p cs t, tokenAt? p cs = some t →
      motive (p + t.text.length) (cs.drop t.text.length) → motive p cs)
    (p : Nat) (cs : List Char) : motive p cs := by
  induction hn : cs.length using Nat.strong_induction_on generalizing p cs with
  | _ n ih =>
    subst hn
    cases cs with
    | nil => exact nil p
    | cons c cs =>
      cases ht : tokenAt? p (c :: cs) with
      | none => exact skip p c cs ht (ih cs.length (by simp) _ _ rfl)
      | some t =>
        have hpos : 0 < t.text.length := List.length_pos_iff.mpr (tokenAt?_eq_some ht).1.text_ne
        refine read p _ t ht (ih _ ?_ _ _ rfl)
        simp only [List.length_drop, List.length_cons]
        omega

theorem readFrom_mem {p : Nat} {cs : List Char} {t : Token} (h : t ∈ readFrom p cs) :
    IsToken t ∧ t.text <:+: cs := by
  induction p, cs using readFrom_induction with
  | nil p => simp [readFrom, scan] at h
  | skip p c cs hn ih =>
    rw [readFrom_none hn] at h
    exact ⟨(ih h).1, (ih h).2.trans (List.suffix_cons c cs).isInfix⟩
  | read p cs u hu ih =>
    obtain ⟨htoken, -, rest, hcs⟩ := tokenAt?_eq_some hu
    rw [readFrom_some hu] at h
    rcases List.mem_cons.mp h with rfl | h
    · exact ⟨htoken, hcs ▸ (List.prefix_append _ _).isInfix⟩
    · exact ⟨(ih h).1, (ih h).2.trans (List.drop_suffix _ _).isInfix⟩

theorem ofText_eq (s : String) :
    ofText s = if (readFrom 0 s.toList).any isClause then readFrom 0 s.toList else [] := rfl

theorem ofText_mem {s : String} {t : Token} (h : t ∈ ofText s) :
    IsToken t ∧ t.text <:+: s.toList := by
  rw [ofText_eq] at h
  split at h
  · exact readFrom_mem h
  · cases h

theorem mem_groupsFrom {afterOr : Bool} {current tokens group : List Token} {t : Token}
    (hg : group ∈ groupsFrom afterOr current tokens) (ht : t ∈ group) :
    t ∈ current ∨ (t ∈ tokens ∧ t.isClause = true) := by
  induction tokens generalizing afterOr current with
  | nil =>
    simp only [groupsFrom] at hg
    split at hg
    · cases hg
    · exact .inl (List.mem_singleton.mp hg ▸ ht)
  | cons u rest ih =>
    simp only [groupsFrom] at hg
    split at hg
    · next hu =>
      split at hg
      · rcases List.mem_cons.mp hg with rfl | hg
        · exact .inl ht
        · rcases ih hg with h | ⟨h, hc⟩
          · obtain rfl := List.mem_singleton.mp h
            exact .inr ⟨List.mem_cons_self, hu⟩
          · exact .inr ⟨List.mem_cons_of_mem _ h, hc⟩
      · rcases ih hg with h | ⟨h, hc⟩
        · rcases List.mem_append.mp h with h | h
          · exact .inl h
          · obtain rfl := List.mem_singleton.mp h
            exact .inr ⟨List.mem_cons_self, hu⟩
        · exact .inr ⟨List.mem_cons_of_mem _ h, hc⟩
    · exact (ih hg).imp_right fun ⟨h, hc⟩ => ⟨List.mem_cons_of_mem _ h, hc⟩

theorem groupsFrom_eq_nil {tokens : List Token} (h : tokens.any isClause = false)
    (afterOr : Bool) : groupsFrom afterOr [] tokens = [] := by
  induction tokens generalizing afterOr with
  | nil => rfl
  | cons t rest ih =>
    simp only [List.any_cons, Bool.or_eq_false_iff] at h
    simp only [groupsFrom, h.1, Bool.false_eq_true, if_false]
    exact ih h.2 _

@[simp] theorem groups_ofText (s : String) : groups (ofText s) = groups (readFrom 0 s.toList) := by
  rw [ofText_eq]
  split
  · rfl
  · next h => exact (groupsFrom_eq_nil (by simpa using h) false).symm

theorem mem_groups_ofText {s : String} {group : List Token} {t : Token}
    (hg : group ∈ groups (ofText s)) (ht : t ∈ group) :
    t.text <:+: s.toList ∧
      ∃ name inner, ClauseParts name inner ∧ t.text = clauseText name inner := by
  rcases mem_groupsFrom hg ht with h | ⟨h, hc⟩
  · cases h
  · obtain ⟨htoken, hin⟩ := ofText_mem h
    refine ⟨hin, ?_⟩
    cases htoken with
    | delimiter c p hd => cases hc
    | clause c name inner p hd parts => exact ⟨c :: name, inner, parts, rfl⟩

/-- The text of a clause that is not mistaken for a delimiter. -/
def IsClauseText (text : List Char) : Prop :=
  ∃ c name inner, isDelimiter c = false ∧ ClauseParts (c :: name) inner ∧
    text = clauseText (c :: name) inner

/-- Clauses in rows, with commas inside of rows and semicolons between them. -/
def rowsText (rows : List (List (List Char))) : List Char :=
  Text.join [';'] (rows.map (Text.join [',']))

theorem readFrom_clauseText {text : List Char} (h : IsClauseText text) (p : Nat)
    (rest : List Char) : ∃ t, t.isClause = true ∧ t.text = text ∧
      readFrom p (text ++ rest) = t :: readFrom (p + text.length) rest := by
  obtain ⟨c, name, inner, hc, parts, rfl⟩ := h
  exact ⟨_, rfl, rfl, readFrom_clause hc parts p rest⟩

theorem groupsFrom_clause {afterOr : Bool} {current : List Token} {t : Token}
    (hc : t.isClause = true) (h : afterOr = false ∨ current = []) (rest : List Token) :
    groupsFrom afterOr current (t :: rest) = groupsFrom false (current ++ [t]) rest := by
  rcases h with rfl | rfl <;> simp [groupsFrom, hc]

theorem groupsFrom_row {text : List Char} {texts : List (List Char)} {afterOr : Bool}
    (current : List Token) (h : ∀ x ∈ text :: texts, IsClauseText x)
    (ha : afterOr = false ∨ current = []) (p : Nat) (rest : List Char) :
    ∃ row q, row.map (·.text) = text :: texts ∧
      groupsFrom afterOr current (readFrom p (Text.join [','] (text :: texts) ++ rest)) =
        groupsFrom false (current ++ row) (readFrom q rest) := by
  induction texts generalizing text afterOr current p with
  | nil =>
    obtain ⟨t, hc, ht, hr⟩ := readFrom_clauseText (h text (by simp)) p rest
    refine ⟨[t], p + text.length, by simp [ht], ?_⟩
    simp only [Text.join, hr, groupsFrom_clause hc ha]
  | cons next texts ih =>
    have hjoin : Text.join [','] (text :: next :: texts) ++ rest =
        text ++ ',' :: (Text.join [','] (next :: texts) ++ rest) := by
      simp [Text.join]
    obtain ⟨t, hc, ht, hr⟩ := readFrom_clauseText (h text (by simp)) p
      (',' :: (Text.join [','] (next :: texts) ++ rest))
    have hmore : ∀ x ∈ next :: texts, IsClauseText x := fun x hx => h x (List.mem_cons_of_mem _ hx)
    obtain ⟨row, q, hrow, hg⟩ := ih (current ++ [t]) hmore (.inl rfl) (p + text.length + 1)
    refine ⟨t :: row, q, by simp [ht, hrow], ?_⟩
    rw [hjoin, hr, groupsFrom_clause hc ha, readFrom_delimiter (by rfl)]
    simpa [groupsFrom, isClause] using hg

/-- Scanning rows of clauses gives one group for each row. -/
theorem groups_rowsText {rows : List (List (List Char))} (hne : ∀ row ∈ rows, row ≠ [])
    (h : ∀ row ∈ rows, ∀ x ∈ row, IsClauseText x) (p : Nat) :
    (groups (readFrom p (rowsText rows))).map (·.map (·.text)) = rows := by
  induction rows generalizing p with
  | nil => rfl
  | cons row rows ih =>
    obtain ⟨text, texts, rfl⟩ := List.exists_cons_of_ne_nil (hne row (by simp))
    have hrow := h _ List.mem_cons_self
    cases rows with
    | nil =>
      obtain ⟨r, q, hr, hg⟩ := groupsFrom_row [] hrow (.inl rfl) p []
      have hrne : r ≠ [] := by
        rintro rfl
        simp at hr
      have hrest : groupsFrom false r (readFrom q []) = [r] := by
        simp [readFrom, scan, groupsFrom, hrne]
      simp only [List.append_nil, List.nil_append, hrest] at hg
      change (groupsFrom false [] (readFrom p (Text.join [','] (text :: texts)))).map _ = _
      rw [hg]
      simp [hr]
    | cons next rows =>
      obtain ⟨r, q, hr, hg⟩ := groupsFrom_row [] hrow (.inl rfl) p
        (';' :: rowsText (next :: rows))
      have hrne : r ≠ [] := by
        rintro rfl
        simp at hr
      have hi := ih (fun x hx => hne x (List.mem_cons_of_mem _ hx))
        (fun x hx => h x (List.mem_cons_of_mem _ hx)) (q + 1)
      -- the clause after the semicolon closes the group and opens the next one
      obtain ⟨first, more, rfl⟩ := List.exists_cons_of_ne_nil (hne next (by simp))
      obtain ⟨tail, htail⟩ : ∃ tail, rowsText ((first :: more) :: rows) = first ++ tail := by
        cases more <;> cases rows <;> simp [rowsText, Text.join]
      obtain ⟨t, hc, ht, ht'⟩ := readFrom_clauseText
        (h (first :: more) (by simp) first (by simp)) (q + 1) tail
      have hrows : rowsText ((text :: texts) :: (first :: more) :: rows) =
          Text.join [','] (text :: texts) ++ ';' :: rowsText ((first :: more) :: rows) := by
        simp [rowsText, Text.join]
      rw [groups, htail, ht', groupsFrom_clause hc (.inl rfl)] at hi
      rw [groups, hrows, hg, readFrom_delimiter (by rfl), htail, ht']
      simp only [groupsFrom, isClause, List.nil_append] at hc hi ⊢
      simp [hc, hrne, hi, hr]

end DocGrid.Token

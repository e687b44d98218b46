import DocGrid.Proofs.Terms.Tokens

/-! Where the tokens of a filter text stand. They lie apart, and nothing can be read at a position
between them; no other tokens lie like that. Their texts, joined without what was passed over, are
cut into the same tokens again. -/

namespace DocGrid.Token

/-- A delimiter or a clause can be read at the start of the text. -/
def Readable (cs : List Char) : Prop :=
  (∃ c rest, isDelimiter c = true ∧ cs = c :: rest) ∨
    ∃ name inner rest, ClauseParts name inner ∧ cs = clauseText name inner ++ rest

def Covers (t : Token) (p : Nat) : Prop :=
  t.position ≤ p ∧ p < t.position + t.text.length

/-- Tokens of a text of which the first character has the position `start`. -/
structure Partition (start : Nat) (cs : List Char) (tokens : List Token) : Prop where
  shape : ∀ t ∈ tokens, IsToken t
  apart : tokens.Pairwise fun a b => a.position + a.text.length ≤ b.position
  inside : ∀ t ∈ tokens, start ≤ t.position ∧ t.text <+: cs.drop (t.position - start)
  gaps : ∀ i < cs.length, (∀ t ∈ tokens, ¬t.Covers (start + i)) → ¬Readable (cs.drop i)

/-- The positions at which the scanner looks for a token. -/
inductive Reached (cs : List Char) : Nat → Prop
  | start : Reached cs 0
  | past {p : Nat} (h : Reached cs p) (hp : p < cs.length) (hn : ¬Readable (cs.drop p)) :
    Reached cs (p + 1)
  | across {p : Nat} {t : Token} (h : Reached cs p) (ht : IsToken t) (hp : t.text <+: cs.drop p) :
    Reached cs (p + t.text.length)

/-- The scanner comes to the position of the token, and the token can be read there. -/
structure Met (cs : List Char) (t : Token) : Prop where
  reached : Reached cs t.position
  shape : IsToken t
  text : t.text <+: cs.drop t.position

theorem IsToken.length_pos {t : Token} (h : IsToken t) : 0 < t.text.length :=
  List.length_pos_iff.mpr h.text_ne

theorem IsToken.moved {t : Token} (h : IsToken t) (q : Nat) : IsToken { t with position := q } := by
  cases h with
  | delimiter c p hd => exact .delimiter c q hd
  | clause c name inner p hd parts => exact .clause c name inner q hd parts

theorem tokenAt?_eq_some_iff {p : Nat} {cs : List Char} {t : Token} :
    tokenAt? p cs = some t ↔ IsToken t ∧ t.position = p ∧ t.text <+: cs := by
  constructor
  · intro h
    obtain ⟨ht, hp, rest, hcs⟩ := tokenAt?_eq_some h
    exact ⟨ht, hp, rest, hcs.symm⟩
  · rintro ⟨ht, rfl, rest, rfl⟩
    cases ht with
    | delimiter c p hd => exact tokenAt?_delimiter hd p rest
    | clause c name inner p hd parts => exact tokenAt?_clause hd parts p rest

theorem tokenAt?_eq_none_iff {p : Nat} {cs : List Char} :
    tokenAt? p cs = none ↔ ¬Readable cs := by
  constructor
  · rintro hn (⟨c, rest, hd, rfl⟩ | ⟨name, inner, rest, parts, rfl⟩)
    · rw [tokenAt?_delimiter hd] at hn
      cases hn
    · obtain ⟨c, name, rfl⟩ := List.exists_cons_of_ne_nil parts.name_ne
      cases hd : isDelimiter c with
      | true =>
        simp only [clauseText, List.cons_append, tokenAt?_delimiter hd] at hn
        cases hn
      | false =>
        rw [tokenAt?_clause hd parts] at hn
        cases hn
  · intro hn
    cases h : tokenAt? p cs with
    | none => rfl
    | some t =>
      obtain ⟨ht, -, rest, rfl⟩ := tokenAt?_eq_some h
      refine absurd ?_ hn
      cases ht with
      | delimiter c p hd => exact .inl ⟨c, rest, hd, rfl⟩
      | clause c name inner p hd parts => exact .inr ⟨c :: name, inner, rest, parts, rfl⟩

/-! What one look of the scanner adds -/

theorem Partition.nil (p : Nat) : Partition p [] [] :=
  ⟨by simp, .nil, by simp, by simp⟩

theorem Partition.past {p : Nat} {c : Char} {cs : List Char} {tokens : List Token}
    (hn : ¬Readable (c :: cs)) (h : Partition (p + 1) cs tokens) :
    Partition p (c :: cs) tokens := by
  refine ⟨h.shape, h.apart, fun t ht => ?_, fun i hi hfree => ?_⟩
  · obtain ⟨hle, hin⟩ := h.inside t ht
    have hdrop : t.position - p = t.position - (p + 1) + 1 := by omega
    exact ⟨by omega, by rwa [hdrop, List.drop_succ_cons]⟩
  · cases i with
    | zero => exact hn
    | succ i =>
      refine h.gaps i (by simpa using hi) fun t ht hc => hfree t ht ?_
      rwa [Nat.add_right_comm] at hc

theorem Partition.across {p : Nat} {cs : List Char} {t : Token} {tokens : List Token}
    (hr : tokenAt? p cs = some t)
    (h : Partition (p + t.text.length) (cs.drop t.text.length) tokens) :
    Partition p cs (t :: tokens) := by
  obtain ⟨htoken, rfl, hin⟩ := tokenAt?_eq_some_iff.mp hr
  refine ⟨?_, ?_, ?_, fun i hi hfree => ?_⟩
  · simpa using ⟨htoken, h.shape⟩
  · exact List.pairwise_cons.mpr ⟨fun u hu => (h.inside u hu).1, h.apart⟩
  · intro u hu
    rcases List.mem_cons.mp hu with rfl | hu
    · simpa using hin
    · obtain ⟨hle, hu⟩ := h.inside u hu
      have hdrop : t.text.length + (u.position - (t.position + t.text.length)) =
          u.position - t.position := by omega
      rw [List.drop_drop, hdrop] at hu
      exact ⟨by omega, hu⟩
  · -- a position inside of the token is covered by it, any other one lies behind it
    by_cases hlt : i < t.text.length
    · exact absurd ⟨by omega, by omega⟩ (hfree t List.mem_cons_self)
    · obtain ⟨j, rfl⟩ := Nat.exists_eq_add_of_le (Nat.le_of_not_lt hlt)
      rw [← List.drop_drop]
      refine h.gaps j (by rw [List.length_drop]; omega) fun u hu hc => ?_
      exact hfree u (List.mem_cons_of_mem _ hu) (by rwa [Nat.add_assoc] at hc)

theorem partition_readFrom (p : Nat) (cs : List Char) : Partition p cs (readFrom p cs) := by
  induction p, cs using readFrom_induction with
  | nil p => exact Partition.nil p
  | skip p c cs hn ih =>
    rw [readFrom_none hn]
    exact ih.past (tokenAt?_eq_none_iff.mp hn)
  | read p cs t ht ih =>
    rw [readFrom_some ht]
    exact ih.across ht

/-! What the tokens of a partition are at the position where it starts -/

theorem Partition.of_past {p : Nat} {c : Char} {cs : List Char} {tokens : List Token}
    (hn : ¬Readable (c :: cs)) (h : Partition p (c :: cs) tokens) :
    Partition (p + 1) cs tokens := by
  have hlater : ∀ t ∈ tokens, p + 1 ≤ t.position := by
    intro t ht
    obtain ⟨hle, hin⟩ := h.inside t ht
    by_contra hlt
    have hp : t.position = p := by omega
    have hnone : tokenAt? p (c :: cs) = none := tokenAt?_eq_none_iff.mpr hn
    rw [tokenAt?_eq_some_iff.mpr ⟨h.shape t ht, hp, by simpa [hp] using hin⟩] at hnone
    cases hnone
  refine ⟨h.shape, h.apart, fun t ht => ⟨hlater t ht, ?_⟩, fun i hi hfree => ?_⟩
  · have hdrop : t.position - p = t.position - (p + 1) + 1 := by
      have := hlater t ht
      omega
    simpa [hdrop] using (h.inside t ht).2
  · refine h.gaps (i + 1) (by simpa using hi) fun t ht hc => hfree t ht ?_
    rwa [Nat.add_right_comm]

theorem Partition.of_across {p : Nat} {cs : List Char} {t : Token} {tokens : List Token}
    (hr : tokenAt? p cs = some t) (h : Partition p cs tokens) :
    ∃ rest, tokens = t :: rest ∧
      Partition (p + t.text.length) (cs.drop t.text.length) rest := by
  obtain ⟨htoken, hp, hin⟩ := tokenAt?_eq_some_iff.mp hr
  have hlen : t.text.length ≤ cs.length := hin.length_le
  -- the position where the partition starts can be read, so that some token covers it
  have hcovered : ∃ u ∈ tokens, u.Covers p := by
    by_contra hfree
    have hpos := htoken.length_pos
    have hn := h.gaps 0 (by omega) (by simpa using hfree)
    rw [List.drop_zero, ← tokenAt?_eq_none_iff, hr] at hn
    cases hn
  obtain ⟨u, hu, hle, hlt⟩ := hcovered
  have hstart : u.position = p := Nat.le_antisymm hle (h.inside u hu).1
  have hread := tokenAt?_eq_some_iff.mpr
    ⟨h.shape u hu, hstart, by simpa [hstart] using (h.inside u hu).2⟩
  obtain rfl : t = u := Option.some.inj (hr.symm.trans hread)
  obtain ⟨before, rest, rfl⟩ := List.append_of_mem hu
  have hbefore : before = [] := by
    cases before with
    | nil => rfl
    | cons v before =>
      have hv := (List.pairwise_cons.mp h.apart).1 t (by simp)
      have hvpos := (h.shape v (by simp)).length_pos
      have := (h.inside v (by simp)).1
      omega
  subst hbefore
  obtain ⟨hlater, hapart⟩ := List.pairwise_cons.mp h.apart
  refine ⟨rest, rfl, fun v hv => h.shape v (List.mem_cons_of_mem _ hv), hapart, fun v hv => ?_,
    fun i hi hfree => ?_⟩
  · have hv' := hlater v hv
    have hdrop : t.text.length + (v.position - (p + t.text.length)) = v.position - p := by omega
    rw [List.drop_drop, hdrop]
    exact ⟨by omega, (h.inside v (List.mem_cons_of_mem _ hv)).2⟩
  · rw [List.length_drop] at hi
    rw [List.drop_drop]
    refine h.gaps _ (by omega) fun v hv hc => ?_
    rcases List.mem_cons.mp hv with rfl | hv
    · have := hc.2
      omega
    · exact hfree v hv (by rwa [Nat.add_assoc])

theorem Partition.eq_readFrom {p : Nat} {cs : List Char} {tokens : List Token}
    (h : Partition p cs tokens) : tokens = readFrom p cs := by
  induction p, cs using readFrom_induction generalizing tokens with
  | nil p =>
    cases tokens with
    | nil => rfl
    | cons t rest =>
      have hin := (h.inside t List.mem_cons_self).2
      rw [List.drop_nil, List.prefix_nil] at hin
      exact absurd hin (h.shape t List.mem_cons_self).text_ne
  | skip p c cs hn ih =>
    rw [readFrom_none hn]
    exact ih (h.of_past (tokenAt?_eq_none_iff.mp hn))
  | read p cs t ht ih =>
    obtain ⟨rest, rfl, hrest⟩ := h.of_across ht
    rw [readFrom_some ht, ← ih hrest]

theorem partition_iff {p : Nat} {cs : List Char} {tokens : List Token} :
    Partition p cs tokens ↔ tokens = readFrom p cs :=
  ⟨Partition.eq_readFrom, fun h => h ▸ partition_readFrom p cs⟩

theorem Partition.increasing {p : Nat} {cs : List Char} {tokens : List Token}
    (h : Partition p cs tokens) : tokens.Pairwise fun a b => a.position < b.position := by
  refine h.apart.imp_of_mem fun {a b} ha _ hab => ?_
  have := (h.shape a ha).length_pos
  omega

/-! The positions that the scanner comes to -/

theorem Reached.readFrom_eq {cs : List Char} {p : Nat} (h : Reached cs p) :
    ∃ before, readFrom 0 cs = before ++ readFrom p (cs.drop p) := by
  induction h with
  | start => exact ⟨[], rfl⟩
  | @past p h hp hn ih =>
    obtain ⟨before, hb⟩ := ih
    rw [List.drop_eq_getElem_cons hp] at hb hn
    exact ⟨before, by rw [hb, readFrom_none (tokenAt?_eq_none_iff.mpr hn)]⟩
  | @across p t h ht hp ih =>
    obtain ⟨before, hb⟩ := ih
    have hread : tokenAt? p (cs.drop p) = some { t with position := p } :=
      tokenAt?_eq_some_iff.mpr ⟨ht.moved p, rfl, hp⟩
    refine ⟨before ++ [{ t with position := p }], ?_⟩
    rw [hb, readFrom_some hread, List.drop_drop]
    simp

theorem Reached.of_mem_readFrom {text : List Char} {p : Nat} {cs : List Char} {t : Token}
    (hp : Reached text p) (hcs : cs = text.drop p) (h : t ∈ readFrom p cs) :
    Reached text t.position := by
  induction p, cs using readFrom_induction with
  | nil p => simp [readFrom, scan] at h
  | skip p c cs hn ih =>
    rw [readFrom_none hn] at h
    have hlt : p < text.length := by
      by_contra hle
      rw [List.drop_eq_nil_of_le (by omega)] at hcs
      cases hcs
    rw [hcs, tokenAt?_eq_none_iff] at hn
    refine ih (hp.past hlt hn) ?_ h
    rw [List.drop_eq_getElem_cons hlt] at hcs
    exact (List.cons.inj hcs).2
  | read p cs u hu ih =>
    rw [readFrom_some hu] at h
    obtain ⟨hutoken, hpos, hin⟩ := tokenAt?_eq_some_iff.mp hu
    rcases List.mem_cons.mp h with rfl | h
    · rwa [hpos]
    · exact ih (hp.across hutoken (hcs ▸ hin)) (by rw [hcs, List.drop_drop]) h

theorem mem_readFrom_iff {cs : List Char} {t : Token} : t ∈ readFrom 0 cs ↔ Met cs t := by
  constructor
  · intro h
    have hpart := partition_readFrom 0 cs
    exact ⟨Reached.start.of_mem_readFrom (by simp) h, hpart.shape t h, (hpart.inside t h).2⟩
  · intro h
    obtain ⟨before, hb⟩ := h.reached.readFrom_eq
    rw [hb, readFrom_some (tokenAt?_eq_some_iff.mpr ⟨h.shape, rfl, h.text⟩)]
    simp

/-! The texts of tokens without what was passed over -/

theorem readFrom_texts {tokens : List Token} (h : ∀ t ∈ tokens, IsToken t) (p : Nat) :
    readFrom p (tokens.flatMap (·.text)) =
      tokens.mapIdx fun i t =>
        { t with position := p + ((tokens.take i).flatMap (·.text)).length } := by
  induction tokens generalizing p with
  | nil => rfl
  | cons t tokens ih =>
    have hread : tokenAt? p ((t :: tokens).flatMap (·.text)) = some { t with position := p } :=
      tokenAt?_eq_some_iff.mpr ⟨(h t List.mem_cons_self).moved p, rfl, by simp⟩
    rw [readFrom_some hread, List.mapIdx_cons]
    simp only [List.flatMap_cons, List.drop_left, List.take_succ_cons, List.length_append,
      ← Nat.add_assoc, ih fun u hu => h u (List.mem_cons_of_mem _ hu)]
    simp

theorem any_isClause_mapIdx (tokens : List Token) (place : Nat → Token → Nat) :
    (tokens.mapIdx fun i t => { t with position := place i t }).any isClause =
      tokens.any isClause := by
  induction tokens generalizing place with
  | nil => rfl
  | cons t tokens ih =>
    rw [List.mapIdx_cons, List.any_cons, List.any_cons, ih fun i => place (i + 1)]
    rfl

theorem ofText_texts (s : String) :
    ofText (String.ofList ((ofText s).flatMap (·.text))) =
      (ofText s).mapIdx fun i t =>
        { t with position := (((ofText s).take i).flatMap (·.text)).length } := by
  have htokens : ∀ t ∈ ofText s, IsToken t := fun t ht => (ofText_mem ht).1
  have hread := readFrom_texts htokens 0
  rw [ofText_eq, String.toList_ofList, hread, any_isClause_mapIdx]
  by_cases hany : (ofText s).any isClause
  · simp [hany]
  · have hnil : ofText s = [] := by
      rw [ofText_eq] at hany ⊢
      split at hany <;> simp_all
    simp [hnil]

theorem ofText_eq_nil_iff {s : String} :
    ofText s = [] ↔ ∀ t, Met s.toList t → t.kind ≠ .clause := by
  have hall : (readFrom 0 s.toList).any isClause = false ↔
      ∀ t, Met s.toList t → t.kind ≠ .clause := by
    simp [mem_readFrom_iff, isClause]
  rw [← hall, ofText_eq]
  split
  · next h =>
    simp only [h, Bool.true_eq_false, iff_false]
    intro hnil
    simp [hnil] at h
  · next h => simpa using h

theorem ofText_eq_readFrom {s : String} (h : ofText s ≠ []) :
    ofText s = readFrom 0 s.toList ∧ ∃ t ∈ ofText s, t.kind = .clause := by
  rw [ofText_eq] at h ⊢
  split at h
  · next hany =>
    rw [if_pos hany]
    exact ⟨rfl, by simpa [isClause] using hany⟩
  · exact absurd rfl h

/-- The tokens of a text are its only partition if there is a clause among them. -/
theorem ofText_partition (s : String) :
    (ofText s ≠ [] → (∃ t ∈ ofText s, t.kind = .clause) ∧
      (ofText s).Pairwise (fun a b => a.position < b.position) ∧
      (∀ t ∈ ofText s, t.text = (s.toList.drop t.position).take t.text.length) ∧
      ∀ tokens, Partition 0 s.toList tokens ↔ tokens = ofText s) ∧
    (ofText s = [] ↔ ∀ t, Met s.toList t → t.kind ≠ .clause) ∧
    ofText (String.ofList ((ofText s).flatMap (·.text))) =
      (ofText s).mapIdx fun i t =>
        { t with position := (((ofText s).take i).flatMap (·.text)).length } := by
  refine ⟨fun hne => ?_, ofText_eq_nil_iff, ofText_texts s⟩
  obtain ⟨hread, hclause⟩ := ofText_eq_readFrom hne
  have hpart : Partition 0 s.toList (ofText s) := hread ▸ partition_readFrom 0 s.toList
  refine ⟨hclause, hpart.increasing, fun t ht => ?_, fun tokens => by rw [hread, partition_iff]⟩
  exact List.prefix_iff_eq_take.mp (hpart.inside t ht).2

theorem ofText_partition_skipping :
    let s := "))a(eq:1);;(b(2)"
    ofText s ≠ [] ∧ Partition 0 s.toList (ofText s) ∧
      (ofText (String.ofList ((ofText s).flatMap (·.text)))).map (·.position) = [0, 7, 8, 9] := by
  have hne : ofText "))a(eq:1);;(b(2)" ≠ [] := by decide
  obtain ⟨hsome, -, hjoined⟩ := ofText_partition "))a(eq:1);;(b(2)"
  obtain ⟨-, -, -, hpart⟩ := hsome hne
  exact ⟨hne, (hpart _).mpr rfl, by rw [hjoined]; rfl⟩

end DocGrid.Token

import DocGrid.Proofs.Json.Numbers
import DocGrid.Proofs.Json.Strings
import DocGrid.Proofs.Results
import DocGrid.Value.Basic

/-! Values without days, points in time and decimal numbers are read back from their JSON texts.
A text of that many characters is read with that much fuel. -/

namespace DocGrid

theorem Document.put_of_notMem {doc : Document} {key : String} {v : Value}
    (h : key ∉ Document.keys doc) : doc.put key v = doc ++ [(key, v)] := by
  induction doc with
  | nil => rfl
  | cons e doc ih =>
    obtain ⟨hne, hrest⟩ := not_or.mp (mt List.mem_cons.mpr h)
    rw [put, if_neg (Ne.symm hne), ih hrest]
    rfl

theorem Document.putAll_append {doc : Document} {pairs : List (String × Value)}
    (h : (Document.keys (doc ++ pairs)).Nodup) : doc.putAll pairs = doc ++ pairs := by
  induction pairs generalizing doc with
  | nil => simp [putAll]
  | cons e pairs ih =>
    have happend : doc ++ e :: pairs = doc ++ [e] ++ pairs := by simp
    rw [happend] at h ⊢
    have hnew : e.1 ∉ keys doc := by
      simp only [keys, List.map_append, List.nodup_append, List.map_cons, List.map_nil] at h
      exact fun hmem => h.1.2.2 _ hmem _ (List.mem_singleton_self _) rfl
    rw [← ih h, ← put_of_notMem hnew]
    rfl

theorem Document.ofPairs_eq {pairs : List (String × Value)} (h : (Document.keys pairs).Nodup) :
    Document.ofPairs pairs = pairs :=
  putAll_append (show (Document.keys ([] ++ pairs)).Nodup from h)

/-- The values that have a JSON text of their own. -/
inductive Value.IsJson : Value → Prop
  | null : IsJson .null
  | bool (b : Bool) : IsJson (.bool b)
  | int {n : Int} (h : Scaled.digitCount n.natAbs ≤ Reading.maxDigits) : IsJson (.int n)
  | float {x : Binary64} (h : x.isNaN = false) : IsJson (.float x)
  | text (s : String) : IsJson (.text s)
  | list {items : List Value} (h : ∀ v ∈ items, IsJson v) : IsJson (.list items)
  | mapping {entries : Document} (hkeys : entries.keys.Nodup) (h : ∀ e ∈ entries, IsJson e.2) :
      IsJson (.mapping entries)

namespace Json

/-- A text that is read as a value, whatever follows the value. -/
structure Writes (cs : List Char) (v : Value) : Prop where
  starts : ∃ c more, cs = c :: more ∧ isSpace c = false ∧ c ≠ ']'
  reads : ∀ {fuel rest}, cs.length ≤ fuel → Ends rest → value fuel (cs ++ rest) = .ok (v, rest)

variable {cs rest : List Char} {v : Value} {fuel : Nat}

theorem skip_cons {c : Char} (h : isSpace c = false) (rest : List Char) :
    skip (c :: rest) = c :: rest := by
  simp [skip, h]

theorem Writes.skip_append (h : Writes cs v) (rest : List Char) :
    skip (cs ++ rest) = cs ++ rest := by
  obtain ⟨c, more, rfl, hspace, -⟩ := h.starts
  exact skip_cons hspace _

theorem Writes.skip_space (h : Writes cs v) (rest : List Char) :
    skip (' ' :: (cs ++ rest)) = cs ++ rest :=
  h.skip_append rest

/-- The first character of a word or a number. -/
def StartsAtom (c : Char) : Prop :=
  c ≠ '"' ∧ c ≠ '[' ∧ c ≠ '\x7b' ∧ isSpace c = false ∧ c ≠ ']'

theorem writes_atom (hstart : ∃ c more, cs = c :: more ∧ StartsAtom c)
    (h : ∀ rest, Ends rest → atom (cs ++ rest) = .ok (v, rest)) : Writes cs v := by
  obtain ⟨c, more, rfl, hquote, hlist, hmapping, hspace, hend⟩ := hstart
  refine ⟨⟨c, more, rfl, hspace, hend⟩, fun {fuel rest} hfuel hr => ?_⟩
  cases fuel with
  | zero => simp at hfuel
  | succ fuel =>
    rw [← h rest hr, List.cons_append, value]
    · exact fun _ heq => hquote (List.cons.inj heq).1
    · exact fun _ heq => hlist (List.cons.inj heq).1
    · exact fun _ heq => hmapping (List.cons.inj heq).1

theorem writes_numeral (hne : cs ≠ []) (hchars : ∀ c ∈ cs, c ∈ Reading.numeralChars)
    (h : ∀ rest, Ends rest → atom (cs ++ rest) = .ok (v, rest)) : Writes cs v := by
  obtain ⟨c, more, rfl⟩ := List.exists_cons_of_ne_nil hne
  have hall : ∀ c ∈ Reading.numeralChars,
      c ≠ '"' ∧ c ≠ '[' ∧ c ≠ '\x7b' ∧ isSpace c = false ∧ c ≠ ']' :=
    Reading.forall_numeralChars (by decide)
  exact writes_atom ⟨c, more, rfl, hall c (hchars c List.mem_cons_self)⟩ h

theorem writes_text (s : String) : Writes (quote s) (.text s) := by
  refine ⟨⟨'"', _, rfl, by decide, by decide⟩, fun {fuel rest} hfuel hr => ?_⟩
  cases fuel with
  | zero => simp [quote] at hfuel
  | succ fuel =>
    have hread := text_escaped s rest
    simp only [quote, List.cons_append, List.append_assoc, List.nil_append, value, hread]
    rfl

theorem listed_cons_cons (piece next : List Char) (pieces : List (List Char)) :
    listed (piece :: next :: pieces) = piece ++ ',' :: ' ' :: listed (next :: pieces) := by
  simp [listed, Text.join]

theorem listed_cons (piece : List Char) (pieces : List (List Char)) :
    ∃ more, listed (piece :: pieces) = piece ++ more := by
  cases pieces with
  | nil => exact ⟨[], (List.append_nil piece).symm⟩
  | cons next pieces => exact ⟨_, listed_cons_cons piece next pieces⟩

theorem ends_cons {c : Char} (h : c = ',' ∨ c = ']' ∨ c = '\x7d') (rest : List Char) :
    Ends (c :: rest) := by
  intro d hd
  obtain rfl := Option.some.inj hd
  exact h

theorem items_listed {pieces : List (List Char)} {vs : List Value} (hne : pieces ≠ [])
    (h : List.Forall₂ Writes pieces vs) (hfuel : (listed pieces).length < fuel) :
    items fuel (listed pieces ++ ']' :: rest) = .ok (vs, rest) := by
  induction h generalizing fuel with
  | nil => exact absurd rfl hne
  | @cons cs v pieces vs hfirst hrest ih =>
    cases fuel with
    | zero => simp at hfuel
    | succ fuel =>
      cases hrest with
      | nil =>
        have hread := hfirst.reads (Nat.lt_succ_iff.mp hfuel) (ends_cons (.inr (.inl rfl)) rest)
        have hskip : skip (']' :: rest) = ']' :: rest := skip_cons (by decide) rest
        simp [items, listed, Text.join, hread, hskip]
      | @cons next w pieces vs hnext hrest =>
        rw [listed_cons_cons] at hfuel ⊢
        simp only [List.length_append, List.length_cons] at hfuel
        obtain ⟨more, hmore⟩ := listed_cons next pieces
        have hread := hfirst.reads (by omega : cs.length ≤ fuel)
          (ends_cons (.inl rfl) (' ' :: (listed (next :: pieces) ++ ']' :: rest)))
        have hskip : skip (',' :: ' ' :: (listed (next :: pieces) ++ ']' :: rest)) =
            ',' :: ' ' :: (listed (next :: pieces) ++ ']' :: rest) := skip_cons (by decide) _
        have hspace : skip (' ' :: (listed (next :: pieces) ++ ']' :: rest)) =
            listed (next :: pieces) ++ ']' :: rest := by
          rw [hmore, List.append_assoc]
          exact hnext.skip_space _
        have hmany := ih (by simp) (by omega : (listed (next :: pieces)).length < fuel)
        simp [items, hread, hskip, hspace, hmany]

/-- A text that is read as an entry of a mapping. -/
def WritesEntry (cs : List Char) (e : String × Value) : Prop :=
  ∃ text, cs = quote e.1 ++ ':' :: ' ' :: text ∧ Writes text e.2

theorem entries_listed {pieces : List (List Char)} {es : List (String × Value)} (hne : pieces ≠ [])
    (h : List.Forall₂ WritesEntry pieces es) (hfuel : (listed pieces).length < fuel) :
    entries fuel (listed pieces ++ '\x7d' :: rest) = .ok (es, rest) := by
  induction h generalizing fuel with
  | nil => exact absurd rfl hne
  | @cons cs e pieces es hfirst hrest ih =>
    obtain ⟨key, v⟩ := e
    obtain ⟨text, rfl, hwrites⟩ := hfirst
    cases fuel with
    | zero => simp at hfuel
    | succ fuel =>
      have hcolon (after : List Char) : skip (':' :: after) = ':' :: after :=
        skip_cons (by decide) after
      -- The last entry is followed by the closing brace, any other one by a comma and a space.
      cases hrest with
      | nil =>
        have hlen : text.length ≤ fuel := by
          simp [listed, Text.join, quote] at hfuel
          omega
        have hkey := text_escaped key (':' :: ' ' :: (text ++ '\x7d' :: rest))
        have hread := hwrites.reads hlen (ends_cons (.inr (.inr rfl)) rest)
        have hskip : skip ('\x7d' :: rest) = '\x7d' :: rest := skip_cons (by decide) rest
        simp [entries, listed, Text.join, quote, hkey, hcolon, hwrites.skip_space, hread, hskip]
      | @cons next e pieces es hnext hrest =>
        rw [listed_cons_cons] at hfuel ⊢
        have hlen : text.length ≤ fuel ∧ (listed (next :: pieces)).length < fuel := by
          simp [quote] at hfuel
          omega
        obtain ⟨more, hmore⟩ := listed_cons next pieces
        have htail : skip (' ' :: (listed (next :: pieces) ++ '\x7d' :: rest)) =
            listed (next :: pieces) ++ '\x7d' :: rest := by
          obtain ⟨after, hafter, -⟩ := hnext
          rw [hmore, hafter]
          exact skip_cons (by decide : isSpace '"' = false) _
        have hkey := text_escaped key
          (':' :: ' ' :: (text ++ ',' :: ' ' :: (listed (next :: pieces) ++ '\x7d' :: rest)))
        have hread := hwrites.reads hlen.1
          (ends_cons (.inl rfl) (' ' :: (listed (next :: pieces) ++ '\x7d' :: rest)))
        have hskip : skip (',' :: ' ' :: (listed (next :: pieces) ++ '\x7d' :: rest)) =
            ',' :: ' ' :: (listed (next :: pieces) ++ '\x7d' :: rest) := skip_cons (by decide) _
        have hmany := ih (by simp) hlen.2
        simp [entries, quote, hkey, hcolon, hwrites.skip_space, hread, hskip, htail, hmany]

theorem writes_list {pieces : List (List Char)} {vs : List Value}
    (h : List.Forall₂ Writes pieces vs) : Writes ('[' :: (listed pieces ++ [']'])) (.list vs) := by
  refine ⟨⟨'[', _, rfl, by decide, by decide⟩, fun {fuel rest} hfuel hr => ?_⟩
  cases fuel with
  | zero => simp at hfuel
  | succ fuel =>
    rw [List.cons_append, List.append_assoc, value]
    cases h with
    | nil => rfl
    | @cons cs v pieces vs hfirst hrest =>
      have hitems : items fuel (listed (cs :: pieces) ++ ']' :: rest) = .ok (v :: vs, rest) :=
        items_listed (by simp) (.cons hfirst hrest) (by simpa [Nat.succ_le_iff] using hfuel)
      obtain ⟨more, hmore⟩ := listed_cons cs pieces
      have hskip : skip (listed (cs :: pieces) ++ ([']'] ++ rest)) =
          listed (cs :: pieces) ++ ']' :: rest := by
        rw [hmore, List.append_assoc, List.append_assoc]
        exact hfirst.skip_append _
      obtain ⟨c, tail, rfl, -, hend⟩ := hfirst.starts
      rw [hskip]
      split
      · next heq =>
        rw [hmore] at heq
        exact absurd (List.cons.inj heq).1 hend
      · rw [hitems]
        rfl

theorem writes_mapping {pieces : List (List Char)} {es : Document} (hkeys : es.keys.Nodup)
    (h : List.Forall₂ WritesEntry pieces es) :
    Writes ('\x7b' :: (listed pieces ++ ['\x7d'])) (.mapping es) := by
  refine ⟨⟨'\x7b', _, rfl, by decide, by decide⟩, fun {fuel rest} hfuel hr => ?_⟩
  cases fuel with
  | zero => simp at hfuel
  | succ fuel =>
    rw [List.cons_append, List.append_assoc, value]
    cases h with
    | nil => rfl
    | @cons cs e pieces es hfirst hrest =>
      have hentries : entries fuel (listed (cs :: pieces) ++ '\x7d' :: rest) =
          .ok (e :: es, rest) :=
        entries_listed (by simp) (.cons hfirst hrest) (by simpa [Nat.succ_le_iff] using hfuel)
      obtain ⟨more, hmore⟩ := listed_cons cs pieces
      obtain ⟨text, hcs, -⟩ := hfirst
      have hskip : skip (listed (cs :: pieces) ++ (['\x7d'] ++ rest)) =
          listed (cs :: pieces) ++ '\x7d' :: rest := by
        rw [hmore, hcs]
        exact skip_cons (by decide : isSpace '"' = false) _
      rw [hskip]
      split
      · next heq =>
        rw [hmore, hcs] at heq
        cases heq
      · rw [hentries]
        simp [Document.ofPairs_eq hkeys]

theorem printItems_writes {vs : List Value}
    (h : ∀ v ∈ vs, ∃ cs, print false v = .ok cs ∧ Writes cs v) :
    ∃ pieces, printItems false vs = .ok pieces ∧ List.Forall₂ Writes pieces vs := by
  induction vs with
  | nil => exact ⟨[], rfl, .nil⟩
  | cons v vs ih =>
    obtain ⟨⟨cs, hprint, hwrites⟩, hrest⟩ := List.forall_mem_cons.mp h
    obtain ⟨pieces, hpieces, hall⟩ := ih hrest
    refine ⟨cs :: pieces, ?_, .cons hwrites hall⟩
    rw [printItems, hprint, hpieces]
    rfl

theorem printEntries_writes {es : Document}
    (h : ∀ e ∈ es, ∃ cs, print false e.2 = .ok cs ∧ Writes cs e.2) :
    ∃ pieces, printEntries false es = .ok pieces ∧ List.Forall₂ WritesEntry pieces es := by
  induction es with
  | nil => exact ⟨[], rfl, .nil⟩
  | cons e es ih =>
    obtain ⟨⟨cs, hprint, hwrites⟩, hrest⟩ := List.forall_mem_cons.mp h
    obtain ⟨pieces, hpieces, hall⟩ := ih hrest
    refine ⟨_, ?_, .cons ⟨cs, rfl, hwrites⟩ hall⟩
    rw [printEntries, hprint, hpieces]
    rfl

theorem writes_float {x : Binary64} (h : x.isNaN = false) : Writes (floatText x) (.float x) := by
  have hread : ∀ rest, Ends rest → atom (floatText x ++ rest) = .ok (.float x, rest) :=
    fun rest => atom_float h
  by_cases hfinite : x.isFinite = true
  · have htext := floatText_finite hfinite
    have hnumeral := Reading.isNumeral_size FloatStyle.standard x
    refine writes_numeral ?_ ?_ hread
    · rw [htext]
      exact hnumeral.withSign_ne_nil _
    · rw [htext]
      exact hnumeral.chars_withSign _
  · obtain ⟨negative, rfl⟩ : ∃ negative, x = .infinity negative := ⟨_, eq_infinity h hfinite⟩
    rw [floatText_infinity] at hread ⊢
    cases negative with
    | true => exact writes_atom ⟨'-', _, rfl, by simp [StartsAtom, isSpace]⟩ hread
    | false => exact writes_atom ⟨'I', _, rfl, by simp [StartsAtom, isSpace]⟩ hread

/-- A value is printed as a text that is read as the value. -/
theorem print_writes (h : v.IsJson) : ∃ cs, print false v = .ok cs ∧ Writes cs v := by
  induction h with
  | null => exact ⟨_, rfl, writes_atom ⟨'n', _, rfl, by simp [StartsAtom, isSpace]⟩ fun _ _ => rfl⟩
  | bool b =>
    cases b with
    | true =>
      exact ⟨_, rfl, writes_atom ⟨'t', _, rfl, by simp [StartsAtom, isSpace]⟩ fun _ _ => rfl⟩
    | false =>
      exact ⟨_, rfl, writes_atom ⟨'f', _, rfl, by simp [StartsAtom, isSpace]⟩ fun _ _ => rfl⟩
  | @int n h =>
    have hnumeral := Reading.isNumeral_digits n.natAbs
    refine ⟨_, rfl, writes_numeral ?_ ?_ fun rest => atom_int h⟩
    · rw [Reading.toList_toString_int]
      exact hnumeral.withSign_ne_nil _
    · rw [Reading.toList_toString_int]
      exact hnumeral.chars_withSign _
  | float h => exact ⟨_, rfl, writes_float h⟩
  | text s => exact ⟨_, rfl, writes_text s⟩
  | list _ ih =>
    obtain ⟨pieces, hpieces, hall⟩ := printItems_writes ih
    exact ⟨_, by rw [print, hpieces]; rfl, writes_list hall⟩
  | mapping hkeys _ ih =>
    obtain ⟨pieces, hpieces, hall⟩ := printEntries_writes ih
    exact ⟨_, by rw [print, hpieces]; rfl, writes_mapping hkeys hall⟩

theorem read_print (h : v.IsJson) : ∃ cs, print false v = .ok cs ∧ read cs = .ok v := by
  obtain ⟨cs, hprint, hwrites⟩ := print_writes h
  refine ⟨cs, hprint, ?_⟩
  have hread : value (2 * cs.length + 2) (cs ++ []) = .ok (v, []) :=
    hwrites.reads (by omega) (by simp [Ends])
  have hskip := hwrites.skip_append []
  rw [List.append_nil] at hread hskip
  simp only [read, hskip, hread, Result.ok_bind]
  rfl

end Json

end DocGrid

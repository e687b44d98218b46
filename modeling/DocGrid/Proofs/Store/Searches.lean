import DocGrid.Proofs.Store.Answers
import DocGrid.Proofs.Store.Like
import DocGrid.Proofs.Store.TruthValues

/-! The rows that a database finds for a search. A row has a term when some text of it has the term,
and is without the term only when all text columns have texts and none of them has it: of null it
is not known. A pattern that is too long ends the search. -/

namespace DocGrid

def Table.textColumns (t : Table) : List Column :=
  t.columns.filter fun c => c.type == .text

namespace SqlRow

/-- Some text of the row is such a text. -/
def SomeText (r : SqlRow) (t : Table) (p : List Char → Prop) : Prop :=
  ∃ c ∈ t.textColumns, ∃ s, r.cell c.name = .text s ∧ p s.toList

/-- All text columns of the row have such texts. -/
def EveryText (r : SqlRow) (t : Table) (p : List Char → Prop) : Prop :=
  ∀ c ∈ t.textColumns, ∃ s, r.cell c.name = .text s ∧ p s.toList

theorem someText_items {r : SqlRow} {p : List Char → Prop} : r.SomeText .items p ↔
    (∃ s, r.cell "name" = .text s ∧ p s.toList) ∨ ∃ s, r.cell "role" = .text s ∧ p s.toList := by
  have hcolumns : Table.items.textColumns =
      [⟨"name", .text, false, false, none⟩, ⟨"role", .text, false, true, some .null⟩] := by
    simp [Table.textColumns, Table.items]
  rw [SomeText, hcolumns, List.exists_mem_cons_iff, List.exists_mem_cons_iff]
  simp

end SqlRow

namespace Condition

variable {r : SqlRow} {t : Table} {term : List Char} {terms : List SearchTerm}

/-- The pattern for a term is longer than texts are compared with. -/
def TooLong (term : List Char) : Prop :=
  maxPattern < (String.ofList ('%' :: term ++ ['%'])).utf8ByteSize

theorem constant_notMem_likes (term : List Char) (columns : List Column) (b : Bool) :
    constant b ∉ columns.map fun c => like c term := by
  simp

theorem contains_ne_constant (h : t.textColumns ≠ []) (term : List Char) (b : Bool) :
    contains t term ≠ constant b :=
  disjunction_ne_constant (constant_notMem_likes term _) (mt List.map_eq_nil_iff.mp h) b

theorem exists_term {b : Bool} :
    (∃ e ∈ terms, e.negated = b ∧ e.text = term) ↔ ⟨b, term⟩ ∈ terms := by
  constructor
  · rintro ⟨⟨_, _⟩, he, rfl, rfl⟩
    exact he
  · exact fun h => ⟨_, h, rfl, rfl⟩

@[simp] theorem mem_wanted : term ∈ SearchTerm.wanted terms ↔ ⟨false, term⟩ ∈ terms := by
  simp [SearchTerm.wanted, ← exists_term, and_assoc]

@[simp] theorem mem_unwanted : term ∈ SearchTerm.unwanted terms ↔ ⟨true, term⟩ ∈ terms := by
  simp [SearchTerm.unwanted, ← exists_term, and_assoc]

/-- The condition for wanted and unwanted terms together has no constants among its parts. -/
theorem constant_notMem_search (h : t.textColumns ≠ []) {wanted : List (List Char)}
    (hwanted : wanted ≠ []) (unwanted : List (List Char)) (b : Bool) :
    constant b ∉ disjunction (wanted.map (contains t)) ::
      unwanted.map fun term => not (contains t term) := by
  rw [List.mem_cons, not_or]
  refine ⟨Ne.symm (disjunction_ne_constant (fun d hd => ?_) (mt List.map_eq_nil_iff.mp hwanted) b),
    by simp⟩
  obtain ⟨term, -, hterm⟩ := List.mem_map.mp hd
  exact contains_ne_constant h term d hterm

theorem ofSearch_eq (t : Table) (terms : List SearchTerm) : ofSearch t terms =
    let found := disjunction ((SearchTerm.wanted terms).map (contains t))
    if t.textColumns = [] ∨ SearchTerm.wanted terms = [] then literal false
    else if SearchTerm.unwanted terms = [] then found
    else all (found :: (SearchTerm.unwanted terms).map fun term => not (contains t term)) := by
  have hcolumns : (!t.columns.any fun c => c.type == .text) = true ↔ t.textColumns = [] := by
    simp [Table.textColumns]
  have hnone : (!t.columns.any (fun c => c.type == .text) || (SearchTerm.wanted terms).isEmpty) =
      true ↔ t.textColumns = [] ∨ SearchTerm.wanted terms = [] := by
    rw [Bool.or_eq_true, hcolumns, List.isEmpty_iff]
  unfold ofSearch
  simp only [hnone, List.isEmpty_iff]
  split
  · rfl
  · next hsome =>
    obtain ⟨htext, hwanted⟩ := not_or.mp hsome
    cases hunwanted : SearchTerm.unwanted terms with
    | nil => rfl
    | cons u us =>
      simp only [List.cons_ne_nil, if_false, List.map_cons]
      exact conjunction_eq_all (constant_notMem_search htext hwanted (u :: us))

theorem arguments_contains (t : Table) (term : List Char) : (contains t term).arguments = [] := by
  refine arguments_disjunction_eq_nil fun c hc => ?_
  obtain ⟨column, -, rfl⟩ := List.mem_map.mp hc
  rfl

theorem arguments_ofSearch (t : Table) (terms : List SearchTerm) :
    (ofSearch t terms).arguments = [] := by
  have hfound : (disjunction ((SearchTerm.wanted terms).map (contains t))).arguments = [] := by
    refine arguments_disjunction_eq_nil fun c hc => ?_
    obtain ⟨term, -, rfl⟩ := List.mem_map.mp hc
    exact arguments_contains t term
  unfold ofSearch
  dsimp only
  split
  · rfl
  · split
    · exact hfound
    · refine arguments_conjunction_eq_nil (List.forall_mem_cons.mpr ⟨hfound, fun c hc => ?_⟩)
      obtain ⟨term, -, rfl⟩ := List.mem_map.mp hc
      exact arguments_contains t term

variable [Conversions]

theorem tells_like (b : Bool) (c : Column) (term : List Char) :
    Tells (holds r (.like c term)) (TooLong term) b
      (∃ s, r.cell c.name = .text s ∧ (Finds term s.toList ↔ b = true)) := by
  rw [holds]
  unfold likeHolds
  dsimp only
  split
  · next hlong => exact tells_of_error rfl hlong
  · split
    · next s hs =>
      refine tells_of_ok rfl ?_
      simp only [hs, Cell.text.injEq, exists_eq_left', ← matchesLike_around]
      cases matchesLike (folded ('%' :: term ++ ['%'])) (folded s.toList) <;> cases b <;> decide
    · next hnot => exact tells_of_ok rfl (by simpa using fun s hs => absurd hs (hnot s))

@[simp] theorem holds_contains (t : Table) (term : List Char) :
    (contains t term).holds r = holdsAny r (t.textColumns.map fun c => like c term) :=
  holds_disjunction (constant_notMem_likes term _)

/-- A row has a term when one of its texts has it. -/
theorem tells_contains_true (t : Table) (term : List Char) :
    Tells ((contains t term).holds r) (TooLong term) true (r.SomeText t (Finds term)) := by
  rw [holds_contains]
  have hany := tells_any_true fun c (_ : c ∈ t.textColumns) => tells_like (r := r) true c term
  simp only [iff_true] at hany
  exact hany.mono fun ⟨_, _, hlong⟩ => hlong

/-- A row is without a term when all of its text columns have texts without it. -/
theorem tells_contains_false (t : Table) (term : List Char) :
    Tells ((contains t term).holds r) (TooLong term) false
      (r.EveryText t fun text => ¬Finds term text) := by
  rw [holds_contains]
  have hany := tells_any_false fun c (_ : c ∈ t.textColumns) => tells_like (r := r) false c term
  simp only [Bool.false_eq_true, iff_false] at hany
  exact hany.mono fun ⟨_, _, hlong⟩ => hlong

theorem tells_wanted (h : t.textColumns ≠ []) (wanted : List (List Char)) :
    Tells ((disjunction (wanted.map (contains t))).holds r) (∃ term ∈ wanted, TooLong term) true
      (∃ term ∈ wanted, r.SomeText t (Finds term)) := by
  rw [holds_disjunction]
  · exact tells_any_true fun term _ => tells_contains_true t term
  · intro b hb
    obtain ⟨term, -, hterm⟩ := List.mem_map.mp hb
    exact contains_ne_constant h term b hterm

/-- A search selects a row that has some wanted term and is without all unwanted ones. -/
theorem tells_ofSearch (t : Table) (terms : List SearchTerm) :
    Tells ((ofSearch t terms).holds r) (∃ e ∈ terms, TooLong e.text) true
      ((∃ term ∈ SearchTerm.wanted terms, r.SomeText t (Finds term)) ∧
        ∀ term ∈ SearchTerm.unwanted terms, r.EveryText t fun text => ¬Finds term text) := by
  rw [ofSearch_eq]
  dsimp only
  split
  · next hnone =>
    refine tells_of_ok rfl (iff_of_false nofun ?_)
    rintro ⟨⟨term, hterm, c, hc, -⟩, -⟩
    exact hnone.elim (List.ne_nil_of_mem hc) (List.ne_nil_of_mem hterm)
  · next hsome =>
    have hfound : Tells ((disjunction ((SearchTerm.wanted terms).map (contains t))).holds r)
        (∃ e ∈ terms, TooLong e.text) true
        (∃ term ∈ SearchTerm.wanted terms, r.SomeText t (Finds term)) :=
      (tells_wanted (not_or.mp hsome).1 _).mono fun ⟨_, hterm, hlong⟩ =>
        ⟨_, mem_wanted.mp hterm, hlong⟩
    have hwithout : Tells
        (holdsAll r ((SearchTerm.unwanted terms).map fun term => not (contains t term)))
        (∃ e ∈ terms, TooLong e.text) true
        (∀ term ∈ SearchTerm.unwanted terms, r.EveryText t fun text => ¬Finds term text) :=
      (tells_all fun term _ => (tells_contains_false t term).not).mono fun ⟨_, hterm, hlong⟩ =>
        ⟨_, mem_unwanted.mp hterm, hlong⟩
    split
    · next hnone => simpa [hnone] using hfound
    · rw [holds]
      exact (hfound.cons_all hwithout).mono fun h => h.elim id id

end Condition

namespace SqlStore

open Condition

variable {s : SqlStore} {t : Table} {rows : List SqlRow} {f : Filter} {search : String}

section Found

variable [Conversions]

/-- A filter is answered with the rows that are such, in the order in which they are kept. -/
def FindsRows (s : SqlStore) (t : Table) (f : Filter) (rows : List SqlRow) (p : SqlRow → Prop) :
    Prop :=
  ∃ (q : SqlRow → Bool) (docs : List Document), s.find t ⟨some f, [], 0, 0⟩ = .ok docs ∧
    (rows.filter q).mapM (loadRow t) = .ok docs ∧ ∀ r ∈ rows, q r = true ↔ p r

theorem FindsRows.length_eq {p : SqlRow → Prop} {docs : List Document}
    (h : s.FindsRows t f rows p) (hfind : s.find t ⟨some f, [], 0, 0⟩ = .ok docs) :
    ∃ q : SqlRow → Bool, docs.length = (rows.filter q).length ∧ ∀ r ∈ rows, q r = true ↔ p r := by
  obtain ⟨q, found, hfound, hloaded, hq⟩ := h
  obtain rfl := Except.ok.inj (hfind.symm.trans hfound)
  exact ⟨q, Result.length_of_mapM hloaded, hq⟩

/-- A condition without arguments is asked of one row after the other. -/
theorem findRows_of_no_arguments {c : Condition} (hc : Condition.ofFilter t f = .ok c)
    (ha : c.arguments = []) (hrows : s.rows t = .ok rows) :
    s.findRows t ⟨some f, [], 0, 0⟩ = rows.filterM c.selects := by
  rw [findRows_eq_selected hc]
  simp only [selected, ha, hrows]
  rfl

/-- Rows of which a condition tells whether it is true are found, or a pattern is too long. -/
theorem find_of_tells (hs : s.Accepted) (ht : t ∈ Table.all) (hrows : s.rows t = .ok rows)
    {c : Condition} (hc : Condition.ofFilter t f = .ok c) (ha : c.arguments = []) {long : Prop}
    {p : SqlRow → Prop} (hp : ∀ r ∈ rows, Tells (c.holds r) long true (p r)) :
    s.find t ⟨some f, [], 0, 0⟩ = .error .storeOperation ∧ long ∨ s.FindsRows t f rows p := by
  have hfind := findRows_of_no_arguments hc ha hrows
  -- The read fails at a row, or each row is found or not; what is found can be loaded.
  cases hfound : rows.filterM c.selects with
  | error e =>
    obtain ⟨r, hr, he⟩ := Result.error_of_filterM hfound
    have hholds : c.holds r = .error e := by
      cases hc : c.holds r with
      | ok known =>
        rw [selects_of_holds hc] at he
        cases he
      | error d =>
        rw [selects, hc] at he
        exact congrArg Except.error (Except.error.inj he)
    obtain ⟨rfl, hlong⟩ := (hp r hr).fails e hholds
    refine .inl ⟨?_, hlong⟩
    rw [find, hfind, hfound]
    rfl
  | ok found =>
    obtain ⟨q, rfl, hq⟩ := Result.exists_of_filterM hfound
    obtain ⟨docs, hdocs⟩ := Result.mapM_exists fun r (hr : r ∈ rows.filter q) =>
      hs.loads t ht rows hrows r (List.mem_filter.mp hr).1
    refine .inr ⟨q, docs, ?_, hdocs, fun r hr => ?_⟩
    · rw [find, hfind, hfound]
      exact hdocs
    · obtain ⟨known, hknown, -⟩ := Result.ok_of_bind (hq r hr)
      have hchosen := (selects_of_holds hknown).symm.trans (hq r hr)
      rw [← (hp r hr).iff known hknown, ← Except.ok.inj hchosen, beq_iff_eq]

/-- A search for terms without wildcards finds the rows that have some wanted term, in any text, and
have no unwanted one; but a null among the texts of a row hides from an unwanted term that it is not
there, so that the row is not found. Of the limits of a database only the one on the length of a
pattern counts here: those on the depth of a condition and on the number of its arguments, which grow
with the terms, are taken not to be reached. -/
theorem find_search (hs : s.Accepted) (ht : t ∈ Table.all) (hrows : s.rows t = .ok rows)
    (hplain : ∀ e ∈ SearchTerm.ofText search, ∀ c ∈ e.text, c ≠ '%' ∧ c ≠ '_')
    (options : Document) :
    let terms := SearchTerm.ofText search
    let f : Filter := .search search options
    s.find t ⟨some f, [], 0, 0⟩ = .error .storeOperation ∧ (∃ e ∈ terms, TooLong e.text) ∨
      s.FindsRows t f rows fun r =>
        (∃ term ∈ SearchTerm.wanted terms, r.SomeText t (Has term)) ∧
          ∀ term ∈ SearchTerm.unwanted terms, r.EveryText t fun text => ¬Has term text := by
  intro terms f
  have hhas : ∀ e ∈ terms, Finds e.text = Has e.text := fun e he =>
    funext fun _ => propext (finds_plain (hplain e he))
  refine find_of_tells hs ht hrows rfl (arguments_ofSearch t terms) fun r _ => ?_
  have htells := tells_ofSearch (r := r) t terms
  refine ⟨fun known hknown => (htells.iff known hknown).trans (and_congr ?_ ?_), htells.fails⟩
  · refine exists_congr fun term => and_congr_right fun hterm => ?_
    rw [hhas _ (mem_wanted.mp hterm)]
  · refine forall₂_congr fun term hterm => ?_
    rw [hhas _ (mem_unwanted.mp hterm)]

end Found

/-- Ann has no role, so that she is not found although nothing of her has the unwanted term. -/
theorem find_search_roles :
    let terms : List SearchTerm := [⟨false, ['n']⟩, ⟨false, ['b']⟩, ⟨true, ['x', 'y']⟩]
    SearchTerm.ofText "n b -\"xy\"" = terms ∧
      roleStore.FindsRows .items (.search "n b -\"xy\"" [])
        (roleRows.map Table.items.keptRow) fun r =>
          (∃ term ∈ SearchTerm.wanted terms, r.SomeText .items (Has term)) ∧
            ∀ term ∈ SearchTerm.unwanted terms, r.EveryText .items fun text => ¬Has term text := by
  intro terms
  have hterms : SearchTerm.ofText "n b -\"xy\"" = terms := by decide
  have hshort : ¬∃ e ∈ terms, TooLong e.text := by
    have hsizes : ∀ e ∈ terms, (String.ofList ('%' :: e.text ++ ['%'])).utf8ByteSize ≤ 50000 := by
      decide
    rintro ⟨e, he, hlong⟩
    exact absurd hlong (Nat.not_lt.mpr (hsizes e he))
  have hplain : ∀ e ∈ SearchTerm.ofText "n b -\"xy\"", ∀ c ∈ e.text, c ≠ '%' ∧ c ≠ '_' := by
    simp [hterms, terms]
  have hitems : Table.items ∈ Table.all := by simp [Table.all]
  have hrows : roleStore.rows .items = .ok (roleRows.map Table.items.keptRow) := rfl
  have hfinds := find_search accepted_roleStore hitems hrows hplain []
  rw [hterms] at hfinds
  exact ⟨hterms, hfinds.resolve_left fun h => hshort h.2⟩

theorem not_find_search :
    ¬∀ (s : SqlStore) (rows : List SqlRow) (search : String), s.Accepted →
      s.rows .items = .ok rows →
      (∀ e ∈ SearchTerm.ofText search, ∀ c ∈ e.text, c ≠ '%' ∧ c ≠ '_') →
      s.FindsRows .items (.search search []) rows fun r =>
        (∃ term ∈ SearchTerm.wanted (SearchTerm.ofText search),
          r.SomeText .items (Contains term)) ∧
          ∀ term ∈ SearchTerm.unwanted (SearchTerm.ofText search),
            ¬r.SomeText .items (Contains term) := by
  intro h
  have hterms : SearchTerm.ofText "ann -x" = [⟨false, ['a', 'n', 'n']⟩, ⟨true, ['x']⟩] := by decide
  have hnone : roleStore.find .items ⟨some (.search "ann -x" []), [], 0, 0⟩ = .ok [] := by
    with_unfolding_all rfl
  let ann := Table.items.keptRow roleRows[0]
  have hname : ann.cell "name" = .text "Ann" := rfl
  have hrole : ann.cell "role" = .null := rfl
  have hann : ann ∈ roleRows.map Table.items.keptRow := by simp [ann, roleRows]
  obtain ⟨q, hlength, hq⟩ :=
    (h roleStore _ "ann -x" accepted_roleStore rfl (by simp [hterms])).length_eq hnone
  refine List.filter_eq_nil_iff.mp (List.length_eq_zero_iff.mp hlength.symm) ann hann
    ((hq ann hann).mpr ⟨?_, fun term hterm => ?_⟩)
  · have hcontains : Contains ['a', 'n', 'n'] "Ann".toList := ⟨[], [], by decide⟩
    exact ⟨_, by simp [hterms], SqlRow.someText_items.mpr (.inl ⟨_, hname, hcontains⟩)⟩
  · obtain rfl : term = ['x'] := by simpa [hterms] using hterm
    rw [SqlRow.someText_items, hname, hrole]
    rintro (⟨text, htext, hx⟩ | ⟨text, htext, -⟩)
    · obtain rfl := Cell.text.inj htext
      revert hx
      unfold Contains
      decide
    · cases htext

/-- A search for one term finds the rows that have it in any text. The term is looked for as it is
exactly when no character of it is special. -/
theorem find_search_term [Conversions] (hs : s.Accepted) (ht : t ∈ Table.all) (hrows : s.rows t = .ok rows)
    {term : List Char} (hone : SearchTerm.ofText search = [⟨false, term⟩]) (options : Document) :
    let f : Filter := .search search options
    (s.find t ⟨some f, [], 0, 0⟩ = .error .storeOperation ∧ TooLong term ∨
      s.FindsRows t f rows fun r => r.SomeText t (Finds term)) ∧
    ((∀ text, '\x00' ∉ text → (Finds term text ↔ Contains term text)) ↔
      ∀ c ∈ term, c ∉ specials) := by
  intro f
  refine ⟨?_, finds_iff_contains⟩
  have htells (r : SqlRow) : Tells ((ofSearch t (SearchTerm.ofText search)).holds r) (TooLong term)
      true (r.SomeText t (Finds term)) := by
    have hall := tells_ofSearch (r := r) t (SearchTerm.ofText search)
    rw [hone] at hall ⊢
    simpa [SearchTerm.wanted, SearchTerm.unwanted] using hall
  exact find_of_tells hs ht hrows rfl (arguments_ofSearch t _) fun r _ => htells r

/-- The low line stands for any character, so that Ann is found. -/
theorem find_search_term_roles :
    let f : Filter := .search "A_n" []
    SearchTerm.ofText "A_n" = [⟨false, "A_n".toList⟩] ∧
    (roleStore.find .items ⟨some f, [], 0, 0⟩ = .error .storeOperation ∧
        TooLong "A_n".toList ∨
      roleStore.FindsRows .items f (roleRows.map Table.items.keptRow) fun r =>
        r.SomeText .items (Finds "A_n".toList)) ∧
    ((∀ text, '\x00' ∉ text → (Finds "A_n".toList text ↔ Contains "A_n".toList text)) ↔
      ∀ c ∈ "A_n".toList, c ∉ specials) :=
  have hone : SearchTerm.ofText "A_n" = [⟨false, "A_n".toList⟩] := by decide
  ⟨hone, find_search_term accepted_roleStore (by simp [Table.all]) rfl hone []⟩

def bobStore : SqlStore :=
  ⟨[("items", [Table.items.keptRow roleRows[1]])]⟩

theorem accepted_bobStore : bobStore.Accepted :=
  accepted_of_rows (by simp [Table.all] : Table.items ∈ Table.all) [roleRows[1]] ⟨_, rfl⟩

/-- A percent sign finds all rows, whether they have one or not. -/
theorem not_find_search_term :
    ¬∀ (s : SqlStore) (rows : List SqlRow) (search : String) (term : List Char), s.Accepted →
      s.rows .items = .ok rows →
      (∀ r ∈ rows, ∀ c ∈ Table.items.columns, r.cell c.name ≠ .null) →
      SearchTerm.ofText search = [⟨false, term⟩] →
      s.FindsRows .items (.search search []) rows fun r => r.SomeText .items (Contains term) := by
  intro h
  let bob := Table.items.keptRow roleRows[1]
  have hnulls : ∀ r ∈ [bob], ∀ c ∈ Table.items.columns, r.cell c.name ≠ .null := by
    decide +kernel
  have hname : bob.cell "name" = .text "Bob" := rfl
  have hrole : bob.cell "role" = .text "user" := rfl
  have hall : ∃ doc, bobStore.find .items ⟨some (.search "%" []), [], 0, 0⟩ = .ok [doc] :=
    ⟨_, by with_unfolding_all rfl⟩
  obtain ⟨doc, hdoc⟩ := hall
  obtain ⟨q, hlength, hq⟩ :=
    (h bobStore [bob] "%" ['%'] accepted_bobStore rfl hnulls (by decide)).length_eq hdoc
  have hfound : q bob = true := by
    by_contra hnot
    simp [hnot] at hlength
  have hsome := (hq bob (List.mem_singleton_self bob)).mp hfound
  rw [SqlRow.someText_items, hname, hrole] at hsome
  rcases hsome with ⟨text, htext, hx⟩ | ⟨text, htext, hx⟩
  all_goals
    obtain rfl := Cell.text.inj htext
    revert hx
    unfold Contains
    decide

end SqlStore

end DocGrid

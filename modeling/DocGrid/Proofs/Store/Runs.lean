import DocGrid.Proofs.Store.Batches
import DocGrid.Proofs.Store.Loading

/-! Whole runs of writes. What memory holds after a run is read off a ledger, in which a row is
entered when it is accepted: its table has no row with its key. -/

namespace DocGrid

inductive Command where
  | setup (ts : List Table)
  | insert (t : Table) (row : Document)
  | insertAll (t : Table) (rows : List Document)

namespace Command

variable {m : Type → Type} [Monad m]

def perform (store : DocumentStore m) : Command → m (Result Unit)
  | setup ts => store.setup ts
  | insert t row => return (← store.insert t row).map fun _ => ()
  | insertAll t rows => return (← store.insertAll t rows).map fun _ => ()

/-- Performs commands one after the other, also after failures. -/
def performAll (store : DocumentStore m) : List Command → m (List (Result Unit))
  | [] => return []
  | c :: rest => do
    let answer ← c.perform store
    return answer :: (← performAll store rest)

/-- The rows that a command offers, and their table. -/
def offers : Command → List (Table × Document)
  | setup _ => []
  | insert t row => [(t, row)]
  | insertAll t rows => rows.map fun row => (t, row)

/-- Commands that offer rows of known tables, with values for keys that can be keys. -/
def Suits (models : List Table) (c : Command) : Prop :=
  ∀ e ∈ c.offers, e.1 ∈ models ∧ (e.1.keyOf e.2).all MemoryStore.isKeyValue = true

end Command

/-- The rows that were accepted, in the order in which they were. -/
abbrev Ledger := List (Table × Document)

namespace Ledger

def of (l : Ledger) (t : Table) : List Document :=
  (l.filter fun e => e.1.name = t.name).map (·.2)

def taken (l : Ledger) (t : Table) (row : Document) : Bool :=
  (l.of t).any fun r => Value.sameItems (t.keyOf r) (t.keyOf row)

/-- Enters rows one after the other, up to the first one whose key is taken. -/
def enter (l : Ledger) : List (Table × Document) → Ledger × Result Unit
  | [] => (l, .ok ())
  | (t, row) :: rest =>
    if l.taken t row then (l, .error (.duplicateKey (t.keyDocument row)))
    else enter (l ++ [(t, row)]) rest

/-- The ledger after commands, and their answers. -/
def after (l : Ledger) : List Command → Ledger × List (Result Unit)
  | [] => (l, [])
  | c :: rest =>
    let entered := l.enter c.offers
    let last := entered.1.after rest
    (last.1, entered.2 :: last.2)

variable {l : Ledger} {t u : Table} {row : Document} {entries : List (Table × Document)}
  {models : List Table} {cs : List Command}

@[simp]
theorem of_append (l entries : Ledger) (t : Table) : (l ++ entries).of t = l.of t ++ of entries t := by
  simp [of]

@[simp] theorem of_singleton : of [(u, row)] t = if u.name = t.name then [row] else [] := by
  by_cases h : u.name = t.name <;> simp [of, h]

/-- No two rows of a table have the same key. -/
def Apart (models : List Table) (l : Ledger) : Prop :=
  ∀ t ∈ models, (l.of t).Pairwise fun a b => Value.sameItems (t.keyOf a) (t.keyOf b) = false

theorem Apart.append (h : l.Apart models)
    (hnames : ∀ t ∈ models, ∀ u ∈ models, t.name = u.name → t = u) (hu : u ∈ models)
    (hfree : l.taken u row = false) : Apart models (l ++ [(u, row)]) := by
  intro t ht
  rw [of_append, of_singleton]
  by_cases hname : u.name = t.name
  · obtain rfl := hnames u hu t ht hname
    rw [if_pos rfl]
    refine List.pairwise_append.mpr ⟨h u hu, List.pairwise_singleton _ _, fun r hr x hx => ?_⟩
    obtain rfl := List.mem_singleton.mp hx
    simpa using List.any_eq_false.mp hfree r hr
  · rw [if_neg hname, List.append_nil]
    exact h t ht

/-- What is entered comes before the first entry that is refused, and is everything if none is. -/
theorem enter_eq (l : Ledger) (entries : List (Table × Document)) :
    l.enter entries = (l ++ entries, .ok ()) ∨
      ∃ kept t row rest, entries = kept ++ (t, row) :: rest ∧ (l ++ kept).taken t row = true ∧
        l.enter entries = (l ++ kept, .error (.duplicateKey (t.keyDocument row))) := by
  induction entries generalizing l with
  | nil => exact .inl (by simp [enter])
  | cons e rest ih =>
    obtain ⟨t, row⟩ := e
    by_cases htaken : l.taken t row = true
    · exact .inr ⟨[], t, row, rest, rfl, by simpa using htaken, by simp [enter, htaken]⟩
    · obtain hall | ⟨kept, u, refused, more, rfl, hrefused, hkept⟩ := ih (l ++ [(t, row)])
      · exact .inl (by simp [enter, htaken, hall])
      · refine .inr ⟨(t, row) :: kept, u, refused, more, rfl, by simpa using hrefused, ?_⟩
        simp [enter, htaken, hkept]

theorem enter_prefix (l : Ledger) (entries : List (Table × Document)) :
    ∃ kept, kept <+: entries ∧ (l.enter entries).1 = l ++ kept := by
  obtain h | ⟨kept, t, row, rest, rfl, -, h⟩ := enter_eq l entries
  · exact ⟨entries, List.prefix_rfl, by rw [h]⟩
  · exact ⟨kept, List.prefix_append _ _, by rw [h]⟩

theorem Apart.enter (h : l.Apart models)
    (hnames : ∀ t ∈ models, ∀ u ∈ models, t.name = u.name → t = u)
    (hentries : ∀ e ∈ entries, e.1 ∈ models) : Apart models (l.enter entries).1 := by
  induction entries generalizing l with
  | nil => exact h
  | cons e rest ih =>
    obtain ⟨t, row⟩ := e
    obtain ⟨ht, hrest⟩ := List.forall_mem_cons.mp hentries
    by_cases htaken : l.taken t row = true
    · simpa [Ledger.enter, htaken] using h
    · have hfree : l.taken t row = false := by simpa using htaken
      simpa [Ledger.enter, htaken] using ih (h.append hnames ht hfree) hrest

theorem Apart.after (h : l.Apart models)
    (hnames : ∀ t ∈ models, ∀ u ∈ models, t.name = u.name → t = u)
    (hcs : ∀ c ∈ cs, c.Suits models) : Apart models (l.after cs).1 := by
  induction cs generalizing l with
  | nil => exact h
  | cons c rest ih =>
    obtain ⟨hc, hrest⟩ := List.forall_mem_cons.mp hcs
    exact ih (h.enter hnames fun e he => (hc e he).1) hrest

/-- Commands add at the end, and only what they offer. -/
theorem after_fst (l : Ledger) (cs : List Command) :
    ∃ added, (l.after cs).1 = l ++ added ∧ ∀ e ∈ added, ∃ c ∈ cs, e ∈ c.offers := by
  induction cs generalizing l with
  | nil => exact ⟨[], by simp [after], by simp⟩
  | cons c rest ih =>
    obtain ⟨kept, hprefix, hkept⟩ := enter_prefix l c.offers
    obtain ⟨added, hadded, hoffered⟩ := ih (l ++ kept)
    refine ⟨kept ++ added, ?_, fun e he => ?_⟩
    · simp only [after, hkept, hadded, List.append_assoc]
    · rcases List.mem_append.mp he with he | he
      · exact ⟨c, List.mem_cons_self, hprefix.subset he⟩
      · obtain ⟨d, hd, hmem⟩ := hoffered e he
        exact ⟨d, List.mem_cons_of_mem _ hd, hmem⟩

end Ledger

namespace MemoryStore

/-- The store holds what is in the ledger. -/
def Mirrors (s : MemoryStore) (l : Ledger) : Prop :=
  ∀ t, s.rows t = l.of t

variable {s : MemoryStore} {l : Ledger} {t : Table} {row : Document} {rows : List Document}
  {models : List Table} {c : Command} {cs earlier later : List Command}

theorem Mirrors.append (h : s.Mirrors l) (t : Table) (row : Document) :
    (s.append t row).Mirrors (l ++ [(t, row)]) := by
  intro u
  rw [rows_append, h u, Ledger.of_append, Ledger.of_singleton]
  by_cases hname : u.name = t.name
  · simp [hname]
  · simp [hname, Ne.symm hname]

theorem Mirrors.insert (h : s.Mirrors l) (hkey : (t.keyOf row).all isKeyValue = true) :
    s.insert t row = if l.taken t row then .error (.duplicateKey (t.keyDocument row))
      else .ok (s.append t row) := by
  simp only [MemoryStore.insert, hkey, h t, Ledger.taken]
  rfl

theorem Mirrors.insertAll (h : s.Mirrors l)
    (hkeys : ∀ row ∈ rows, (t.keyOf row).all isKeyValue = true) :
    (s.insertAll t rows).1.Mirrors (l.enter (rows.map fun row => (t, row))).1 ∧
      (s.insertAll t rows).2 = (l.enter (rows.map fun row => (t, row))).2 := by
  induction rows generalizing s l with
  | nil => exact ⟨h, rfl⟩
  | cons row rest ih =>
    obtain ⟨hkey, hrest⟩ := List.forall_mem_cons.mp hkeys
    have hinsert := h.insert hkey
    by_cases htaken : l.taken t row = true
    · rw [if_pos htaken] at hinsert
      simpa [MemoryStore.insertAll, hinsert, Ledger.enter, htaken] using h
    · rw [if_neg htaken] at hinsert
      simpa [MemoryStore.insertAll, hinsert, Ledger.enter, htaken] using ih (h.append t row) hrest

theorem run_insert (s : MemoryStore) (t : Table) (row : Document) :
    (access.insert t row).run s = match s.insert t row with
      | .ok s' => (.ok row, s')
      | .error f => (.error f, s) :=
  rfl

theorem perform_insert (s : MemoryStore) (t : Table) (row : Document) :
    ((Command.insert t row).perform access).run s =
      (((access.insert t row).run s).1.map fun _ => (), ((access.insert t row).run s).2) :=
  rfl

theorem perform_insertAll (s : MemoryStore) (t : Table) (rows : List Document) :
    ((Command.insertAll t rows).perform access).run s =
      (((s.insertAll t rows).2.map fun _ => rows).map fun _ => (), (s.insertAll t rows).1) :=
  rfl

theorem Mirrors.perform (h : s.Mirrors l) (hc : c.Suits models) :
    ((c.perform access).run s).2.Mirrors (l.enter c.offers).1 ∧
      ((c.perform access).run s).1 = (l.enter c.offers).2 := by
  cases c with
  | setup ts => exact ⟨h, rfl⟩
  | insert t row =>
    have hinsert : s.insert t row = _ := h.insert (hc (t, row) List.mem_cons_self).2
    rw [perform_insert, run_insert, hinsert]
    by_cases htaken : l.taken t row = true
    · simpa [Command.offers, Ledger.enter, htaken] using h
    · simpa [Command.offers, Ledger.enter, htaken] using h.append t row
  | insertAll t rows =>
    have hkeys : ∀ row ∈ rows, (t.keyOf row).all isKeyValue = true :=
      fun row hrow => (hc (t, row) (List.mem_map_of_mem hrow)).2
    obtain ⟨hmirrors, hanswer⟩ := h.insertAll hkeys
    rw [perform_insertAll]
    refine ⟨hmirrors, Eq.trans ?_ hanswer⟩
    cases (s.insertAll t rows).2 <;> rfl

theorem Mirrors.performAll (h : s.Mirrors l) (hcs : ∀ c ∈ cs, c.Suits models) :
    ((Command.performAll access cs).run s).2.Mirrors (l.after cs).1 ∧
      ((Command.performAll access cs).run s).1 = (l.after cs).2 := by
  induction cs generalizing s l with
  | nil => exact ⟨h, rfl⟩
  | cons c rest ih =>
    obtain ⟨hc, hrest⟩ := List.forall_mem_cons.mp hcs
    obtain ⟨hperform, hanswer⟩ := h.perform hc
    obtain ⟨hlast, hanswers⟩ := ih hperform hrest
    exact ⟨hlast, congrArg₂ List.cons hanswer hanswers⟩

theorem find_everything (s : MemoryStore) (t : Table) : s.find t .everything = .ok (s.rows t) :=
  rfl

/-- The store holds exactly the accepted rows, each under a key of its own. -/
structure Exact (models : List Table) (s : MemoryStore) (accepted : Ledger) : Prop where
  rows : ∀ t ∈ models, s.rows t = accepted.of t
  apart : ∀ t ∈ models,
    (s.rows t).Pairwise fun a b => Value.sameItems (t.keyOf a) (t.keyOf b) = false
  found : ∀ t ∈ models, s.find t .everything = .ok (s.rows t)
  counted : ∀ t ∈ models, s.count t none = .ok (accepted.of t).length

theorem Mirrors.exact (h : s.Mirrors l) (hl : l.Apart models) : s.Exact models l := by
  refine ⟨fun t _ => h t, fun t ht => ?_, fun t _ => s.find_everything t, fun t _ => ?_⟩
  · rw [h t]
    exact hl t ht
  · rw [← h t]
    rfl

theorem Mirrors.run_insert (h : s.Mirrors l) (hkey : (t.keyOf row).all isKeyValue = true) :
    (access.insert t row).run s =
      if l.taken t row then (.error (.duplicateKey (t.keyDocument row)), s)
      else (.ok row, s.append t row) := by
  rw [MemoryStore.run_insert, h.insert hkey]
  by_cases htaken : l.taken t row = true
  · rw [if_pos htaken, if_pos htaken]
  · rw [if_neg htaken, if_neg htaken]

theorem Mirrors.taken_iff (h : s.Mirrors l) : l.taken t row = true ↔
    ∃ r ∈ s.rows t, Value.sameItems (t.keyOf r) (t.keyOf row) = true := by
  rw [h t]
  exact List.any_eq_true

/-- What was accepted stays, and more comes only after it. -/
theorem Mirrors.rows_performAll (h : s.Mirrors l) (hcs : ∀ c ∈ cs, c.Suits models) (t : Table) :
    s.rows t <+: ((Command.performAll access cs).run s).2.rows t ∧
      ((∀ c ∈ cs, ∀ e ∈ c.offers, e.1.name ≠ t.name) →
        ((Command.performAll access cs).run s).2.rows t = s.rows t) := by
  obtain ⟨added, hadded, hoffered⟩ := l.after_fst cs
  have hlast : ((Command.performAll access cs).run s).2.rows t = s.rows t ++ Ledger.of added t := by
    rw [(h.performAll hcs).1 t, hadded, Ledger.of_append, h t]
  refine ⟨⟨Ledger.of added t, hlast.symm⟩, fun hothers => ?_⟩
  have hnone : Ledger.of added t = [] := by
    rw [Ledger.of, List.map_eq_nil_iff, List.filter_eq_nil_iff]
    intro e he
    obtain ⟨c, hc, hoffer⟩ := hoffered e he
    simpa using hothers c hc e hoffer
  rw [hlast, hnone, List.append_nil]

/-- After any run a table lists the rows that were accepted. A row is refused when its key is taken,
which changes nothing, and nothing that comes later changes what is there. -/
theorem performAll_exact (hnames : ∀ t ∈ models, ∀ u ∈ models, t.name = u.name → t = u)
    (hcs : ∀ c ∈ earlier ++ later, c.Suits models) :
    let run := (Command.performAll access earlier).run empty
    let ledger := Ledger.after [] earlier
    run.1 = ledger.2 ∧ run.2.Exact models ledger.1 ∧
      (∀ t ∈ models, ∀ row, (t.keyOf row).all isKeyValue = true →
        (access.insert t row).run run.2 = (.error (.duplicateKey (t.keyDocument row)), run.2) ∧
            (∃ r ∈ run.2.rows t, Value.sameItems (t.keyOf r) (t.keyOf row) = true) ∨
          (access.insert t row).run run.2 = (.ok row, run.2.append t row) ∧
            ∀ r ∈ run.2.rows t, Value.sameItems (t.keyOf r) (t.keyOf row) = false) ∧
      ∀ t ∈ models, let last := ((Command.performAll access later).run run.2).2
        run.2.rows t <+: last.rows t ∧
          ((∀ c ∈ later, ∀ e ∈ c.offers, e.1.name ≠ t.name) → last.rows t = run.2.rows t) := by
  intro run ledger
  obtain ⟨hearlier, hlater⟩ := List.forall_mem_append.mp hcs
  have hempty : empty.Mirrors [] := fun t => rfl
  have hnone : Ledger.Apart models [] := fun t _ => .nil
  obtain ⟨hmirrors, hanswers⟩ := hempty.performAll hearlier
  refine ⟨hanswers, hmirrors.exact (hnone.after hnames hearlier), fun t _ row hkey => ?_,
    fun t _ => hmirrors.rows_performAll hlater t⟩
  have hrun := hmirrors.run_insert hkey
  by_cases htaken : ledger.1.taken t row = true
  · rw [if_pos htaken] at hrun
    exact .inl ⟨hrun, hmirrors.taken_iff.mp htaken⟩
  · rw [if_neg htaken] at hrun
    refine .inr ⟨hrun, fun r hr => ?_⟩
    rw [← Bool.not_eq_true]
    exact fun hsame => htaken (hmirrors.taken_iff.mpr ⟨r, hr, hsame⟩)

/-- Persons and pairs, a number that is taken by a truth value, and a batch that stops half-way. -/
def mixedRun : List Command :=
  [.setup [.people, .pairs], .insert .people [("id", .int 1)],
    .insert .pairs [("a", .int 1), ("b", .text "x")],
    .insertAll .people [[("id", .int 2)], [("id", .bool true)], [("id", .int 3)]],
    .setup [.people], .insert .pairs [("a", .int 1), ("b", .text "y")]]

theorem performAll_mixedRun :
    let run := (Command.performAll access mixedRun).run empty
    run.1 = [.ok (), .ok (), .ok (), .error (.duplicateKey [("id", .bool true)]), .ok (), .ok ()] ∧
      run.2.rows .people = [[("id", .int 1)], [("id", .int 2)]] ∧
      run.2.Exact Table.all (Ledger.after [] mixedRun).1 ∧
      run.2.rows .people <+:
        ((Command.performAll access [.insert .people [("id", .int 3)]]).run run.2).2.rows
          .people := by
  have hcs : ∀ c ∈ mixedRun ++ [.insert .people [("id", .int 3)]], c.Suits Table.all := by
    have hkeys : ∀ c ∈ mixedRun ++ [.insert .people [("id", .int 3)]], ∀ e ∈ c.offers,
        (e.1.keyOf e.2).all isKeyValue = true := by
      decide +kernel
    have htables : ∀ u ∈ [Table.people, .pairs, .people, .people, .people, .pairs, .people],
        u ∈ Table.all := by
      simp [Table.all]
    intro c hc e he
    exact ⟨htables _ (List.mem_map_of_mem (List.mem_flatMap.mpr ⟨c, hc, he⟩)), hkeys c hc e he⟩
  obtain ⟨-, hexact, -, hlater⟩ :=
    performAll_exact (fun t ht u hu => SqlStore.eq_of_name_eq ht hu) hcs
  exact ⟨rfl, rfl, hexact, (hlater .people (by simp [Table.all])).1⟩

end MemoryStore

end DocGrid

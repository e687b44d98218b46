import DocGrid.Proofs.Order.SpecPairs
import DocGrid.Proofs.Query.Pages
import DocGrid.Proofs.Query.SortedReads

/-! Requests to sort. The rows come back in the order of the fields at their first places, each in
the direction of its last flag, which is the order of all the pairs where no field changes its
direction. -/

namespace DocGrid

namespace SortSpec

variable {spec pairs : SortSpec} {rows sorted : List Document} {a b : Document} {field : String}

theorem ties_iff_fields : Ties spec a b ↔ ∀ field ∈ spec.fields,
    SortKey.compare? (keyOf field a) (keyOf field b) = some .eq := by
  rw [Ties, fields, List.forall_mem_map]

theorem mem_fields_latest : field ∈ pairs.latest.fields ↔ field ∈ pairs.fields := by
  simp

@[simp] theorem ties_latest : Ties pairs.latest a b ↔ Ties pairs a b := by
  simp [ties_iff_fields]

theorem latest_eq_nil_iff : pairs.latest = [] ↔ pairs = [] := by
  refine ⟨fun h => ?_, fun h => by rw [h]; rfl⟩
  have hfields (field : String) : field ∉ pairs.fields := by
    rw [← mem_fields_latest, h]
    exact List.not_mem_nil
  exact List.map_eq_nil_iff.mp (List.eq_nil_iff_forall_not_mem.mpr hfields)

/-- No field has another direction at its last place than at its first. -/
def KeepsDirections (pairs : SortSpec) : Prop :=
  ∀ e ∈ pairs, pairs.lookup e.1 = pairs.reverse.lookup e.1

instance (pairs : SortSpec) : Decidable pairs.KeepsDirections :=
  inferInstanceAs (Decidable (∀ e ∈ pairs, _))

/-- The pairs up to the first one of a field, as they stand in the order. -/
theorem latest_of_append {before after : SortSpec} {e : String × Direction}
    (hspec : pairs = before ++ e :: after) (hnew : e.1 ∉ before.fields)
    (hkeeps : pairs.KeepsDirections) :
    ∃ earlier later : SortSpec, pairs.latest = earlier ++ e :: later ∧
      ∀ field ∈ earlier.fields, field ∈ before.fields := by
  have hfields : pairs.fields = before.fields ++ e.1 :: after.fields := by
    rw [hspec]
    exact List.map_append
  have hdirection : pairs.lastDirection e.1 = e.2 := by
    have hfirst : pairs.lookup e.1 = some e.2 := by
      refine List.lookup_eq_some_iff.mpr ⟨before, after, hspec, fun p hp => ?_⟩
      exact bne_iff_ne.mpr (ne_of_mem_of_not_mem (List.mem_map_of_mem hp) hnew).symm
    rw [lastDirection, ← hkeeps e (by simp [hspec]), hfirst]
    rfl
  have hkept : ((e.1 :: after.fields).removeAll before.fields).eraseDups =
      e.1 :: ((after.fields.removeAll before.fields).filter fun f => !f == e.1).eraseDups := by
    rw [List.removeAll, List.filter_cons_of_pos (by simpa using hnew), List.eraseDups_cons]
    rfl
  refine ⟨before.fields.eraseDups.map fun field => (field, pairs.lastDirection field),
    ((after.fields.removeAll before.fields).filter fun f => !f == e.1).eraseDups.map
      fun field => (field, pairs.lastDirection field), ?_, fun field hfield => ?_⟩
  · rw [latest, hfields, List.eraseDups_append, hkept, List.map_append, List.map_cons, hdirection]
  · rw [fields_map] at hfield
    exact List.mem_eraseDups.mp hfield

theorem sorts_of_latest (hkeeps : pairs.KeepsDirections) (h : pairs.latest.Sorts rows sorted) :
    pairs.Sorts rows sorted := by
  refine ⟨h.perm, h.decides.imp fun hdecides before e after hspec hties hdiffers => ?_, ?_⟩
  · rw [ties_iff_fields] at hties
    -- A field that was named before would not tell the rows apart.
    have hnew : e.1 ∉ before.fields := fun hmem => hdiffers (by simpa [Ties] using hties _ hmem)
    obtain ⟨earlier, later, hlatest, hearlier⟩ := latest_of_append hspec hnew hkeeps
    exact hdecides earlier e later hlatest
      (ties_iff_fields.mpr fun field hfield => hties field (hearlier field hfield)) hdiffers
  · intro row hrow
    simpa only [ties_latest] using h.stable row hrow

theorem exists_of_mem_latest {e : String × Direction} (h : e ∈ pairs.latest) :
    ∃ d ∈ pairs, d.1 = e.1 :=
  List.mem_map.mp (mem_fields_latest.mp (List.mem_map_of_mem h))

theorem plain_latest (hplain : ∀ e ∈ pairs, e.1.toList.head? ≠ some '-') :
    ∀ e ∈ pairs.latest, e.1.toList.head? ≠ some '-' := by
  intro e he
  obtain ⟨d, hd, hde⟩ := exists_of_mem_latest he
  rw [← hde]
  exact hplain d hd

/-- The entries of an order have no keys but those of the pairs that it is made of. -/
theorem forall_keyAt_latest (hplain : ∀ e ∈ pairs, e.1.toList.head? ≠ some '-')
    {P : (Document → SortKey) → Prop} (h : ∀ e ∈ pairs, P (keyOf e.1)) :
    ∀ entry ∈ pairs.latest.orderBy, P (MemoryStore.keyAt entry) := by
  refine List.forall_mem_map.mpr fun e he => ?_
  obtain ⟨d, hd, hde⟩ := exists_of_mem_latest he
  rw [keyAt_entryText (plain_latest hplain) he, ← hde]
  exact h d hd

theorem plain_requested {names : List String} (words : List String)
    (hplain : ∀ name ∈ names, (Text.stripped name).toList.head? ≠ some '-') :
    ∀ e ∈ requested names words, e.1.toList.head? ≠ some '-' := by
  intro e he
  obtain ⟨⟨name, i⟩, hname, rfl⟩ := List.mem_map.mp (List.mem_of_mem_filter he)
  exact hplain name (List.fst_mem_of_mem_zipIdx hname)

end SortSpec

namespace Query

theorem apply_sort_of_spec {q : Query} (config : TableConfig) {fields flags : Value}
    {spec : SortSpec} (h : SortSpec.ofValues fields flags = .ok spec)
    (horder : q.orderBy = [] ∨ spec ≠ []) :
    q.apply config (.sort fields flags) = .ok { q with orderBy := spec.orderBy } := by
  rw [apply, change?, h]
  cases spec with
  | nil =>
    have hnone : q.orderBy = [] := horder.resolve_right (fun hne => hne rfl)
    simp [SortSpec.orderBy, ← hnone]
  | cons e rest => rfl

end Query

namespace MemoryStore

open SortSpec

variable {s : MemoryStore} {t : Table} {rows sorted : List Document}

theorem run_rows {q : Query} (hrows : s.matching t q.conditions = .ok rows)
    (hsorted : ordered rows q.orderBy = .ok sorted) :
    (access.toReader.rows t q).run s = (.ok (q.window.of sorted), s) := by
  change (s.find t ⟨q.conditions, q.orderBy, q.window.offset, q.window.limit⟩, s) = _
  rw [find_window, hrows]
  simp [hsorted]

theorem rows_sorts_latest (s : MemoryStore) (t : Table) (config : TableConfig) {q : Query}
    {fields flags : Value} {names words : List String} {rows : List Document}
    (hfields : fields.pieces = .ok names) (hflags : flags.pieces = .ok words)
    (hplain : ∀ name ∈ names, (Text.stripped name).toList.head? ≠ some '-')
    (hrows : s.matching t q.conditions = .ok rows)
    (horder : q.orderBy = [] ∨ requested names words ≠ [])
    (hcomparable : ∀ e ∈ requested names words, ∀ a ∈ rows, ∀ b ∈ rows,
      (SortKey.compare? (keyOf e.1 a) (keyOf e.1 b)).isSome) :
    ∃ query sorted, q.apply config (.sort fields flags) = .ok query ∧
      (access.toReader.rows t query).run s = (.ok (q.window.of sorted), s) ∧
      sorted.Perm rows ∧
      ((∀ e ∈ requested names words, ∀ row ∈ rows, SortKey.Proper (keyOf e.1 row).numbers) →
        (requested names words).latest.Sorts rows sorted ∧
        ((requested names words).KeepsDirections →
          (requested names words).Sorts rows sorted)) := by
  have hspec := ofValues_eq hfields hflags
  have horder' := horder.imp_right latest_eq_nil_iff.not.mpr
  have hpairs := plain_requested words hplain
  generalize requested names words = pairs at hspec horder' hpairs hcomparable ⊢
  obtain ⟨sorted, hsorted⟩ := ordered_isOk (forall_keyAt_latest hpairs
    (P := fun key => ∀ a ∈ rows, ∀ b ∈ rows, (SortKey.compare? (key a) (key b)).isSome) hcomparable)
  refine ⟨_, sorted, Query.apply_sort_of_spec config hspec horder', run_rows hrows hsorted,
    ordered_perm hsorted, fun hproper => ?_⟩
  have hlatest : pairs.latest.Sorts rows sorted :=
    sorts_of_isStableSort (plain_latest hpairs)
      (isStableSort_ordered hsorted (forall_keyAt_latest hpairs
        (P := fun key => ∀ row ∈ rows, SortKey.Proper (key row).numbers) hproper))
  exact ⟨hlatest, fun hkeeps => sorts_of_latest hkeeps hlatest⟩

def threePeople : List Document :=
  [[("id", .int 1), ("name", .text "a"), ("age", .int 2)],
    [("id", .int 2), ("name", .text "b"), ("age", .int 1)],
    [("id", .int 3), ("name", .text "c"), ("age", .int 1)]]

theorem rows_sorts_latest_threePeople :
    let s : MemoryStore := ⟨[("people", threePeople)]⟩
    let pairs : SortSpec := [("age", .ascending), ("name", .descending), ("age", .ascending)]
    requested [" age", "", " name ", "age"] ["False", "True", "True", "False"] = pairs ∧
      ∃ query sorted, Query.start.apply ⟨10⟩ (.sort (.text " age,, name ,age")
          (.list [.bool false, .bool true, .bool true, .bool false])) = .ok query ∧
        (access.toReader.rows Table.people query).run s = (.ok sorted, s) ∧
        pairs.Sorts threePeople sorted := by
  intro s pairs
  have hpairs : requested [" age", "", " name ", "age"] ["False", "True", "True", "False"] =
      pairs := by decide
  have hfields : (Value.text " age,, name ,age").pieces = .ok [" age", "", " name ", "age"] := rfl
  have hflags : (Value.list [.bool false, .bool true, .bool true, .bool false]).pieces =
      .ok ["False", "True", "True", "False"] := rfl
  obtain ⟨query, sorted, happly, hrun, -, hsorts⟩ := rows_sorts_latest s Table.people ⟨10⟩
    (q := .start) hfields hflags (by decide) rfl (.inl rfl) (by rw [hpairs]; decide)
  refine ⟨hpairs, query, sorted, happly, hrun, ?_⟩
  rw [hpairs] at hsorts
  exact (hsorts (by decide)).2 (by decide)

/-- The second flag of a field that is named twice turns its first place around. -/
theorem not_rows_sort_requested : ¬ ∀ (s : MemoryStore) (t : Table) (config : TableConfig)
    (fields flags : Value) (names words : List String), fields.pieces = .ok names →
    flags.pieces = .ok words → (∀ name ∈ names, (Text.stripped name).toList.head? ≠ some '-') →
    (∀ e ∈ requested names words, ∀ a ∈ s.rows t, ∀ b ∈ s.rows t,
      (SortKey.compare? (keyOf e.1 a) (keyOf e.1 b)).isSome) →
    ∃ query sorted, Query.start.apply config (.sort fields flags) = .ok query ∧
      (access.toReader.rows t query).run s = (.ok sorted, s) ∧
      (requested names words).Sorts (s.rows t) sorted := by
  intro hall
  obtain ⟨query, sorted, happly, hrun, hsorts⟩ := hall ⟨[("people", threePeople)]⟩ Table.people
    ⟨10⟩ (.text "age,age") (.text "false,true") ["age", "age"] ["false", "true"] rfl rfl
    (by decide) (by decide)
  obtain rfl := Except.ok.inj happly
  have hpass : sortByKey? (keyAt "-age") ((readEntry "-age").2 == .descending) threePeople =
      some threePeople := by
    rw [sortByKey?_of_comparable (by decide), List.mergeSort_of_pairwise (by decide)]
  have hsorted : ordered threePeople ["-age"] = .ok threePeople := ordered_of_sortByKey? rfl hpass
  obtain rfl : sorted = threePeople :=
    (Except.ok.inj (congrArg Prod.fst ((run_rows rfl hsorted).symm.trans hrun))).symm
  have hputs := (List.pairwise_cons.mp hsorts.decides).1 _ List.mem_cons_self [] ("age", .ascending)
    [("age", .descending)] (by decide) (by decide) (by decide)
  have hnot : SortKey.compare? (.number (.int 2)) (.number (.int 1)) ≠ some .lt := by decide
  exact hnot hputs

end MemoryStore

end DocGrid

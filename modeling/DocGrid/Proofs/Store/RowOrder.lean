import DocGrid.Proofs.Order.StableSort
import DocGrid.Proofs.Results
import DocGrid.Store.Memory

/-! The order of the rows that are read from memory. Rows are sorted stably by all entries of the
order together, the first entry deciding before the others. -/

namespace DocGrid

/-- The mark is taken off again, also before a field that starts with one. -/
theorem readEntry_descending (path : String) :
    SortSpec.readEntry (SortSpec.entryText (path, .descending)) = (path, .descending) := by
  have hchars : ("-" ++ path).toList = '-' :: path.toList := by simp
  simp only [SortSpec.entryText, SortSpec.readEntry, hchars, String.ofList_toList]

theorem readEntry_entryText {path : String} (h : path.toList.head? ≠ some '-')
    (direction : Direction) :
    SortSpec.readEntry (SortSpec.entryText (path, direction)) = (path, direction) := by
  cases direction with
  | ascending =>
    unfold SortSpec.entryText SortSpec.readEntry
    split
    · next heq => simp [heq] at h
    · rfl
  | descending => exact readEntry_descending path

namespace MemoryStore

def keyAt (entry : String) (row : Document) : SortKey :=
  ((row.resolve (SortSpec.readEntry entry).1).getD .null).sortKey

/-- How two rows stand to each other in an order. -/
def orderVerdict : List String → Document → Document → Verdict
  | [], _, _ => some .eq
  | entry :: rest, a, b =>
    (keyVerdict (keyAt entry) ((SortSpec.readEntry entry).2 == .descending) a b).next
      (orderVerdict rest a b)

variable {entry : String} {rest order : List String} {rows sorted : List Document}

theorem orderVerdict_swap (order : List String) (a b : Document) :
    orderVerdict order b a = (orderVerdict order a b).map Ordering.swap := by
  induction order with
  | nil => rfl
  | cons entry rest ih =>
    rw [orderVerdict, orderVerdict, Verdict.map_swap_next, keyVerdict_swap a b, ih]

theorem orderVerdict_chains {a b c : Document}
    (h : ∀ entry ∈ order, ∀ row ∈ [a, b, c], SortKey.Proper (keyAt entry row).numbers) :
    Verdict.Chains (orderVerdict order a b) (orderVerdict order b c) (orderVerdict order a c) := by
  induction order with
  | nil => exact ⟨fun _ => rfl, fun hlt => absurd hlt (by simp [orderVerdict])⟩
  | cons entry rest ih =>
    obtain ⟨hfirst, hrest⟩ := List.forall_mem_cons.mp h
    simp only [List.forall_mem_cons] at hfirst
    obtain ⟨ha, hb, hc, -⟩ := hfirst
    exact (keyVerdict_chains ha hb hc).next fun _ _ => ih hrest

theorem orderVerdict_isSome {a b : Document}
    (h : ∀ entry ∈ order, (SortKey.compare? (keyAt entry a) (keyAt entry b)).isSome) :
    (orderVerdict order a b).isSome := by
  induction order with
  | nil => rfl
  | cons entry rest ih =>
    obtain ⟨hfirst, hrest⟩ := List.forall_mem_cons.mp h
    refine Verdict.isSome_next ?_ (ih hrest)
    unfold keyVerdict
    split
    · rwa [SortKey.compare?_swap (keyAt entry a), Option.isSome_map]
    · exact hfirst

/-- Rows that an order does not tell apart agree in all of its keys. -/
theorem orderVerdict_eq_iff {a b : Document} : orderVerdict order a b = some .eq ↔
    ∀ entry ∈ order, SortKey.compare? (keyAt entry a) (keyAt entry b) = some .eq := by
  induction order with
  | nil => simp [orderVerdict]
  | cons entry rest ih =>
    rw [orderVerdict, Verdict.next_eq_iff, keyVerdict_eq_iff, ih, List.forall_mem_cons]

theorem ordered_cons (h : ordered rows (entry :: rest) = .ok sorted) :
    ∃ tied, ordered rows rest = .ok tied ∧
      sortByKey? (keyAt entry) ((SortSpec.readEntry entry).2 == .descending) tied =
        some sorted := by
  rw [ordered] at h
  obtain ⟨tied, htied, h⟩ := Result.ok_of_bind h
  refine ⟨tied, htied, ?_⟩
  dsimp only at h
  split at h
  · next hsort => exact hsort.trans (congrArg some (Except.ok.inj h))
  · cases h

theorem ordered_of_sortByKey? {tied : List Document} (htied : ordered rows rest = .ok tied)
    (hsort : sortByKey? (keyAt entry) ((SortSpec.readEntry entry).2 == .descending) tied =
      some sorted) : ordered rows (entry :: rest) = .ok sorted := by
  rw [ordered, htied]
  dsimp
  split
  · next found hfound =>
    exact congrArg Except.ok (Option.some.inj (hfound.symm.trans hsort))
  · next hnone => cases hnone.symm.trans hsort

theorem ordered_perm (h : ordered rows order = .ok sorted) : sorted.Perm rows := by
  induction order generalizing sorted with
  | nil =>
    obtain rfl := Except.ok.inj h
    exact .refl rows
  | cons entry rest ih =>
    obtain ⟨tied, htied, hsort⟩ := ordered_cons h
    exact (perm_sortByKey? hsort).trans (ih htied)

theorem ordered_isOk (h : ∀ entry ∈ order, ∀ a ∈ rows, ∀ b ∈ rows,
    (SortKey.compare? (keyAt entry a) (keyAt entry b)).isSome) :
    ∃ sorted, ordered rows order = .ok sorted := by
  induction order with
  | nil => exact ⟨rows, rfl⟩
  | cons entry rest ih =>
    obtain ⟨hfirst, hrest⟩ := List.forall_mem_cons.mp h
    obtain ⟨tied, htied⟩ := ih hrest
    have hperm := ordered_perm htied
    exact ⟨_, ordered_of_sortByKey? htied (sortByKey?_of_comparable fun a ha b hb =>
      hfirst a (hperm.mem_iff.mp ha) b (hperm.mem_iff.mp hb))⟩

theorem ordered_isOk_iff : (∃ sorted, ordered rows order = .ok sorted) ↔
    ∀ entry ∈ order, ∀ a ∈ rows, ∀ b ∈ rows,
      (SortKey.compare? (keyAt entry a) (keyAt entry b)).isSome := by
  refine ⟨fun h => ?_, ordered_isOk⟩
  induction order with
  | nil => simp
  | cons entry rest ih =>
    obtain ⟨sorted, h⟩ := h
    obtain ⟨tied, htied, hsort⟩ := ordered_cons h
    have hperm := ordered_perm htied
    refine List.forall_mem_cons.mpr ⟨fun a ha b hb => ?_, ih ⟨tied, htied⟩⟩
    exact comparable_of_sortByKey? hsort a (hperm.mem_iff.mpr ha) b (hperm.mem_iff.mpr hb)

theorem eq_wrongKind_of_ordered {e : Failure} (h : ordered rows order = .error e) :
    e = .wrongKind := by
  induction order with
  | nil => cases h
  | cons entry rest ih =>
    rw [ordered] at h
    rcases Result.error_of_bind h with h | ⟨tied, -, h⟩
    · exact ih h
    · dsimp only at h
      split at h
      · cases h
      · exact (Except.error.inj h).symm

theorem isStableSort_ordered (h : ordered rows order = .ok sorted)
    (hp : ∀ entry ∈ order, ∀ row ∈ rows, SortKey.Proper (keyAt entry row).numbers) :
    IsStableSort (orderVerdict order) rows sorted := by
  induction order generalizing sorted with
  | nil =>
    obtain rfl := Except.ok.inj h
    exact .refl rows
  | cons entry rest ih =>
    obtain ⟨hfirst, hrest⟩ := List.forall_mem_cons.mp hp
    obtain ⟨tied, htied, hsort⟩ := ordered_cons h
    have htied' := ih htied hrest
    have hsort' := isStableSort_sortByKey? hsort fun row hrow =>
      hfirst row (htied'.perm.mem_iff.mp hrow)
    exact htied'.next hsort' fun row _ => keyVerdict_eq_iff.mpr (SortKey.compare?_self _)

end MemoryStore

end DocGrid

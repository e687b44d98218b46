import DocGrid.Proofs.Order.SpecPairs
import DocGrid.Proofs.Query.SortedReads
import DocGrid.Store.Remote.Service
import DocGrid.Store.Sql.Database

/-! What stores read off the entries of an order. All of them read the same pairs, which are the
pairs of the order unless an ascending field starts with the mark of the descending ones. -/

namespace DocGrid

namespace MemoryStore

/-- Sorts by pairs, by the last one first. -/
def sortedBy (rows : List Document) : SortSpec → Result (List Document)
  | [] => .ok rows
  | (path, direction) :: rest => do
    let rows ← sortedBy rows rest
    match sortByKey? (SortSpec.keyOf path) (direction == .descending) rows with
    | some sorted => return sorted
    | none => throw .wrongKind

theorem ordered_eq_sortedBy (rows : List Document) (order : List String) :
    ordered rows order = sortedBy rows (order.map SortSpec.readEntry) := by
  induction order with
  | nil => rfl
  | cons entry rest ih =>
    rw [ordered, ih, List.map_cons, sortedBy]
    rfl

end MemoryStore

namespace SqlStore

def columnsBy (t : Table) (spec : SortSpec) : Result (List (Column × Direction)) :=
  spec.mapM fun (name, direction) =>
    match t.column? name with
    | some c => .ok (c, direction)
    | none => .error (.unknownOrder name t.title)

theorem orderOf_eq_columnsBy (t : Table) (order : List String) :
    orderOf t order = columnsBy t (order.map SortSpec.readEntry) := by
  rw [columnsBy, List.mapM_map]
  rfl

end SqlStore

theorem Direction.sign_injective : Function.Injective Direction.sign := by
  intro direction another h
  cases direction <;> cases another <;> simp_all [Direction.sign]

namespace RemoteStore

/-- The mapping of the fields of an order to the signs of their directions. -/
def sortDocument (spec : SortSpec) : Value :=
  if spec = [] then .null else .mapping (spec.map fun e => (e.1, .int e.2.sign))

theorem sortBody_eq_sortDocument (order : List String) :
    sortBody order = sortDocument (SortSpec.latest (order.map SortSpec.readEntry)) := by
  have hspec : SortSpec.ofOrderBy order = SortSpec.latest (order.map SortSpec.readEntry) := by
    rw [← SortSpec.putAll_nil, SortSpec.putAll, List.foldl_map, SortSpec.ofOrderBy]
  simp only [sortBody, sortDocument, hspec, List.isEmpty_iff]

theorem sortDocument_injective : Function.Injective sortDocument := by
  have hsign : Function.Injective fun e : String × Direction => (e.1, Value.int e.2.sign) := by
    rintro ⟨field, direction⟩ ⟨other, another⟩ h
    obtain ⟨rfl, hvalue⟩ := Prod.mk.inj h
    exact congrArg (field, ·) (Direction.sign_injective (Number.int.inj (Value.number.inj hvalue)))
  intro spec other h
  unfold sortDocument at h
  split at h <;> split at h
  · next hspec hother => rw [hspec, hother]
  · cases h
  · cases h
  · exact (List.map_injective_iff.mpr hsign) (Value.mapping.inj h)

end RemoteStore

namespace SortSpec

/-- What is read off the entry of a pair. The front of an ascending field may be taken for a mark. -/
def readBack : String × Direction → String × Direction
  | (field, .ascending) => readEntry field
  | (field, .descending) => (field, .descending)

/-- No ascending field starts with the mark of the descending ones. -/
def Legible (spec : SortSpec) : Prop :=
  ∀ e ∈ spec, e.2 = .ascending → e.1.toList.head? ≠ some '-'

instance (spec : SortSpec) : Decidable spec.Legible :=
  inferInstanceAs (Decidable (∀ e ∈ spec, _))

variable {spec : SortSpec}

theorem map_readEntry_orderBy (spec : SortSpec) :
    spec.orderBy.map readEntry = spec.map readBack := by
  rw [orderBy, List.map_map]
  refine List.map_congr_left fun e _ => ?_
  obtain ⟨field, direction⟩ := e
  cases direction with
  | ascending => rfl
  | descending => exact readEntry_descending field

theorem readBack_eq_iff {e : String × Direction} :
    readBack e = e ↔ (e.2 = .ascending → e.1.toList.head? ≠ some '-') := by
  obtain ⟨field, direction⟩ := e
  cases direction with
  | ascending =>
    refine ⟨fun h _ hmark => ?_, fun h => readEntry_entryText (h rfl) .ascending⟩
    obtain ⟨rest, hchars⟩ := List.head?_eq_some_iff.mp hmark
    have hread : readBack (field, .ascending) = (String.ofList rest, .descending) := by
      simp only [readBack, readEntry, hchars]
    cases (congrArg Prod.snd hread).symm.trans (congrArg Prod.snd h)
  | descending => simp [readBack]

theorem map_readBack_eq_iff : spec.map readBack = spec ↔ spec.Legible := by
  conv_lhs => rhs; rw [← List.map_id spec]
  rw [List.map_inj_left]
  exact forall₂_congr fun e _ => readBack_eq_iff

/-- A mapping loses nothing but where a pair is read as another one. -/
theorem latest_readBack_eq_iff (hfields : spec.fields.Nodup) :
    latest (spec.map readBack) = spec ↔ spec.Legible := by
  rw [← map_readBack_eq_iff]
  refine ⟨fun h => eq_of_latest_eq h (List.length_map _), fun h => ?_⟩
  rw [h, latest_of_nodup hfields]

theorem orderBy_read {fields flags : Value} {names words : List String}
    (hfields : fields.pieces = .ok names) (hflags : flags.pieces = .ok words) :
    ∃ spec, ofValues fields flags = .ok spec ∧
      spec.orderBy.map readEntry = spec.map readBack ∧
      (∀ rows, MemoryStore.ordered rows spec.orderBy =
        MemoryStore.sortedBy rows (spec.map readBack)) ∧
      (∀ t, SqlStore.orderOf t spec.orderBy = SqlStore.columnsBy t (spec.map readBack)) ∧
      RemoteStore.sortBody spec.orderBy = RemoteStore.sortDocument (latest (spec.map readBack)) ∧
      (spec.orderBy.map readEntry = spec ↔ spec.Legible) ∧
      (RemoteStore.sortBody spec.orderBy = RemoteStore.sortDocument spec ↔ spec.Legible) := by
  have hnodup : (requested names words).latest.fields.Nodup := nodup_fields_latest _
  refine ⟨_, ofValues_eq hfields hflags, ?_⟩
  generalize (requested names words).latest = spec at hnodup ⊢
  have hread := map_readEntry_orderBy spec
  have hbody : RemoteStore.sortBody spec.orderBy =
      RemoteStore.sortDocument (latest (spec.map readBack)) := by
    rw [RemoteStore.sortBody_eq_sortDocument, hread]
  refine ⟨hread, fun rows => ?_, fun t => ?_, hbody, ?_, ?_⟩
  · rw [MemoryStore.ordered_eq_sortedBy, hread]
  · rw [SqlStore.orderOf_eq_columnsBy, hread]
  · rw [hread, map_readBack_eq_iff]
  · rw [hbody, RemoteStore.sortDocument_injective.eq_iff, latest_readBack_eq_iff hnodup]

theorem orderBy_read_nameAge :
    let spec : SortSpec := [("name", .ascending), ("-age", .descending)]
    ofValues (.text "name,-age") (.text "false,true") = .ok spec ∧
      spec.orderBy = ["name", "--age"] ∧ spec.orderBy.map readEntry = spec ∧
      RemoteStore.sortBody spec.orderBy = .mapping [("name", .int 1), ("-age", .int (-1))] := by
  intro spec
  have hfields : (Value.text "name,-age").pieces = .ok ["name", "-age"] := rfl
  have hflags : (Value.text "false,true").pieces = .ok ["false", "true"] := rfl
  obtain ⟨found, hfound, -, -, -, -, hread, hbody⟩ := orderBy_read hfields hflags
  obtain rfl : spec = found := Except.ok.inj hfound
  exact ⟨hfound, by decide, hread.mpr (by decide), hbody.mpr (by decide)⟩

/-- A field after a hyphen is taken for a descending field. -/
theorem not_orderBy_read : ¬ ∀ (fields flags : Value) (spec : SortSpec),
    ofValues fields flags = .ok spec → spec.orderBy.map readEntry = spec ∧
      RemoteStore.sortBody spec.orderBy = RemoteStore.sortDocument spec := by
  intro hall
  have hread := (hall (.text "-age") (.text "") [("-age", .ascending)] rfl).1
  exact absurd hread (by decide)

end SortSpec

end DocGrid

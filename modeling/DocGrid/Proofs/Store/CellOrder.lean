import DocGrid.Proofs.Order.Keys
import DocGrid.Proofs.Store.TypedRows
import DocGrid.Proofs.Time.Order

/-! The order of the cells of a column. Null comes first, and the other cells are in the order of
their values. -/

namespace DocGrid

/-- Columns whose cells are no JSON texts. -/
def ColumnType.IsScalar (type : ColumnType) : Prop :=
  type ≠ .jsonList ∧ type ≠ .jsonMapping

theorem Cell.le_eq {c d : Cell} {p q : Quantity} (hc : c.quantity? = some p)
    (hd : d.quantity? = some q) : c.le d = (p.order q).isLE := by
  have hcompare := Cell.compare?_eq hc hd
  have hle : c.le d = (c.compare? d).any Ordering.isLE := by
    cases c <;> cases d <;> first | rfl | cases hc
  rw [hle, hcompare]
  rfl

@[simp] theorem Cell.le_texts (s u : String) : (Cell.text s).le (.text u) = (compare s u).isLE :=
  rfl

variable [Conversions]

namespace ColumnType

variable {type : ColumnType} {v w : Value}

/-- How two values stand to each other, and the cells that they are kept in. -/
def Ranks (type : ColumnType) (v w : Value) (o : Ordering) : Prop :=
  SortKey.compare? v.sortKey w.sortKey = some o ∧ (type.cellOf v).le (type.cellOf w) = o.isLE

theorem ranks_numbers {n m : Number} {p q : Quantity} (hn : n.quantity? = some p)
    (hm : m.quantity? = some q) (hc : (type.cellOf (.number n)).quantity? = some p)
    (hd : (type.cellOf (.number m)).quantity? = some q) :
    type.Ranks (.number n) (.number m) (p.order q) :=
  ⟨SortKey.within_numbers hn hm, Cell.le_eq hc hd⟩

theorem Fits.ranks (hv : type.Fits v) (hw : type.Fits w) (htype : type.IsScalar) :
    ∃ o, type.Ranks v w o := by
  have hnot : ¬(type = .jsonList ∨ type = .jsonMapping) := not_or.mpr htype
  -- A column takes values of one kind, so that the first value settles what the second one is.
  cases hv with
  | json hjson => exact absurd hjson hnot
  | int hn =>
    cases hw with
    | json hjson => exact absurd hjson hnot
    | int hm =>
      exact ⟨_, ranks_numbers rfl rfl (by rw [← Value.int, cellOf_int hn]; rfl)
        (by rw [← Value.int, cellOf_int hm]; rfl)⟩
  | float hx =>
    cases hw with
    | json hjson => exact absurd hjson hnot
    | float hy =>
      obtain ⟨p, hp⟩ := Quantity.ofBinary64_isSome hx
      obtain ⟨q, hq⟩ := Quantity.ofBinary64_isSome hy
      have hkept {x : Binary64} (hx : x.isNaN = false) :
          (ColumnType.float.cellOf (.float x)).quantity? = Quantity.ofBinary64 x :=
        (congrArg Cell.quantity? (cellOf_eq rfl (ofValue_float hx))).trans (quantity?_float x)
      exact ⟨_, ranks_numbers hp hq ((hkept hx).trans hp) ((hkept hy).trans hq)⟩
  | bool a =>
    cases hw with
    | json hjson => exact absurd hjson hnot
    | bool b =>
      refine ⟨compare a b, rfl, ?_⟩
      rw [cellOf_bool, cellOf_bool]
      cases a <;> cases b <;> decide
  | text s =>
    cases hw with
    | json hjson => exact absurd hjson hnot
    | text u => exact ⟨compare s u, rfl, Cell.le_texts s u⟩
  | plain s =>
    cases hw with
    | json hjson => exact absurd hjson hnot
    | plain u => exact ⟨compare s u, rfl, Cell.le_texts s u⟩
  | @datetime t ht =>
    cases hw with
    | json hjson => exact absurd hjson hnot
    | @datetime u hu =>
      refine ⟨compare t.instant u.instant, ?_, ?_⟩
      · have hkind : t.isAware = u.isAware := by
          rw [DateTime.isAware, DateTime.isAware, ht.offset, hu.offset]
        exact if_pos hkind
      · rw [cellOf_datetime, cellOf_datetime, Cell.le_texts, DateTime.compare_storedText ht hu]

/-- Null is less than any other value, and so is its cell. -/
theorem Fits.ranks_null (hw : type.Fits w) (htype : type.IsScalar) :
    type.Ranks .null w .lt ∧ type.Ranks w .null .gt := by
  have hcell := ColumnType.cellOf_null htype.1 htype.2
  have hsolid := hw.load.1
  have hkeys : SortKey.compare? .null w.sortKey = some .lt ∧
      SortKey.compare? w.sortKey .null = some .gt := by
    have hnot : ¬(type = .jsonList ∨ type = .jsonMapping) := not_or.mpr htype
    cases hw with
    | json hjson => exact absurd hjson hnot
    | _ => exact ⟨rfl, rfl⟩
  refine ⟨⟨hkeys.1, ?_⟩, ⟨hkeys.2, ?_⟩⟩
  · rw [hcell]
    rfl
  · rw [hcell]
    cases hcase : type.cellOf w with
    | null => exact absurd hcase hsolid
    | _ => rfl

end ColumnType

namespace Column

variable {c : Column} {v w : Value}

theorem Fits.ranks (hv : c.Fits v) (hw : c.Fits w) (htype : c.type.IsScalar) :
    ∃ o, c.type.Ranks v w o := by
  rcases hv.elim with hv | ⟨rfl, -⟩
  · rcases hw.elim with hw | ⟨rfl, -⟩
    · exact hv.ranks hw htype
    · exact ⟨.gt, (hv.ranks_null htype).2⟩
  · rcases hw.elim with hw | ⟨rfl, -⟩
    · exact ⟨.lt, (hw.ranks_null htype).1⟩
    · refine ⟨.eq, rfl, ?_⟩
      rw [ColumnType.cellOf_null htype.1 htype.2]
      rfl

end Column

end DocGrid

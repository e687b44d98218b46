import DocGrid.Proofs.Order.SpecPairs
import DocGrid.Proofs.Text.Split
import DocGrid.Query.Options

/-! The order of a table widget. The widget keeps fields and flags as lists and asks with texts that
are joined by commas. Both stand for the same order, also where one list is shorter or empty. -/

namespace DocGrid

/-- A flag that is down says no more than a flag that is missing. -/
theorem SortSpec.pair_flag_down (spec : SortSpec) (names : List String) :
    pair spec names [false] = pair spec names [] := by
  cases names with
  | nil => rfl
  | cons name names => rfl

namespace WidgetOptions

/-- The fields of the widget in their order, each with the flag at its own place. -/
def order (o : WidgetOptions) : SortSpec :=
  .pair [] (o.sortBy.map Text.stripped) o.sortDesc

variable {o : WidgetOptions}

theorem pieces_names (names : List String) :
    (Value.list (names.map .text)).pieces = .ok names := by
  change Except.ok ((names.map Value.text).map Value.display) = _
  rw [List.map_map]
  exact congrArg Except.ok (List.map_id names)

theorem pieces_sortByText (h : ∀ name ∈ o.sortBy, ',' ∉ name.toList) :
    o.sortByText.pieces = .ok o.sortBy := by
  unfold sortByText
  split
  · next hnone =>
    rw [List.isEmpty_iff.mp hnone]
    rfl
  · next hsome =>
    have hne : o.sortBy ≠ [] := fun hnil => hsome (List.isEmpty_iff.mpr hnil)
    exact congrArg Except.ok (Text.splitText_joinText hne h)

theorem isFlag_display (flag : Bool) : SortSpec.isFlag (Value.bool flag).display = flag := by
  cases flag <;> decide +kernel

theorem isFlag_flagText (flag : Bool) : SortSpec.isFlag (flagText flag) = flag := by
  cases flag <;> decide +kernel

theorem pieces_flags (flags : List Bool) : ∃ words,
    (Value.list (flags.map .bool)).pieces = .ok words ∧ words.map SortSpec.isFlag = flags := by
  refine ⟨(flags.map Value.bool).map Value.display, rfl, ?_⟩
  rw [List.map_map, List.map_map]
  exact (List.map_congr_left fun flag _ => isFlag_display flag).trans (List.map_id flags)

theorem pieces_sortDescText (h : o.sortDesc ≠ []) : ∃ words,
    o.sortDescText.pieces = .ok words ∧ words.map SortSpec.isFlag = o.sortDesc := by
  have hcommas : ∀ word ∈ o.sortDesc.map flagText, ',' ∉ word.toList := by
    refine List.forall_mem_map.mpr fun flag _ => ?_
    cases flag <;> decide
  refine ⟨o.sortDesc.map flagText, ?_, ?_⟩
  · exact congrArg Except.ok (Text.splitText_joinText (by simpa using h) hcommas)
  · rw [List.map_map]
    exact (List.map_congr_left fun flag _ => isFlag_flagText flag).trans (List.map_id _)

theorem ofValues_lists (o : WidgetOptions) :
    SortSpec.ofValues (.list (o.sortBy.map .text)) (.list (o.sortDesc.map .bool)) =
      .ok o.order := by
  obtain ⟨words, hwords, hflags⟩ := pieces_flags o.sortDesc
  rw [SortSpec.ofValues_of_pieces (pieces_names o.sortBy) hwords, SortSpec.ofTexts, hflags, order]

theorem ofValues_texts (h : ∀ name ∈ o.sortBy, ',' ∉ name.toList) :
    SortSpec.ofValues o.sortByText o.sortDescText = .ok o.order := by
  have hnames := pieces_sortByText h
  rw [order]
  by_cases hflags : o.sortDesc = []
  · -- the joined text is empty, which is cut into one flag that is down
    have hblank : o.sortDescText.pieces = .ok [""] := by
      rw [sortDescText, hflags]
      rfl
    have hdown : [""].map SortSpec.isFlag = [false] := by decide +kernel
    rw [SortSpec.ofValues_of_pieces hnames hblank, SortSpec.ofTexts, hdown,
      SortSpec.pair_flag_down, hflags]
  · obtain ⟨words, hwords, hsame⟩ := pieces_sortDescText hflags
    rw [SortSpec.ofValues_of_pieces hnames hwords, SortSpec.ofTexts, hsame]

theorem sortBy?_sortByText (o : WidgetOptions) :
    QueryOptions.sortBy? o.sortByText = some o.sortByText := by
  unfold sortByText
  split <;> rfl

open QueryOptions in
theorem toQueryOptions_eq (o : WidgetOptions) (search filter getFilterList : Option String) :
    o.toQueryOptions (textOrNull search) (textOrNull filter) (textOrNull getFilterList) =
      .ok { page := .int o.page, itemsPerPage := intOrNull o.itemsPerPage, search, filter,
            searchOptions := o.searchOptions, sortBy := o.sortByText, sortDesc := o.sortDescText,
            getFilterList } := by
  have htext (s : Option String) : Loose.nullable Loose.text? (textOrNull s) = some s := by
    cases s <;> rfl
  have hpage : pageValue? (.int o.page) = some (.int o.page) := rfl
  have hitems : pageValue? (intOrNull o.itemsPerPage) = some (intOrNull o.itemsPerPage) := by
    cases o.itemsPerPage <;> rfl
  have hoptions : Loose.mapping? (.mapping o.searchOptions) = some o.searchOptions := rfl
  have hflags : sortDesc? o.sortDescText = some o.sortDescText := rfl
  simp only [toQueryOptions, QueryOptions.check, Check.optional, Check.aliased, Check.read,
    Document.has, Document.get?, String.reduceEq, ↓reduceIte, Option.isSome_none,
    Bool.false_eq_true, hpage, hitems, htext, hoptions, sortBy?_sortByText, hflags]
  rfl

/-- The texts of a request stand for the order of the lists that the widget keeps. -/
theorem toQueryOptions_order (o : WidgetOptions) (search filter getFilterList : Option String)
    (hcommas : ∀ name ∈ o.sortBy, ',' ∉ name.toList) :
    ∃ options, o.toQueryOptions (QueryOptions.textOrNull search) (QueryOptions.textOrNull filter)
        (QueryOptions.textOrNull getFilterList) = .ok options ∧
      SortSpec.ofValues options.sortBy options.sortDesc = .ok o.order ∧
      SortSpec.ofValues (.list (o.sortBy.map .text)) (.list (o.sortDesc.map .bool)) =
        .ok o.order :=
  ⟨_, toQueryOptions_eq o search filter getFilterList, ofValues_texts hcommas, ofValues_lists o⟩

theorem toQueryOptions_order_blankNames :
    let o : WidgetOptions := ⟨1, none, ["", " age ", "name", "age"], [true, true, false], []⟩
    (∀ name ∈ o.sortBy, ',' ∉ name.toList) ∧
      o.order = [("age", .ascending), ("name", .ascending)] ∧
      ∃ options, o.toQueryOptions .null .null .null = .ok options ∧
        options.sortBy = .text ", age ,name,age" ∧ options.sortDesc = .text "true,true,false" ∧
        SortSpec.ofValues options.sortBy options.sortDesc = .ok o.order := by
  intro o
  have hcommas : ∀ name ∈ o.sortBy, ',' ∉ name.toList := by decide
  obtain ⟨options, hok, horder, -⟩ := toQueryOptions_order o none none none hcommas
  obtain rfl := Except.ok.inj ((toQueryOptions_eq o none none none).symm.trans hok)
  exact ⟨hcommas, by decide +kernel, _, hok, rfl, rfl, horder⟩

end WidgetOptions

end DocGrid

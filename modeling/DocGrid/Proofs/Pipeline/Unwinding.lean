import DocGrid.Proofs.Pipeline.Paths
import DocGrid.Proofs.Query.ValueCounts

/-! Taking apart the list at a path. Every document makes way for one document for each item of its
list, in which the item stands at the path and all else is where it was. -/

namespace DocGrid

namespace Stage

/-- The specifications of a stage that unwinds a path: the path alone, or among options. -/
inductive Unwinds (path : String) : Bool → Value → Prop
  | path : Unwinds path false (.text ("$" ++ path))
  | options {es : Document} {preserve : Bool}
      (hpath : es.get? "path" = some (.text ("$" ++ path)))
      (hpreserve : ((es.get? "preserveNullAndEmptyArrays").map Value.isTruthy).getD false =
        preserve) :
      Unwinds path preserve (.mapping es)

/-- What a document with an item in place of its list has: the item at the path, and on paths that
part from it what the document itself has there. -/
structure HasItem (path : String) (doc : Document) (item : Value) (out : Document) : Prop where
  at_path : out.resolve path = some item
  elsewhere : ∀ other, PathsPart path other → out.resolve other = doc.resolve other

/-- The documents that a document makes way for. -/
inductive Unwound (path : String) (preserve : Bool) (doc : Document) : List Document → Prop
  | items {items : List Value} {outs : List Document}
      (hitems : doc.resolve path = some (.list items)) (hne : items ≠ [])
      (houts : List.Forall₂ (HasItem path doc) items outs) : Unwound path preserve doc outs
  | single {v : Value} (hv : doc.resolve path = some v) (hnull : v ≠ .null)
      (hlist : ∀ items, v ≠ .list items) : Unwound path preserve doc [doc]
  | empty (h : doc.resolve path ∈ [none, some .null, some (.list [])]) :
      Unwound path preserve doc (if preserve then [doc] else [])

variable {path : String} {preserve : Bool} {spec : Value}

theorem Unwinds.unwindPath_eq (h : Unwinds path preserve spec) :
    unwindPath spec = .ok (path, preserve) := by
  have hpath := fieldPath?_dollar path
  cases h with
  | path => simp [unwindPath, Value.display, hpath]
  | options hes hpreserve =>
    simp [unwindPath, hes, hpreserve, Value.display, hpath]

theorem Unwinds.run_eq (h : Unwinds path preserve spec) (docs : List Document) :
    Pipeline.run [Distinct.stage "$unwind" spec] docs =
      .ok (docs.map (unwindOne path preserve)).flatten := by
  have hunwind : Stage.run "$unwind" spec docs = .ok (docs.flatMap (unwindOne path preserve)) := by
    change Stage.unwind spec docs = _
    rw [Stage.unwind, h.unwindPath_eq]
    rfl
  rw [← List.flatMap_def]
  exact Distinct.runStages_cons "$unwind" hunwind []

section Segments

variable (hpath : ∀ segment ∈ pathSegments path, segment ≠ "")

include hpath

theorem hasItem_withPath (doc : Document) (item : Value) :
    HasItem path doc item (doc.withPath path item) := by
  have hpoint : ¬ EndsInPoint path := by
    rintro ⟨base, rfl⟩
    exact hpath "" (by simp) rfl
  have hvalue := Document.hasValue_withPath hpoint item doc
  exact ⟨hvalue.resolve_eq, hvalue.elsewhere⟩

theorem unwound_unwindOne (preserve : Bool) (doc : Document) :
    Unwound path preserve doc (unwindOne path preserve doc) := by
  unfold unwindOne
  split
  · next hv => exact .empty (by simp [hv])
  · next hv => exact .empty (by simp [hv])
  · next hv => exact .empty (by simp [hv])
  · next items hne hv =>
    refine .items hv hne ?_
    rw [List.forall₂_map_right_iff, List.forall₂_same]
    exact fun item _ => hasItem_withPath hpath doc item
  · next v hnull _ hlist hv => exact .single hv hnull hlist

end Segments

/-- Unwinding gives the documents that make way for each document, one after the other. -/
theorem unwind_documents (hspec : Unwinds path preserve spec)
    (hpath : ∀ segment ∈ pathSegments path, segment ≠ "") (docs : List Document) :
    ∃ parts, Pipeline.run [Distinct.stage "$unwind" spec] docs = .ok parts.flatten ∧
      List.Forall₂ (Unwound path preserve) docs parts := by
  refine ⟨docs.map (unwindOne path preserve), hspec.run_eq docs, ?_⟩
  rw [List.forall₂_map_right_iff, List.forall₂_same]
  exact fun doc _ => unwound_unwindOne hpath preserve doc

/-- A list two levels down, beside null, an empty list, nothing and a text. -/
theorem unwind_documents_nested :
    let docs : List Document :=
      [[("id", .int 1), ("a", .mapping [("b", .list [.int 1, .list [.int 2]]), ("c", .int 0)])],
        [("a", .mapping [("b", .null)])], [("a", .mapping [("b", .list [])])], [("d", .int 1)],
        [("a", .mapping [("b", .text "x")])]]
    let spec : Value :=
      .mapping [("path", .text "$a.b"), ("preserveNullAndEmptyArrays", .bool true)]
    Unwinds "a.b" true spec ∧ (∀ segment ∈ pathSegments "a.b", segment ≠ "") ∧
      ∃ parts, Pipeline.run [Distinct.stage "$unwind" spec] docs = .ok parts.flatten ∧
        List.Forall₂ (Unwound "a.b" true) docs parts := by
  intro docs spec
  have hspec : Unwinds "a.b" true spec := .options rfl rfl
  have hpath : ∀ segment ∈ pathSegments "a.b", segment ≠ "" := by decide
  exact ⟨hspec, hpath, unwind_documents hspec hpath docs⟩

end Stage

end DocGrid

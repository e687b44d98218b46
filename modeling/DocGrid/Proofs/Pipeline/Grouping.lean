import DocGrid.Proofs.Order.FirstOccurrences
import DocGrid.Proofs.Query.ValueCounts
import Mathlib.Data.List.Permutation

/-! Grouping documents and summing up whole numbers. There is one group for each value of the grouping
expression, its sums are those of its own documents, and so they add up to the sums over all
documents in whatever order these come. -/

namespace DocGrid

/-- What a sum adds up: a whole number for each document, or the number at a path. -/
inductive Summand where
  | constant (n : Int)
  | path (path : String)

namespace Summand

def expression : Summand → Value
  | constant n => .int n
  | path p => .text ("$" ++ p)

/-- What a document adds to the sum. Nothing but a number counts. -/
def amount : Summand → Document → Int
  | constant n, _ => n
  | path p, doc =>
    match doc.resolve p with
    | some (.number (.int n)) => n
    | _ => 0

/-- A number that is added up is a whole one. -/
def IsWholeIn : Summand → Document → Prop
  | constant _, _ => True
  | path p, doc => ∀ n, doc.resolve p = some (.number n) → ∃ m, n = .int m

def total (s : Summand) (docs : List Document) : Int :=
  (docs.map s.amount).sum

theorem total_concat (s : Summand) (docs : List Document) (doc : Document) :
    s.total (docs ++ [doc]) = s.total docs + s.amount doc := by
  simp [total]

end Summand

namespace Stage

open Value (firsts)

/-- The value that a document is grouped by. What is missing counts as null. -/
def groupValue (id : Value) (doc : Document) : Value :=
  (doc.expression id).getD .null

def members (id : Value) (docs : List Document) (v : Value) : List Document :=
  docs.filter fun doc => v.sameGroup (groupValue id doc)

def groupRecord (id : Value) (sums : List (String × Summand)) (docs : List Document) (v : Value) :
    Document :=
  ("_id", v) :: sums.map fun s => (s.1, .int (s.2.total (members id docs v)))

/-- A specification with a grouping expression and sums. -/
structure GroupsBy (es : Document) (id : Value) (sums : List (String × Summand)) : Prop where
  id_eq : es.get? "_id" = some id
  sums_eq : (es.filter fun e => e.1 ≠ "_id") =
    sums.map fun s => (s.1, .mapping [("$sum", s.2.expression)])

/-- Documents of one group, with the same sums. -/
def SameGroupRecord (a b : Document) : Prop :=
  ∃ v w sums, a = ("_id", v) :: sums ∧ b = ("_id", w) :: sums ∧ v.sameGroup w = true

variable {es : Document} {id : Value} {sums : List (String × Summand)} {docs : List Document}

/-! One document at a time. -/

def totals (sums : List (String × Summand)) (docs : List Document) : List (String × Number) :=
  sums.map fun s => (s.1, .int (s.2.total docs))

theorem Summand.expression_cases {s : Summand} {doc : Document} (h : s.IsWholeIn doc) :
    (∃ n, doc.expression s.expression = some (.number (.int n)) ∧ s.amount doc = n) ∨
      (∀ n, doc.expression s.expression ≠ some (.number n)) ∧ s.amount doc = 0 := by
  cases s with
  | constant m => exact .inl ⟨m, rfl, rfl⟩
  | path p =>
    have hvalue : doc.expression (.text ("$" ++ p)) = doc.resolve p := by
      rw [Document.expression, fieldPath?_dollar]
    simp only [Summand.expression, hvalue, Summand.amount]
    cases hv : doc.resolve p with
    | none => exact .inr ⟨by simp, rfl⟩
    | some v =>
      cases v with
      | number m =>
        obtain ⟨m, rfl⟩ := h m hv
        exact .inl ⟨m, rfl, rfl⟩
      | _ => exact .inr ⟨by simp, rfl⟩

theorem addTo_totals {doc : Document} (h : ∀ s ∈ sums, s.2.IsWholeIn doc) (docs : List Document) :
    addTo doc (sums.map fun s => (s.1, s.2.expression)) (totals sums docs) =
      .ok (totals sums (docs ++ [doc])) := by
  induction sums with
  | nil => rfl
  | cons s sums ih =>
    obtain ⟨hs, hsums⟩ := List.forall_mem_cons.mp h
    have hcons (docs : List Document) :
        totals (s :: sums) docs = (s.1, .int (s.2.total docs)) :: totals sums docs := rfl
    rw [hcons, hcons, Summand.total_concat, List.map_cons, addTo, ih hsums]
    rcases Summand.expression_cases hs with ⟨n, hv, hn⟩ | ⟨hnone, hzero⟩
    · rw [hv, hn]
      rfl
    · rw [hzero, Int.add_zero]
      split
      · next n hv => exact absurd hv (hnone n)
      · rfl

/-- The groups of some values, each with the sums of its documents. -/
def groupsOf (sums : List (String × Summand)) (docs : Value → List Document) (ids : List Value) :
    List Group :=
  ids.map fun v => ⟨v, totals sums (docs v)⟩

/-- A document is added to the group of its value, and is the first one of a new group otherwise. -/
theorem place_groupsOf {v : Value} {doc : Document} {ids : List Value}
    (hdoc : ∀ s ∈ sums, s.2.IsWholeIn doc) (docs : Value → List Document)
    (hone : ids.Pairwise fun u w => u.sameGroup v = true → w.sameGroup v = false) :
    place (sums.map fun s => (s.1, s.2.expression)) v doc (groupsOf sums docs ids) =
      .ok (groupsOf sums (fun u => docs u ++ if u.sameGroup v then [doc] else []) ids ++
        if ids.any (Value.sameGroup · v) then [] else [⟨v, totals sums [doc]⟩]) := by
  induction ids with
  | nil =>
    have hzero : ((sums.map fun s => (s.1, s.2.expression)).map fun s => (s.1, Number.int 0)) =
        totals sums [] := by
      rw [totals, List.map_map]
      rfl
    rw [groupsOf, List.map_nil, place, hzero, addTo_totals hdoc]
    rfl
  | cons u ids ih =>
    obtain ⟨hothers, hrest⟩ := List.pairwise_cons.mp hone
    have hcons (docs : Value → List Document) :
        groupsOf sums docs (u :: ids) = ⟨u, totals sums (docs u)⟩ :: groupsOf sums docs ids := rfl
    rw [hcons, hcons, place]
    -- The document goes to the first group of its value, which by `hone` is the only one.
    by_cases huv : u.sameGroup v = true
    · have hany : (u :: ids).any (Value.sameGroup · v) = true := by simp [huv]
      have hkept : groupsOf sums (fun w => docs w ++ if w.sameGroup v then [doc] else []) ids =
          groupsOf sums docs ids :=
        List.map_congr_left fun w hw => by simp [hothers w hw huv]
      rw [if_pos huv, addTo_totals hdoc, hkept, if_pos hany, if_pos huv, List.append_nil]
      rfl
    · have hany : (u :: ids).any (Value.sameGroup · v) = ids.any (Value.sameGroup · v) := by
        simp [huv]
      rw [if_neg huv, ih hrest, hany, if_neg huv, List.append_nil]
      rfl

/-! All documents. -/

theorem members_concat (id : Value) (docs : List Document) (doc : Document) (v : Value) :
    members id (docs ++ [doc]) v =
      members id docs v ++ if v.sameGroup (groupValue id doc) then [doc] else [] := by
  rw [members, List.filter_append, List.filter_singleton, cond_eq_ite]
  rfl

theorem foldlM_place (hproper : ∀ doc ∈ docs, SortKey.Proper (groupValue id doc).numbers)
    (hwhole : ∀ doc ∈ docs, ∀ s ∈ sums, s.2.IsWholeIn doc) :
    docs.foldlM (fun groups doc => place (sums.map fun s => (s.1, s.2.expression))
        (groupValue id doc) doc groups) [] =
      .ok (groupsOf sums (members id docs) (firsts (docs.map (groupValue id)))) := by
  induction docs using List.reverseRecOn with
  | nil => rfl
  | append_singleton docs doc ih =>
    simp only [List.forall_mem_append, List.forall_mem_singleton] at hproper hwhole
    obtain ⟨hproper, hv⟩ := hproper
    obtain ⟨hwhole, hdoc⟩ := hwhole
    have hvalues : ∀ w ∈ docs.map (groupValue id), SortKey.Proper w.numbers := by
      simpa only [List.forall_mem_map] using hproper
    have hids : ∀ w ∈ firsts (docs.map (groupValue id)), SortKey.Proper w.numbers :=
      fun w hw => hvalues w (Value.mem_of_mem_firsts hw)
    have hone := Value.one_group hids (Value.firsts_apart _) hv
    have hmembers : (fun u => members id docs u ++
        if u.sameGroup (groupValue id doc) then [doc] else []) = members id (docs ++ [doc]) :=
      funext fun u => (members_concat id docs doc u).symm
    have hplaced := place_groupsOf hdoc (members id docs) hone
    rw [hmembers, Value.any_firsts hvalues hv] at hplaced
    rw [List.foldlM_append, ih hproper hwhole, List.map_append, List.map_singleton,
      Value.firsts_concat]
    refine (bind_pure _).trans (hplaced.trans (congrArg Except.ok ?_))
    rw [groupsOf, groupsOf, List.map_append]
    split
    · rfl
    · next hnone =>
      -- The value is new, so that its group has the one document.
      have hfirst : members id (docs ++ [doc]) (groupValue id doc) = [doc] := by
        have hempty : members id docs (groupValue id doc) = [] := by
          refine List.filter_eq_nil_iff.mpr fun d hd hsame => hnone ?_
          rw [List.any_map, List.any_eq_true]
          exact ⟨d, hd, (Value.sameGroup_comm _ _).trans hsame⟩
        rw [members_concat, hempty, Value.sameGroup_self hv]
        rfl
      rw [List.map_singleton, hfirst]

theorem accumulators_eq (h : (es.filter fun e => e.1 ≠ "_id") =
      sums.map fun s => (s.1, .mapping [("$sum", s.2.expression)])) :
    accumulators es = .ok (sums.map fun s => (s.1, s.2.expression)) := by
  induction es generalizing sums with
  | nil =>
    obtain rfl : sums = [] := by simpa using h.symm
    rfl
  | cons e es ih =>
    obtain ⟨name, v⟩ := e
    by_cases hname : name = "_id"
    · rw [List.filter_cons_of_neg (by simp [hname])] at h
      unfold accumulators
      rw [if_pos hname]
      exact ih h
    · rw [List.filter_cons_of_pos (by simp [hname])] at h
      cases sums with
      | nil => cases h
      | cons s sums =>
        obtain ⟨hs, hsums⟩ := List.cons.inj h
        obtain ⟨rfl, rfl⟩ := Prod.mk.inj hs
        rw [accumulators, if_neg hname, ih hsums]
        rfl

theorem GroupsBy.group_eq (hspec : GroupsBy es id sums)
    (hproper : ∀ doc ∈ docs, SortKey.Proper (groupValue id doc).numbers)
    (hwhole : ∀ doc ∈ docs, ∀ s ∈ sums, s.2.IsWholeIn doc) :
    Pipeline.run [Distinct.stage "$group" (.mapping es)] docs =
      .ok ((firsts (docs.map (groupValue id))).map (groupRecord id sums docs)) := by
  have hkey : hasKey (.mapping es) "_id" = .ok true := by
    rw [hasKey, Document.has, hspec.id_eq]
    rfl
  have hgroup : Stage.run "$group" (.mapping es) docs =
      .ok ((firsts (docs.map (groupValue id))).map (groupRecord id sums docs)) := by
    have hfold := foldlM_place hproper hwhole
    change Stage.group (.mapping es) docs = _
    simp only [Stage.group, hkey, entries, accumulators_eq hspec.sums_eq, hspec.id_eq,
      Result.ok_bind]
    refine (congrArg (Except.map (List.map Group.document)) hfold).trans ?_
    rw [Result.map_ok, groupsOf, List.map_map]
    refine congrArg Except.ok (List.map_congr_left fun v _ => ?_)
    simp only [Function.comp_apply, Group.document, groupRecord, totals, List.map_map]
    rfl
  exact Distinct.runStages_cons "$group" hgroup []

/-- The sums of a group do not depend on the order of the documents, nor on the value that stands for
the group. -/
theorem total_members_perm {others : List Document} (hperm : docs.Perm others) {v w : Value}
    (hproper : ∀ doc ∈ docs, SortKey.Proper (groupValue id doc).numbers)
    (hv : SortKey.Proper v.numbers) (hw : SortKey.Proper w.numbers) (hvw : v.sameGroup w = true)
    (s : Summand) : s.total (members id docs v) = s.total (members id others w) := by
  have hmembers : members id docs v = members id docs w :=
    List.filter_congr fun doc hdoc => Value.sameGroup_congr hv hw (hproper doc hdoc) hvw
  have hsame : (members id docs w).Perm (members id others w) := hperm.filter _
  rw [hmembers, Summand.total, Summand.total]
  exact (hsame.map s.amount).sum_eq

theorem groupRecord_matching (sums : List (String × Summand)) {others : List Document}
    (hperm : docs.Perm others)
    (hproper : ∀ doc ∈ docs, SortKey.Proper (groupValue id doc).numbers) :
    ∃ matched,
      matched.Perm ((firsts (others.map (groupValue id))).map (groupRecord id sums others)) ∧
      List.Forall₂ SameGroupRecord
        ((firsts (docs.map (groupValue id))).map (groupRecord id sums docs)) matched := by
  have hvalues : ∀ v ∈ docs.map (groupValue id), SortKey.Proper v.numbers := by
    simpa only [List.forall_mem_map] using hproper
  have hothers : ∀ w ∈ others.map (groupValue id), SortKey.Proper w.numbers :=
    fun w hw => hvalues w ((hperm.map _).mem_iff.mpr hw)
  obtain ⟨ids, hids, hsame⟩ := Value.firsts_matching (hperm.map (groupValue id)) hvalues
  refine ⟨ids.map (groupRecord id sums others), hids.map _, ?_⟩
  rw [List.forall₂_map_left_iff, List.forall₂_map_right_iff]
  have hleft := (List.forall₂_and_left _ _).mpr
    ⟨fun v hv => hvalues v (Value.mem_of_mem_firsts hv), hsame⟩
  have hboth := (List.forall₂_and_left _ _).mpr
    ⟨fun w hw => hothers w (Value.mem_of_mem_firsts (hids.mem_iff.mp hw)), hleft.flip⟩
  refine hboth.flip.imp fun v w ⟨hw, hv, hvw⟩ => ⟨v, w, _, rfl, ?_, hvw⟩
  have hsums := total_members_perm hperm hproper hv hw hvw
  simp only [groupRecord, hsums]

/-- There is one document for each group, in the order in which the groups first occur. The sums of
the groups add up to those of all documents, and another order of the documents changes no more than
the order of the groups and which of its values stands for a group. -/
theorem group_documents (hspec : GroupsBy es id sums)
    (hproper : ∀ doc ∈ docs, SortKey.Proper (groupValue id doc).numbers)
    (hwhole : ∀ doc ∈ docs, ∀ s ∈ sums, s.2.IsWholeIn doc) :
    Pipeline.run [Distinct.stage "$group" (.mapping es)] docs =
        .ok ((firsts (docs.map (groupValue id))).map (groupRecord id sums docs)) ∧
      (∀ s ∈ sums, ((firsts (docs.map (groupValue id))).map fun v =>
        s.2.total (members id docs v)).sum = s.2.total docs) ∧
      ∀ others, docs.Perm others → ∃ outs outs' matched,
        Pipeline.run [Distinct.stage "$group" (.mapping es)] docs = .ok outs ∧
        Pipeline.run [Distinct.stage "$group" (.mapping es)] others = .ok outs' ∧
        matched.Perm outs' ∧ List.Forall₂ SameGroupRecord outs matched := by
  have hvalues : ∀ v ∈ docs.map (groupValue id), SortKey.Proper v.numbers := by
    simpa only [List.forall_mem_map] using hproper
  have hrun := hspec.group_eq hproper hwhole
  refine ⟨hrun, fun s _ => ?_, fun others hperm => ?_⟩
  · exact Value.sum_groups (fun v hv => hvalues v (Value.mem_of_mem_firsts hv))
      (Value.firsts_apart _) s.2.amount hproper
      fun doc hdoc => Value.exists_first hvalues (List.mem_map_of_mem hdoc)
  · have hproper' : ∀ doc ∈ others, SortKey.Proper (groupValue id doc).numbers :=
      fun doc hdoc => hproper doc (hperm.mem_iff.mpr hdoc)
    have hwhole' : ∀ doc ∈ others, ∀ s ∈ sums, s.2.IsWholeIn doc :=
      fun doc hdoc => hwhole doc (hperm.mem_iff.mpr hdoc)
    obtain ⟨matched, hmatched, hsame⟩ := groupRecord_matching sums hperm hproper
    exact ⟨_, _, matched, hrun, hspec.group_eq hproper' hwhole', hmatched, hsame⟩

/-- One and 1.0 make one group, the truth value makes another, also inside of lists. -/
theorem group_documents_ones :
    let docs : List Document :=
      [[("k", .list [.int 1, .null]), ("n", .int 2)], [("n", .int 7)],
        [("k", .list [.bool true, .null]), ("n", .bool true)],
        [("k", .list [.number (.decimal (.finite false 10 (-1))), .null]), ("n", .int (-5))]]
    let es : Document := [("n", .mapping [("$sum", .text "$n")]), ("_id", .text "$k"),
      ("count", .mapping [("$sum", .int 1)])]
    let id : Value := .text "$k"
    let sums : List (String × Summand) := [("n", .path "n"), ("count", .constant 1)]
    GroupsBy es id sums ∧ (∀ doc ∈ docs, SortKey.Proper (groupValue id doc).numbers) ∧
      (∀ doc ∈ docs, ∀ s ∈ sums, s.2.IsWholeIn doc) ∧
      (Pipeline.run [Distinct.stage "$group" (.mapping es)] docs =
          .ok ((firsts (docs.map (groupValue id))).map (groupRecord id sums docs)) ∧
        (∀ s ∈ sums, ((firsts (docs.map (groupValue id))).map fun v =>
          s.2.total (members id docs v)).sum = s.2.total docs) ∧
        ∀ others, docs.Perm others → ∃ outs outs' matched,
          Pipeline.run [Distinct.stage "$group" (.mapping es)] docs = .ok outs ∧
          Pipeline.run [Distinct.stage "$group" (.mapping es)] others = .ok outs' ∧
          matched.Perm outs' ∧ List.Forall₂ SameGroupRecord outs matched) ∧
      (firsts (docs.map (groupValue id))).map (groupRecord id sums docs) =
        [[("_id", .list [.int 1, .null]), ("n", .int (-3)), ("count", .int 2)],
          [("_id", .null), ("n", .int 7), ("count", .int 1)],
          [("_id", .list [.bool true, .null]), ("n", .int 0), ("count", .int 1)]] := by
  intro docs es id sums
  have hspec : GroupsBy es id sums := ⟨rfl, rfl⟩
  have hproper : ∀ doc ∈ docs, SortKey.Proper (groupValue id doc).numbers := by decide +kernel
  have hwhole : ∀ doc ∈ docs, ∀ s ∈ sums, s.2.IsWholeIn doc := by
    have hn : ∀ doc ∈ docs, (Summand.path "n").IsWholeIn doc := by
      simp only [docs, List.forall_mem_cons, Summand.IsWholeIn]
      refine ⟨fun n h => ⟨2, ?_⟩, fun n h => ⟨7, ?_⟩, fun n h => ?_, fun n h => ⟨-5, ?_⟩, by simp⟩
      all_goals cases h
      all_goals rfl
    intro doc hdoc
    exact List.forall_mem_cons.mpr ⟨hn doc hdoc, List.forall_mem_singleton.mpr trivial⟩
  exact ⟨hspec, hproper, hwhole, group_documents hspec hproper hwhole, by cbv⟩

end Stage

end DocGrid

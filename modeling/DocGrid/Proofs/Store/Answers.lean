import DocGrid.Proofs.Store.Complements
import DocGrid.Proofs.Store.Demands
import DocGrid.Proofs.Store.Groups

/-! When a database answers with the rows for a filter text: truth values must not be ordered, and
what is not settled without a look at the rows has to be handed over. -/

namespace DocGrid

namespace Filter

variable {t : Table}

/-- A settled condition decides its group, and a settled group the whole, whatever the rest
demands. -/
structure Answerable (t : Table) (f : Filter) : Prop where
  ordered : ∀ group ∈ f.parts, ∀ leaf ∈ group.parts, ¬leaf.OrdersTruths t
  demands : (∃ group ∈ f.parts, ∀ leaf ∈ group.parts, leaf.settled? t = some true) ∨
    ∀ group ∈ f.parts, (∃ leaf ∈ group.parts, leaf.settled? t = some false) ∨
      ∀ leaf ∈ group.parts, leaf.Demands t

theorem ofFilter_all {leaves : List Filter} (h : leaves ≠ []) (t : Table) :
    Condition.ofFilter t (.all leaves) =
      (Condition.ofFilters t leaves).map Condition.conjunction := by
  rw [Condition.ofFilter]
  · rfl
  · exact h

theorem ofFilter_any {groups : List Filter} (h : groups ≠ []) (t : Table) :
    Condition.ofFilter t (.any groups) =
      (Condition.ofFilters t groups).map Condition.disjunction := by
  rw [Condition.ofFilter]
  · rfl
  · exact h

theorem ofFilters_eq (t : Table) (fs : List Filter) :
    Condition.ofFilters t fs = fs.mapM (Condition.ofFilter t) := by
  induction fs with
  | nil => rfl
  | cons f fs ih => rw [Condition.ofFilters, List.mapM_cons, ih]

section Parts

variable {fs : List Filter} {cs : List Condition}

theorem forall_mem_iff_of_forall₂ {p : Filter → Prop} {q : Condition → Prop}
    (h : List.Forall₂ (fun f c => q c ↔ p f) fs cs) : (∀ c ∈ cs, q c) ↔ ∀ f ∈ fs, p f := by
  induction h with
  | nil => simp
  | cons hpart _ ih => rw [List.forall_mem_cons, List.forall_mem_cons, hpart, ih]

theorem mem_iff_of_forall₂ {p : Filter → Prop} {c : Condition}
    (h : List.Forall₂ (fun f d => d = c ↔ p f) fs cs) : c ∈ cs ↔ ∃ f ∈ fs, p f := by
  induction h with
  | nil => simp
  | cons hpart _ ih => rw [List.mem_cons, List.exists_mem_cons_iff, eq_comm, hpart, ih]

variable [Conversions]

/-- What the condition of a group says and demands. -/
structure GroupPoses (t : Table) (group : Filter) (c : Condition) : Prop where
  settled : c = .constant true ↔ ∀ leaf ∈ group.parts, leaf.settled? t = some true
  handed : c.Handed ↔
    (∃ leaf ∈ group.parts, leaf.settled? t = some false) ∨ ∀ leaf ∈ group.parts, leaf.Demands t
  answers : ∀ r, c.Answers r

theorem answers_of_forall₂ {R : Filter → Condition → Prop} (h : List.Forall₂ R fs cs) (r : SqlRow)
    (ha : ∀ f c, R f c → c.Answers r) : ∀ c ∈ cs, c.Answers r := by
  induction h with
  | nil => simp
  | cons hpart _ ih => exact List.forall_mem_cons.mpr ⟨ha _ _ hpart, ih⟩

theorem groupPoses_conjunction (h : List.Forall₂ (Poses t) fs cs) :
    GroupPoses t (.all fs) (Condition.conjunction cs) where
  settled := by
    have htrue := forall_mem_iff_of_forall₂ (h.imp fun _ _ hp => hp.settled true)
    exact Condition.conjunction_eq_true_iff.trans htrue
  handed := by
    have hfalse := mem_iff_of_forall₂ (h.imp fun _ _ hp => hp.settled false)
    have hhanded := forall_mem_iff_of_forall₂ (h.imp fun _ _ hp => hp.handed)
    exact Condition.handed_conjunction.trans (or_congr hfalse hhanded)
  answers r := by
    have hall := answers_of_forall₂ h r fun _ _ hp => hp.answers r
    obtain ⟨known, hk, -⟩ := Condition.conjunction_iff hall
    exact ⟨known, hk⟩

theorem handed_disjunction_of_groups (h : List.Forall₂ (GroupPoses t) fs cs) :
    (Condition.disjunction cs).Handed ↔
      (∃ group ∈ fs, ∀ leaf ∈ group.parts, leaf.settled? t = some true) ∨
        ∀ group ∈ fs, (∃ leaf ∈ group.parts, leaf.settled? t = some false) ∨
          ∀ leaf ∈ group.parts, leaf.Demands t := by
  have htrue := mem_iff_of_forall₂ (h.imp fun _ _ hg => hg.settled)
  have hhanded := forall_mem_iff_of_forall₂ (h.imp fun _ _ hg => hg.handed)
  exact Condition.handed_disjunction.trans (or_congr htrue hhanded)

theorem answers_disjunction_of_groups (h : List.Forall₂ (GroupPoses t) fs cs) (r : SqlRow) :
    (Condition.disjunction cs).Answers r := by
  have hall := answers_of_forall₂ h r fun _ _ hg => hg.answers r
  obtain ⟨known, hk, -⟩ := Condition.disjunction_iff hall
  exact ⟨known, hk⟩

end Parts

/-- Whether some condition asks for the type of a value. -/
def AsksType (f : Filter) : Prop :=
  ∃ group ∈ f.parts, ∃ leaf ∈ group.parts, ∃ field operand,
    leaf = .comparison field .hasType operand

section WellFormed

variable {f : Filter} (h : f.WellFormed)

include h

theorem WellFormed.ordered {c : Condition} (hc : Condition.ofFilter t f = .ok c) :
    ∀ group ∈ f.parts, ∀ leaf ∈ group.parts, ¬leaf.OrdersTruths t := by
  obtain ⟨hne, hg, hl⟩ := h
  rename_i groups
  intro group hgroup leaf hleaf horder
  obtain ⟨leaves, hleaves, rfl⟩ := List.mem_map.mp hgroup
  rw [ofFilter_any (by simpa using hne), ofFilters_eq] at hc
  obtain ⟨cs, hcs, -⟩ := Result.ok_of_bind hc
  obtain ⟨d, hd⟩ := Result.ok_of_mapM hcs _ hgroup
  rw [ofFilter_all (hg leaves hleaves), ofFilters_eq] at hd
  obtain ⟨ds, hds, -⟩ := Result.ok_of_bind hd
  obtain ⟨e, he⟩ := Result.ok_of_mapM hds leaf hleaf
  rw [horder.refused] at he
  cases he

variable [Conversions]

/-- The condition of a filter that has been read from a text. -/
theorem WellFormed.condition (htype : ¬f.AsksType)
    (ho : ∀ group ∈ f.parts, ∀ leaf ∈ group.parts, ¬leaf.OrdersTruths t) :
    ∃ c, Condition.ofFilter t f = .ok c ∧ (c.Handed ↔ f.Answerable t) ∧ ∀ r, c.Answers r := by
  obtain ⟨hne, hg, hl⟩ := h
  rename_i groups
  have hgroups : ∀ group ∈ groups.map Filter.all, ∃ c, Condition.ofFilter t group = .ok c ∧
      GroupPoses t group c := by
    intro group hgroup
    obtain ⟨leaves, hleaves, rfl⟩ := List.mem_map.mp hgroup
    obtain ⟨cs, hcs, hposes⟩ := ofFilters_forall fun leaf hleaf => by
      obtain ⟨c, hc⟩ := (hl leaves hleaves leaf hleaf).poses t
        (fun field operand he => htype ⟨_, hgroup, leaf, hleaf, field, operand, he⟩)
        (ho _ hgroup leaf hleaf)
      exact ⟨c, hc.condition, hc⟩
    refine ⟨_, ?_, groupPoses_conjunction hposes⟩
    rw [ofFilter_all (hg leaves hleaves), hcs]
    rfl
  obtain ⟨cs, hcs, hposes⟩ := ofFilters_forall hgroups
  refine ⟨Condition.disjunction cs, ?_, ?_, answers_disjunction_of_groups hposes⟩
  · rw [ofFilter_any (by simpa using hne), hcs]
    rfl
  · rw [handed_disjunction_of_groups hposes]
    exact ⟨fun h => ⟨ho, h⟩, fun h => h.demands⟩

end WellFormed

end Filter

namespace SqlStore

variable {s : SqlStore} {t : Table} {rows : List SqlRow} {terms : String} {f : Filter}

section Answered

variable [Conversions]

section Reads

variable {c : Condition} {p : SqlRow → Bool} (hc : Condition.ofFilter t f = .ok c)
  (hrows : s.rows t = .ok rows) (hp : ∀ r ∈ rows, c.selects r = .ok (p r))

include hc hrows hp

theorem find_eq_handOver : s.find t ⟨some f, [], 0, 0⟩ =
    (Argument.handOver c.arguments).bind fun _ => (rows.filter p).mapM (loadRow t) := by
  rw [find, findRows_eq_handOver hc hrows hp]
  cases Argument.handOver c.arguments <;> rfl

theorem count_eq_handOver : s.count t (some f) =
    (Argument.handOver c.arguments).map fun _ => ((rows.filter p).length : Int) := by
  have hselected : s.selected t c [] = _ := selected_eq_handOver hrows hp rfl
  simp only [count, conditionOf, hc, hselected, Result.ok_bind]
  cases Argument.handOver c.arguments <;> rfl

end Reads

/-- A filter text is answered in a database when it is answerable on the table, whatever the table
holds. The limits of a database on the depth of a condition and on the number of its arguments are
taken not to be reached. -/
theorem find_ofTerms_isOk_iff (hs : s.Accepted) (ht : t ∈ Table.all) (hrows : s.rows t = .ok rows)
    (hf : Filter.ofTerms terms = .ok (some f)) (htype : ¬f.AsksType) :
    ((∃ docs, s.find t ⟨some f, [], 0, 0⟩ = .ok docs) ↔ f.Answerable t) ∧
      ((∃ n, s.count t (some f) = .ok n) ↔ f.Answerable t) := by
  have hwf := Filter.wellFormed_of_ofTerms hf
  by_cases ho : ∀ group ∈ f.parts, ∀ leaf ∈ group.parts, ¬leaf.OrdersTruths t
  · obtain ⟨c, hc, hhanded, hanswers⟩ := hwf.condition htype ho
    choose known hknown using hanswers
    have hselects : ∀ r ∈ rows, c.selects r = .ok (known r == some true) :=
      fun r _ => Condition.selects_of_holds (hknown r)
    obtain ⟨docs, hdocs⟩ := Result.mapM_exists fun r (hr : r ∈ rows.filter _) =>
      hs.loads t ht rows hrows r (List.mem_filter.mp hr).1
    rw [find_eq_handOver hc hrows hselects, count_eq_handOver hc hrows hselects, ← hhanded,
      Condition.Handed, ← Argument.handOver_eq_ok]
    cases Argument.handOver c.arguments with
    | ok u => exact ⟨iff_of_true ⟨docs, hdocs⟩ rfl, iff_of_true ⟨_, rfl⟩ rfl⟩
    | error e =>
      have hrefused : ¬(Except.error e : Result Unit) = .ok () := by simp
      exact ⟨iff_of_false (by rintro ⟨_, h⟩; cases h) hrefused,
        iff_of_false (by rintro ⟨_, h⟩; cases h) hrefused⟩
  · have hnot : ¬f.Answerable t := fun h => ho h.ordered
    refine ⟨iff_of_false ?_ hnot, iff_of_false ?_ hnot⟩
    · rintro ⟨docs, hdocs⟩
      obtain ⟨found, hfound, -⟩ := Result.ok_of_bind hdocs
      obtain ⟨c, hc, -⟩ := Result.ok_of_bind hfound
      exact ho (hwf.ordered hc)
    · rintro ⟨n, hn⟩
      obtain ⟨c, hc, -⟩ := Result.ok_of_bind hn
      exact ho (hwf.ordered hc)

end Answered

/-- A list cannot be handed over for a number, but here the first condition of its group is never
true. -/
theorem find_ofTerms_isOk_roles :
    let f : Filter := .any [.all [.comparison "role" .among (.list (["admin", "user"].map .text))],
      .all [.comparison "nope" .equal (.text "1"),
        .comparison "id" .less (.list (["1", "2"].map .text))]]
    (∃ docs, roleStore.find .items ⟨some f, [], 0, 0⟩ = .ok docs) ∧
      ∃ n, roleStore.count .items (some f) = .ok n := by
  intro f
  have hrows : roleStore.rows .items = .ok (roleRows.map Table.items.keptRow) := rfl
  have hf : Filter.ofTerms "role(in:admin:user);nope(eq:1),id(lt:1:2)" = .ok (some f) := by rfl
  have htype : ¬f.AsksType := by simp [f, Filter.AsksType, Filter.parts]
  obtain ⟨hfind, hcount⟩ := find_ofTerms_isOk_iff accepted_roleStore (by simp [Table.all]) hrows hf
    htype
  have hanswerable : f.Answerable .items := by
    constructor
    · simp [f, Filter.parts, Filter.OrdersTruths, Operand.text, Table.column?, Table.items]
    · refine .inr ?_
      simp only [f, Filter.parts, List.forall_mem_cons, List.not_mem_nil, false_implies,
        implies_true, and_true]
      refine ⟨.inr fun c hc first _ x _ => ?_, .inl ⟨_, List.mem_cons_self, rfl⟩⟩
      cases hc
      trivial
  exact ⟨hfind.mpr hanswerable, hcount.mpr hanswerable⟩

theorem not_find_ofTerms_isOk :
    ¬∀ (s : SqlStore) (t : Table) (rows : List SqlRow) (terms : String) (f : Filter),
      s.Accepted → t ∈ Table.all → s.rows t = .ok rows → Filter.ofTerms terms = .ok (some f) →
        ¬f.AsksType → ∃ docs, s.find t ⟨some f, [], 0, 0⟩ = .ok docs := by
  intro h
  let f : Filter := .any [.all [.comparison "active" .greater (.text "true")]]
  have hf : Filter.ofTerms "active(gt:true)" = .ok (some f) := by rfl
  obtain ⟨docs, hdocs⟩ := h roleStore .items _ _ f accepted_roleStore (by simp [Table.all]) rfl hf
    (by simp [f, Filter.AsksType, Filter.parts])
  obtain ⟨found, hfound, -⟩ := Result.ok_of_bind hdocs
  obtain ⟨c, hc, -⟩ := Result.ok_of_bind hfound
  have htruth : truthOf? "true" = some true := by decide +kernel
  refine (Filter.wellFormed_of_ofTerms hf).ordered hc _ List.mem_cons_self _ List.mem_cons_self ?_
  exact ⟨by simp [Operator.IsOrder], _, rfl, rfl, by rw [htruth]; rfl⟩

end SqlStore

end DocGrid

import DocGrid.Proofs.Query.Pages
import DocGrid.Proofs.Store.Answers

/-! Chains of steps. The conditions of a query ask for all filters that were added, in whatever
order, and its order and window are those of the last steps that set them. -/

namespace DocGrid

namespace Query

namespace Step

/-- What a step adds to the conditions. -/
def added : Step → List Filter
  | .find f => f.toList
  | .filter terms =>
    match termsFilter terms with
    | .ok f => f.toList
    | .error _ => []
  | .search terms options =>
    (terms.filter (· ≠ "")).toList.map fun terms => .search terms options
  | _ => []

def page? (config : TableConfig) : Step → Option Window
  | .paginate page items => (Page.window page items config.defaultItems).toOption
  | _ => none

def offset? (config : TableConfig) : Step → Option Nat
  | .skip n => some n.toNat
  | s => (s.page? config).map (·.offset)

end Step

def added (steps : List Step) : List Filter :=
  steps.flatMap Step.added

def joined (conditions : Option Filter) (f : Filter) : Option Filter :=
  match conditions with
  | none => some f
  | some g => some (.all [g, f])

variable {config : TableConfig} {q next : Query} {s : Step} {steps : List Step}

section Conditions

variable {c : Option Filter} {f : Filter} {fs gs : List Filter} {doc : Value}

end Conditions

end Query

/-! What is read of the conditions. -/

namespace MemoryStore

variable {s : MemoryStore} {t : Table} {fs gs : List Filter}

end MemoryStore

namespace SqlStore

variable {s : SqlStore} {t : Table} {rows : List SqlRow} {c d : Condition} {f : Filter}
  {fs gs : List Filter}

variable [Conversions]

/-- A condition that can be asked of all rows. -/
structure Asks (rows : List SqlRow) (c : Condition) : Prop where
  handed : c.Handed
  answers : ∀ r ∈ rows, c.Answers r

theorem Asks.conjunction (hc : Asks rows c) (hd : Asks rows d) :
    Asks rows (.conjunction [c, d]) ∧
      ∀ r ∈ rows, (Condition.conjunction [c, d]).IsTrue r ↔ c.IsTrue r ∧ d.IsTrue r := by
  have hboth : ∀ r ∈ rows, ∃ known, (Condition.conjunction [c, d]).holds r = .ok known ∧
      (known = some true ↔ c.IsTrue r ∧ d.IsTrue r) := by
    intro r hr
    have hparts : ∀ e ∈ [c, d], e.Answers r :=
      List.forall_mem_cons.mpr ⟨hc.answers r hr, List.forall_mem_singleton.mpr (hd.answers r hr)⟩
    simpa using Condition.conjunction_iff hparts
  refine ⟨⟨Condition.handed_conjunction.mpr (.inr ?_), fun r hr => ?_⟩, fun r hr => ?_⟩
  · exact List.forall_mem_cons.mpr ⟨hc.handed, List.forall_mem_singleton.mpr hd.handed⟩
  · obtain ⟨known, hknown, -⟩ := hboth r hr
    exact ⟨known, hknown⟩
  · obtain ⟨known, hknown, hiff⟩ := hboth r hr
    rw [Condition.isTrue_iff hknown, hiff]

/-- A filter whose condition can be asked of all rows. -/
def Filters (t : Table) (rows : List SqlRow) (f : Filter) : Prop :=
  ∃ c, Condition.ofFilter t f = .ok c ∧ Asks rows c

end SqlStore

namespace Query

variable {config : TableConfig} {steps others : List Step} {q q' : Query}

end Query

end DocGrid

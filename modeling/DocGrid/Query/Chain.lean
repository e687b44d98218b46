import DocGrid.Order.SortSpec
import DocGrid.Query.Options
import DocGrid.Query.Page
import DocGrid.Store.Selection
import DocGrid.Terms.Compile

/-! Queries that grow step by step. Conditions are added to those that are there, while order and
window replace the ones before. -/

namespace DocGrid

structure Query where
  conditions : Option Filter
  orderBy : List String
  window : Window

namespace Query

def start : Query :=
  ⟨none, [], ⟨0, 0⟩⟩

inductive Step where
  | find (filter : Option Filter)
  | filter (terms : Option String)
  | search (terms : Option String) (options : Document)
  | sort (fields flags : Value)
  | skip (n : Int)
  | limit (n : Int)
  | paginate (page items : Value)

/-- Requires a filter in addition to the conditions. -/
def require (q : Query) (f : Filter) : Query :=
  match q.conditions with
  | none => { q with conditions := some f }
  | some g => { q with conditions := some (.all [g, f]) }

def termsFilter : Option String → Result (Option Filter)
  | none => .ok none
  | some terms => Filter.ofTerms terms

/-- The query after a step, or nothing when the step asks for nothing. -/
def change? (config : TableConfig) (q : Query) : Step → Result (Option Query)
  | .find f => .ok (f.map q.require)
  | .filter terms => do return (← termsFilter terms).map q.require
  | .search none _ => .ok none
  | .search (some terms) options =>
    .ok (if terms = "" then none else some (q.require (.search terms options)))
  | .sort fields flags => do
    let spec ← SortSpec.ofValues fields flags
    return if spec.isEmpty then none else some { q with orderBy := spec.orderBy }
  | .skip n => .ok (some { q with window := { q.window with offset := n.toNat } })
  | .limit n => .ok (some { q with window := { q.window with limit := n.toNat } })
  | .paginate page items => do
    return some { q with window := ← Page.window page items config.defaultItems }

def apply (config : TableConfig) (q : Query) (s : Step) : Result Query := do
  return (← q.change? config s).getD q

def applyAll (config : TableConfig) (q : Query) : List Step → Result Query
  | [] => .ok q
  | s :: rest => do (← q.apply config s).applyAll config rest

def selection (q : Query) : Selection :=
  ⟨q.conditions, q.orderBy, q.window.offset, q.window.limit⟩

end Query

end DocGrid

import DocGrid.Failure

/-! Work that is done in rounds. What is put off waits for the next round, in which everything that
was put off is done in order. -/

namespace DocGrid.Yaml

/-- What comes of work, and the round in which it does. -/
structure Staged (α : Type) where
  round : Nat
  outcome : Result α

namespace Staged

variable {α β γ : Type}

def now (r : Result α) : Staged α :=
  ⟨0, r⟩

def later (s : Staged α) : Staged α :=
  ⟨s.round + 1, s.outcome⟩

def map (f : α → β) (s : Staged α) : Staged β :=
  ⟨s.round, s.outcome.map f⟩

/-- Work side by side. Of two failures the one of the earlier round ends it, and in one round the
first one. -/
def both (f : α → β → γ) (a : Staged α) (b : Staged β) : Staged γ :=
  match a.outcome, b.outcome with
  | .ok x, .ok y => ⟨max a.round b.round, .ok (f x y)⟩
  | .ok _, .error e => ⟨b.round, .error e⟩
  | .error e, .ok _ => ⟨a.round, .error e⟩
  | .error e, .error d => if b.round < a.round then ⟨b.round, .error d⟩ else ⟨a.round, .error e⟩

/-- Work that may turn out at once not to be possible. -/
def of : Result (Staged α) → Staged α
  | .ok s => s
  | .error e => now (.error e)

@[simp] theorem now_outcome (r : Result α) : (now r).outcome = r := rfl

@[simp] theorem later_outcome (s : Staged α) : s.later.outcome = s.outcome := rfl

@[simp] theorem map_outcome (f : α → β) (s : Staged α) : (s.map f).outcome = s.outcome.map f := rfl

end Staged

end DocGrid.Yaml

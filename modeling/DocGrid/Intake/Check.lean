import DocGrid.Failure
import DocGrid.Intake.Loose

/-! Reading the fields of a mapping, with the names of all fields that cannot be read. -/

namespace DocGrid

/-- What was read, or the fields that are at fault. -/
inductive Check (α : Type) where
  | ok (a : α)
  | faulty (fields : List String)

namespace Check

def map {α β : Type} (f : α → β) : Check α → Check β
  | ok a => ok (f a)
  | faulty fields => faulty fields

/-- Reads two things; the faults of both count. -/
def both {α β : Type} : Check α → Check β → Check (α × β)
  | ok a, ok b => ok (a, b)
  | ok _, faulty fields => faulty fields
  | faulty fields, ok _ => faulty fields
  | faulty fields, faulty others => faulty (fields ++ others)

def apply {α β : Type} (f : Check (α → β)) (a : Check α) : Check β :=
  (both f a).map (fun p => p.1 p.2)

instance : Seq Check where
  seq f a := apply f (a ())

instance : Functor Check where
  map := Check.map

def read {α : Type} (read? : Value → Option α) (name : String) (v : Value) : Check α :=
  match read? v with
  | some a => ok a
  | none => faulty [name]

def required {α : Type} (doc : Document) (name : String) (read? : Value → Option α) : Check α :=
  match doc.get? name with
  | some v => read read? name v
  | none => faulty [name]

def optional {α : Type} (doc : Document) (name : String) (default : α)
    (read? : Value → Option α) : Check α :=
  match doc.get? name with
  | some v => read read? name v
  | none => ok default

/-- A field with two names, of which the first one counts. -/
def aliased {α : Type} (doc : Document) (first second : String) (default : α)
    (read? : Value → Option α) : Check α :=
  if doc.has first then optional doc first default read? else optional doc second default read?

/-- Inserts a name into an ascending list, unless it is there. -/
def insertName (name : String) : List String → List String
  | [] => [name]
  | n :: rest =>
    if name = n then n :: rest
    else if name < n then name :: n :: rest
    else n :: insertName name rest

/-- The faulty fields in ascending order, each of them once. -/
def result {α : Type} : Check α → Result α
  | ok a => .ok a
  | faulty fields => .error (.invalid (fields.foldr insertName []))

end Check

/-- The fields of a mapping; nothing else has fields. -/
def Value.fields (v : Value) : Result Document :=
  match v with
  | .mapping entries => .ok entries
  | _ => .error (.invalid [])

end DocGrid

import DocGrid.Time.Iso
import DocGrid.Value.Basic

/-! Reading a textual operand as a value of the kind it is compared with. A text that cannot be
read so stays a text. -/

namespace DocGrid

inductive Target where
  | none
  | text
  | int
  | float
  | bool
  | datetime
  | other
  deriving DecidableEq, Repr

namespace Target

def ofValue : Value → Target
  | .null => none
  | .bool _ => bool
  | .number (.int _) => int
  | .number (.float _) => float
  | .number (.decimal _) => other
  | .text _ => text
  | .datetime _ => datetime
  | _ => other

end Target

def truthOf? (s : String) : Option Bool :=
  let word := Text.lowered (Text.stripped s)
  if word = "true" ∨ word = "1" then some true
  else if word = "false" ∨ word = "0" then some false
  else none

/-- A text as a whole number or, failing that, as a double. -/
def numberOf? (s : String) : Option Number :=
  match Reading.int? s with
  | some n => some (.int n)
  | none => (Reading.float? s).map .float

def castText (target : Target) (s : String) : Value :=
  let read : Option Value :=
    match target with
    | .bool => (truthOf? s).map .bool
    | .int => (numberOf? s).map .number
    | .float => (Reading.float? s).map .float
    | .datetime => (Iso.dateTime? s).map .datetime
    | _ => none
  read.getD (.text s)

def cast (target : Target) : Value → Value
  | .text s => castText target s
  | v => v

/-- Whether a value asks for yes: for texts, anything but nothing, zero and false. -/
def asksYes : Value → Bool
  | .text s => !(["false", "0", ""].contains (Text.lowered (Text.stripped s)))
  | v => v.isTruthy

end DocGrid

import DocGrid.Filter.Cast

/-! The values that texts are compared as. -/

namespace DocGrid

/-- What a text is read as. It stays a text only where it is not a number that was wanted. -/
inductive ReadAs (s : String) : Target → Value → Prop
  | text {target : Target} (h : target = .int ∨ target = .float → Reading.float? s = none) :
      ReadAs s target (.text s)
  | bool (b : Bool) : ReadAs s .bool (.bool b)
  | int (n : Int) : ReadAs s .int (.int n)
  | double (x : Binary64) : ReadAs s .int (.float x)
  | float (x : Binary64) : ReadAs s .float (.float x)
  | datetime (t : DateTime) : ReadAs s .datetime (.datetime t)

theorem readAs_castText (target : Target) (s : String) : ReadAs s target (castText target s) := by
  cases target with
  | int =>
    simp only [castText, numberOf?]
    cases Reading.int? s with
    | some n => exact .int n
    | none =>
      cases hfloat : Reading.float? s with
      | some x => exact .double x
      | none => exact .text fun _ => hfloat
  | float =>
    simp only [castText]
    cases hfloat : Reading.float? s with
    | some x => exact .float x
    | none => exact .text fun _ => hfloat
  | bool =>
    simp only [castText]
    cases truthOf? s with
    | some b => exact .bool b
    | none => exact .text (by simp)
  | datetime =>
    simp only [castText]
    cases Iso.dateTime? s with
    | some t => exact .datetime t
    | none => exact .text (by simp)
  | _ => exact .text (by simp)

end DocGrid

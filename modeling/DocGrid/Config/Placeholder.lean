import DocGrid.Failure
import DocGrid.Text.Split

/-! Placeholders `${env.NAME}`, which stand for the values of variables. A text is cut into pieces
first and filled in then, so that a value is never looked at again. -/

namespace DocGrid

abbrev Environment := List (String × String)

namespace Placeholder

inductive Piece where
  | char (c : Char)
  | hole (name : List Char)
  deriving DecidableEq, Repr

def isNameChar (c : Char) : Bool :=
  c.isAlphanum || c == '_'

def isName : List Char → Bool
  | [] => false
  | c :: rest => (c.isAlpha || c == '_') && rest.all isNameChar

def opening : List Char :=
  "$\x7benv.".toList

/-- The name in a placeholder at the head of the text, and the text after the placeholder. -/
def name? (cs : List Char) : Option (List Char × List Char) :=
  match Text.dropLead? opening cs with
  | none => none
  | some body =>
    let name := body.takeWhile isNameChar
    match body.dropWhile isNameChar with
    | '\x7d' :: rest => if isName name then some (name, rest) else none
    | _ => none

theorem length_name {cs name rest : List Char} (h : name? cs = some (name, rest)) :
    rest.length < cs.length := by
  unfold name? at h
  split at h
  · cases h
  · next body hb =>
    have hl : cs.length = opening.length + body.length := by
      rw [Text.dropLead?_eq_some_iff.mp hb, List.length_append]
    have hd := (List.dropWhile_suffix isNameChar : body.dropWhile isNameChar <:+ body).length_le
    simp only at h
    split at h
    · next more hm =>
      rw [hm, List.length_cons] at hd
      split at h
      · cases h
        omega
      · cases h
    · cases h

def pieces (cs : List Char) : List Piece :=
  match h : name? cs with
  | some (name, rest) =>
    have := length_name h
    .hole name :: pieces rest
  | none =>
    match cs with
    | [] => []
    | c :: rest => .char c :: pieces rest
  termination_by cs.length

namespace Piece

def written : Piece → List Char
  | char c => [c]
  | hole name => opening ++ name ++ ['\x7d']

def fill (env : Environment) : Piece → Result (List Char)
  | char c => .ok [c]
  | hole name =>
    match env.lookup (String.ofList name) with
    | some value => .ok value.toList
    | none => .error (.config (.unsetVariable (String.ofList name)))

end Piece

/-- The text with the values in place of their placeholders. -/
def expand (env : Environment) (cs : List Char) : Result (List Char) := do
  return (← (pieces cs).mapM (Piece.fill env)).flatten

end Placeholder

end DocGrid

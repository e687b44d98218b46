import DocGrid.Text.Blank

/-! The terms of a text search: bare words and quoted phrases, with a hyphen before those that
must not occur. -/

namespace DocGrid

structure SearchTerm where
  negated : Bool
  text : List Char
  deriving DecidableEq, Repr

namespace SearchTerm

/-- The text up to the closing quotation mark, and what follows the mark. -/
def phrase? (cs : List Char) : Option (List Char × List Char) :=
  match cs.dropWhile (· ≠ '"') with
  | [] => none
  | _ :: rest => some (cs.takeWhile (· ≠ '"'), rest)

/-- A quoted phrase with or without its hyphen. -/
def quoted? : List Char → Option (SearchTerm × List Char)
  | '"' :: rest => (phrase? rest).map fun (text, rest) => (⟨false, text⟩, rest)
  | '-' :: '"' :: rest => (phrase? rest).map fun (text, rest) => (⟨true, text⟩, rest)
  | _ => none

/-- A bare word reaches up to white space. A hyphen on its own is a word. -/
def word (cs : List Char) : SearchTerm × List Char :=
  let text := cs.takeWhile (fun c => !Text.isBlank c)
  let rest := cs.dropWhile (fun c => !Text.isBlank c)
  match text with
  | '-' :: c :: more => (⟨true, c :: more⟩, rest)
  | _ => (⟨false, text⟩, rest)

def isVoid (t : SearchTerm) : Bool :=
  t.text.isEmpty || t.text == ['-']

def scan : Nat → List Char → List SearchTerm
  | 0, _ => []
  | _ + 1, [] => []
  | fuel + 1, c :: cs =>
    if Text.isBlank c then scan fuel cs
    else
      let (term, rest) := (quoted? (c :: cs)).getD (word (c :: cs))
      if term.isVoid then scan fuel rest else term :: scan fuel rest

def ofText (s : String) : List SearchTerm :=
  scan s.toList.length s.toList

def wanted (terms : List SearchTerm) : List (List Char) :=
  (terms.filter (fun t => !t.negated)).map (·.text)

def unwanted (terms : List SearchTerm) : List (List Char) :=
  (terms.filter (·.negated)).map (·.text)

end SearchTerm

end DocGrid

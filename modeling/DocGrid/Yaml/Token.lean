import DocGrid.Text.Utf8
import DocGrid.Yaml.Block
import DocGrid.Yaml.Quoted

/-! The tokens of a YAML text. Where the text cannot be read further, the last token says why. -/

namespace DocGrid.Yaml

inductive Directive where
  | version (major : Nat)
  | tag (handle lead : String)
  | other
  deriving Repr

inductive Token where
  | streamEnd
  | directive (d : Directive)
  | documentStart
  | documentEnd
  | blockSequenceStart
  | blockMappingStart
  | blockEnd
  | flowSequenceStart
  | flowMappingStart
  | flowSequenceEnd
  | flowMappingEnd
  | blockEntry
  | flowEntry
  | key
  | value
  | alias (name : String)
  | anchor (name : String)
  | tag (handle : Option String) (suffix : String)
  | scalar (text : List Char) (plain : Bool)
  | broken (reason : Failure)
  deriving Repr

namespace Lexeme

def broken {α : Type} : Result α :=
  .error (.markup .token)

def isNameChar (c : Char) : Bool :=
  c.isAlphanum || c == '-' || c == '_'

def isUriChar (c : Char) : Bool :=
  c.isAlphanum || ("-;/?:@&=+$,_.!~*'()[]".toList).contains c

/-! Names and tags -/

def name (c : Cursor) : Result (String × Cursor) :=
  let (cs, c) := c.run isNameChar
  if cs.isEmpty then broken else .ok (String.ofList cs, c)

/-- The name of an anchor or an alias, after its mark. -/
def anchorName (c : Cursor) : Result (String × Cursor) := do
  let (s, c) ← name c.advance
  if c.spaceAt 0 || ("?:,]\x7d%@`".toList).contains c.peek then return (s, c) else broken

/-- Octets in base sixteen, each after a percent sign. -/
def octets : Nat → Cursor → Result (List UInt8 × Cursor)
  | 0, c => .ok ([], c)
  | fuel + 1, c =>
    if c.peek == '%' then
      let c := c.advance
      let digits := c.rest.take 2
      match Text.hexValue? digits with
      | some n =>
        if digits.length = 2 then do
          let (more, c) ← octets fuel (c.advanceBy 2)
          return (n.toUInt8 :: more, c)
        else broken
      | none => broken
    else .ok ([], c)

def uriPieces : Nat → Cursor → Result (List Char × Cursor)
  | 0, c => .ok ([], c)
  | fuel + 1, c => do
    let (plain, c) := c.run isUriChar
    if c.peek == '%' then
      let (os, c) ← octets c.rest.length c
      match Text.utf8? os with
      | some cs =>
        let (more, c) ← uriPieces fuel c
        return (plain ++ cs ++ more, c)
      | none => broken
    else return (plain, c)

/-- The characters of a tag, some of them written as octets. -/
def uri (c : Cursor) : Result (String × Cursor) := do
  let (cs, after) ← uriPieces c.rest.length.succ c
  if c.rest.length = after.rest.length then broken else return (String.ofList cs, after)

/-- A handle: exclamation marks with a name between them, or a single mark before a space. -/
def handle (c : Cursor) : Result (String × Cursor) :=
  if c.peek != '!' then broken
  else if c.peekAt 1 == ' ' then .ok ("!", c.advance)
  else
    let (cs, after) := c.advance.run isNameChar
    if after.peek == '!' then .ok ("!" ++ String.ofList cs ++ "!", after.advance) else broken

/-- Whether a second exclamation mark follows before the next space. -/
def hasHandle (c : Cursor) : Bool :=
  (c.advance.rest.takeWhile fun ch => ch != ' ' && !isBreak ch).contains '!'

/-- A tag from its exclamation mark on: its handle, if it has one, and the rest of it. -/
def tag (c : Cursor) : Result (Option String × String × Cursor) := do
  let (h, s, c) ←
    if c.peekAt 1 == '<' then do
      let (s, c) ← uri (c.advanceBy 2)
      if c.peek == '>' then pure (none, s, c.advance) else broken
    else if c.spaceAt 1 then pure (none, "!", c.advance)
    else do
      let (h, c) ← if hasHandle c then handle c else pure ("!", c.advance)
      let (s, c) ← uri c
      pure (some h, s, c)
  if c.atGap then return (h, s, c) else broken

/-! Directives -/

def number (c : Cursor) : Result (Nat × Cursor) :=
  let (ds, c) := c.run Reading.isPlain
  if ds.isEmpty then broken
  else if Reading.maxDigits < ds.length then .error .badValue
  else .ok (Reading.natOf ds, c)

def version (c : Cursor) : Result (Directive × Cursor) := do
  let (major, c) ← number c.skipSpaces
  if c.peek != '.' then broken
  let (_, c) ← number c.advance
  if c.atGap then return (.version major, c) else broken

def tagDirective (c : Cursor) : Result (Directive × Cursor) := do
  let (h, c) ← handle c.skipSpaces
  if c.peek != ' ' then broken
  let (s, c) ← uri c.skipSpaces
  if c.atGap then return (.tag h s, c) else broken

/-- A directive from its percent sign on. -/
def directive (c : Cursor) : Result (Directive × Cursor) := do
  let (s, c) ← name c.advance
  if !c.atGap then broken
  let (d, c) ←
    if s = "YAML" then version c
    else if s = "TAG" then tagDirective c
    else pure (.other, c.skip fun ch => !isBreak ch)
  return (d, ← c.endLine)

/-! Plain scalars -/

/-- Whether the character ends a plain scalar, here or as the sign of a value. -/
def endsPlain (flow : Bool) (c : Cursor) : Bool :=
  c.spaceAt 0 || (flow && (",?[]\x7b\x7d".toList).contains c.peek) ||
    (c.peek == ':' && (c.spaceAt 1 || (flow && (",[]\x7b\x7d".toList).contains (c.peekAt 1))))

def plainWord (flow : Bool) : Nat → Cursor → List Char × Cursor
  | 0, c => ([], c)
  | fuel + 1, c =>
    if endsPlain flow c then ([], c)
    else
      let (more, after) := plainWord flow fuel c.advance
      (c.peek :: more, after)

/-- Empty lines after the first line break, or nothing when the document ends there. -/
def plainBreaks : Nat → Cursor → Option (List Char) × Cursor
  | 0, c => (some [], c)
  | fuel + 1, c =>
    if c.peek == ' ' then plainBreaks fuel c.advance
    else
      match c.lineBreak with
      | ([], _) => (some [], c)
      | (found, c) =>
        if c.atDocumentMark then (none, c)
        else
          let (more, c) := plainBreaks fuel c
          (more.map (found ++ ·), c)

/-- Spaces or folded line breaks between two words, whether there was a break, and the place
after them. -/
def plainSpaces (c : Cursor) : List Char × Bool × Cursor :=
  let (blanks, c) := c.run (· == ' ')
  match c.lineBreak with
  | ([], _) => (blanks, false, c)
  | (found, c) =>
    if c.atDocumentMark then ([], true, c)
    else
      match plainBreaks c.rest.length.succ c with
      | (none, c) => ([], true, c)
      | (some more, c) =>
        if found ≠ ['\n'] then (found ++ more, true, c)
        else if more.isEmpty then ([' '], true, c)
        else (more, true, c)

structure Plain where
  text : List Char
  /-- Whether the scalar was followed by a line break. -/
  broke : Bool
  cursor : Cursor

/-- A plain scalar, which goes on over lines that are indented far enough. -/
def plain (flow : Bool) (indent : Int) : Nat → Cursor → Plain
  | 0, c => ⟨[], false, c⟩
  | fuel + 1, c =>
    if c.peek == '#' then ⟨[], false, c⟩
    else
      let (word, c) := plainWord flow c.rest.length.succ c
      if word.isEmpty then ⟨[], false, c⟩
      else
        let (gap, broke, c) := plainSpaces c
        if gap.isEmpty || c.peek == '#' || (!flow && decide ((c.column : Int) < indent)) then
          ⟨word, broke, c⟩
        else
          let more := plain flow indent fuel c
          if more.text.isEmpty then ⟨word, broke, more.cursor⟩
          else ⟨word ++ gap ++ more.text, more.broke, more.cursor⟩

end Lexeme

end DocGrid.Yaml

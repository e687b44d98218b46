import DocGrid.Failure

/-! A place in a YAML text. -/

namespace DocGrid.Yaml

def isBreak (c : Char) : Bool :=
  c == '\n' || c == '\r' || c == '\x85' || c == '\u2028' || c == '\u2029'

/-- Whether the character may stand in a text at all. -/
def isAllowed (c : Char) : Bool :=
  c == '\t' || c == '\n' || c == '\r' || (' ' ≤ c && c ≤ '~') || c == '\x85' ||
    ('\xa0' ≤ c && c != '\ufffe' && c != '\uffff')

structure Cursor where
  rest : List Char
  index : Nat
  line : Nat
  column : Nat

namespace Cursor

def start (cs : List Char) : Cursor :=
  ⟨cs, 0, 0, 0⟩

/-- The next character, or the character zero at the end. -/
def peek (c : Cursor) : Char :=
  c.rest.headD '\x00'

def peekAt (c : Cursor) (n : Nat) : Char :=
  (c.rest.drop n).headD '\x00'

def atEnd (c : Cursor) : Bool :=
  c.rest.isEmpty

/-- Whether a line or the text ends here. -/
def atBreak (c : Cursor) : Bool :=
  c.atEnd || isBreak c.peek

/-- Whether a space, a line break or the end comes after `n` characters. -/
def spaceAt (c : Cursor) (n : Nat) : Bool :=
  let ch := c.peekAt n
  ch == '\x00' || ch == ' ' || ch == '\t' || isBreak ch

/-- Whether a space, a line break or the end is here. A tab is not enough. -/
def atGap (c : Cursor) : Bool :=
  c.atBreak || c.peek == ' '

/-- Goes over one character. A byte order mark takes no room in its line. -/
def advance (c : Cursor) : Cursor :=
  match c.rest with
  | [] => c
  | ch :: rest =>
    if isBreak ch && !(ch == '\r' && rest.head? == some '\n') then
      ⟨rest, c.index + 1, c.line + 1, 0⟩
    else ⟨rest, c.index + 1, c.line, if ch == '\ufeff' then c.column else c.column + 1⟩

def advanceBy : Nat → Cursor → Cursor
  | 0, c => c
  | n + 1, c => advanceBy n c.advance

/-- The longest run of characters of a kind, and the place after it. -/
def run (c : Cursor) (kind : Char → Bool) : List Char × Cursor :=
  let taken := c.rest.takeWhile kind
  (taken, c.advanceBy taken.length)

def skip (c : Cursor) (kind : Char → Bool) : Cursor :=
  (c.run kind).2

def skipSpaces (c : Cursor) : Cursor :=
  c.skip (· == ' ')

/-- The line break that is here, if there is one: most kinds count as a line feed. -/
def lineBreak (c : Cursor) : List Char × Cursor :=
  match c.rest with
  | '\r' :: '\n' :: _ => (['\n'], c.advanceBy 2)
  | ch :: _ =>
    if ch == '\u2028' || ch == '\u2029' then ([ch], c.advance)
    else if isBreak ch then (['\n'], c.advance)
    else ([], c)
  | [] => ([], c)

/-- Whether three hyphens or three points stand alone here. -/
def atDocumentMark (c : Cursor) : Bool :=
  let mark := c.rest.take 3
  (mark == ['-', '-', '-'] || mark == ['.', '.', '.']) && c.spaceAt 3

/-- Skips spaces, a comment and the end of a line that must hold nothing else. -/
def endLine (c : Cursor) : Result Cursor :=
  let c := c.skipSpaces
  let c := if c.peek == '#' then c.skip (fun ch => !isBreak ch) else c
  if c.atBreak then .ok c.lineBreak.2 else .error (.markup .token)

end Cursor

end DocGrid.Yaml

import DocGrid.Yaml.Cursor

/-! Quoted scalars. Line breaks inside of them are folded: one becomes a space, of several the first
one is dropped. -/

namespace DocGrid.Yaml.Quoted

def escapes : List (Char × Char) :=
  [('0', '\x00'), ('a', '\x07'), ('b', '\x08'), ('t', '\t'), ('\t', '\t'), ('n', '\n'),
    ('v', '\x0b'), ('f', '\x0c'), ('r', '\r'), ('e', '\x1b'), (' ', ' '), ('"', '"'),
    ('\\', '\\'), ('/', '/'), ('N', '\x85'), ('_', '\xa0'), ('L', '\u2028'), ('P', '\u2029')]

/-- The number of digits in base sixteen after the letter of an escape. -/
def digitCount? : Char → Option Nat
  | 'x' => some 2
  | 'u' => some 4
  | 'U' => some 8
  | _ => none

/-- A code point. A surrogate is replaced, since it is no character. -/
def charOf (n : Nat) : Result Char :=
  if 0x80000000 ≤ n then .error .tooLarge
  else if 0x10FFFF < n then .error .badValue
  else if 0xD800 ≤ n ∧ n < 0xE000 then .ok '\ufffd'
  else .ok (Char.ofNat n)

/-- Empty lines after a line break. A document may not end inside of a scalar. -/
def breaks : Nat → Cursor → Result (List Char × Cursor)
  | 0, c => .ok ([], c)
  | fuel + 1, c =>
    if c.atDocumentMark then .error (.markup .token)
    else
      let c := c.skip (fun ch => ch == ' ' || ch == '\t')
      match c.lineBreak with
      | ([], _) => .ok ([], c)
      | (found, c) => do
        let (more, c) ← breaks fuel c
        return (found ++ more, c)

/-- Spaces, or a line break with what is left of it. -/
def spaces (c : Cursor) : Result (List Char × Cursor) := do
  let (blanks, c) := c.run (fun ch => ch == ' ' || ch == '\t')
  if c.atEnd then throw (.markup .token)
  match c.lineBreak with
  | ([], _) => return (blanks, c)
  | (found, c) =>
    let (more, c) ← breaks c.rest.length.succ c
    if found ≠ ['\n'] then return (found ++ more, c)
    else if more.isEmpty then return ([' '], c)
    else return (more, c)

/-- The character that an escape stands for, after its backslash. -/
def escape (c : Cursor) : Result (List Char × Cursor) :=
  match escapes.find? (fun e => e.1 == c.peek && !c.atEnd) with
  | some e => .ok ([e.2], c.advance)
  | none =>
    match digitCount? c.peek with
    | some n =>
      let c := c.advance
      let digits := c.rest.take n
      match Text.hexValue? digits with
      | some code =>
        if digits.length = n then do return ([← charOf code], c.advanceBy n)
        else .error (.markup .token)
      | none => .error (.markup .token)
    | none =>
      match c.lineBreak with
      | ([], _) => .error (.markup .token)
      | (_, c) => breaks c.rest.length.succ c

def isOrdinary (c : Char) : Bool :=
  c != '\'' && c != '"' && c != '\\' && c != ' ' && c != '\t' && !isBreak c

/-- The text up to white space or the closing quotation mark. -/
def word (double : Bool) : Nat → Cursor → Result (List Char × Cursor)
  | 0, c => .ok ([], c)
  | fuel + 1, c =>
    let (plain, c) := c.run isOrdinary
    let continued (found : List Char) (c : Cursor) : Result (List Char × Cursor) := do
      let (more, c) ← word double fuel c
      return (plain ++ found ++ more, c)
    let ch := c.peek
    if !double && ch == '\'' && c.peekAt 1 == '\'' then continued ['\''] (c.advanceBy 2)
    else if (double && ch == '\'') || (!double && (ch == '"' || ch == '\\')) then
      continued [ch] c.advance
    else if double && ch == '\\' then do
      let (found, c) ← escape c.advance
      continued found c
    else .ok (plain, c)

/-- Words and spaces up to the closing quotation mark, and the place after it. -/
def body (double : Bool) : Nat → Cursor → Result (List Char × Cursor)
  | 0, _ => .error (.markup .token)
  | fuel + 1, c =>
    if c.peek == (if double then '"' else '\'') then .ok ([], c.advance)
    else do
      let (gap, c) ← spaces c
      let (text, c) ← word double c.rest.length.succ c
      let (more, c) ← body double fuel c
      return (gap ++ text ++ more, c)

/-- A scalar from its opening quotation mark on. -/
def scan (double : Bool) (c : Cursor) : Result (List Char × Cursor) := do
  let (text, c) ← word double c.rest.length.succ c.advance
  let (more, c) ← body double c.rest.length.succ c
  return (text ++ more, c)

end DocGrid.Yaml.Quoted

import DocGrid.Yaml.Cursor

/-! Block scalars: the lines below a header, taken literally or folded. -/

namespace DocGrid.Yaml.Block

/-- What becomes of the line breaks at the end of a block. -/
inductive Chomping where
  | strip
  | clip
  | keep
  deriving DecidableEq, Repr

structure Header where
  chomping : Chomping
  indentation : Option Nat

def chomping? : Char → Option Chomping
  | '+' => some .keep
  | '-' => some .strip
  | _ => none

/-- A digit for the indentation, which is not zero. -/
def indentation (c : Cursor) : Result (Option Nat × Cursor) :=
  if Reading.isPlain c.peek then
    if c.peek == '0' then .error (.markup .token)
    else .ok (some (c.peek.toNat - '0'.toNat), c.advance)
  else .ok (none, c)

/-- The signs after the character that starts a block, in either order. -/
def header (c : Cursor) : Result (Header × Cursor) := do
  let (h, c) ← match chomping? c.peek with
    | some chomping => do
      let (n, c) ← indentation c.advance
      pure (Header.mk chomping n, c)
    | none => do
      let (n, c) ← indentation c
      match n.bind (fun _ => chomping? c.peek) with
      | some chomping => pure (Header.mk chomping n, c.advance)
      | none => pure (Header.mk .clip n, c)
  if c.atGap then return (h, c) else throw (.markup .token)

/-- Empty lines before the first line of a block, and the widest indentation among them. -/
def leading : Nat → Nat → Cursor → List Char × Nat × Cursor
  | 0, widest, c => ([], widest, c)
  | fuel + 1, widest, c =>
    if c.peek == ' ' then
      let c := c.advance
      leading fuel (max widest c.column) c
    else
      match c.lineBreak with
      | ([], _) => ([], widest, c)
      | (found, c) =>
        let (more, widest, c) := leading fuel widest c
        (found ++ more, widest, c)

def indent (column : Nat) : Nat → Cursor → Cursor
  | 0, c => c
  | fuel + 1, c => if c.column < column && c.peek == ' ' then indent column fuel c.advance else c

/-- Empty lines, and the place where the next line starts. -/
def breaks (column : Nat) : Nat → Cursor → List Char × Cursor
  | 0, c => ([], c)
  | fuel + 1, c =>
    let c := indent column column.succ c
    match c.lineBreak with
    | ([], _) => ([], c)
    | (found, c) =>
      let (more, c) := breaks column fuel c
      (found ++ more, c)

/-- Whether a line starts with white space, so that it is not folded. -/
def isSpaced (c : Cursor) : Bool :=
  c.peek == ' ' || c.peek == '\t'

/-- What stands for the break between two lines with the given empty lines between them. -/
def separator (folded : Bool) (found gap : List Char) (spacedBefore spacedAfter : Bool) :
    List Char :=
  if folded && found == ['\n'] && !spacedBefore && !spacedAfter then
    if gap.isEmpty then [' '] else []
  else found

/-- The lines of a block from its first one on, with the last line break and the empty lines
after it apart. -/
def lines (folded : Bool) (column : Nat) : Nat → Cursor → List Char × List Char × List Char × Cursor
  | 0, c => ([], [], [], c)
  | fuel + 1, c =>
    let spaced := isSpaced c
    let (line, c) := c.run (fun ch => !isBreak ch)
    let (found, c) := c.lineBreak
    let (gap, c) := breaks column c.rest.length.succ c
    if c.column == column && !c.atEnd then
      let (more, last, tail, after) := lines folded column fuel c
      (line ++ separator folded found gap spaced (isSpaced c) ++ gap ++ more, last, tail, after)
    else (line, found, gap, c)

def chomp : Chomping → List Char → List Char → List Char
  | .strip, _, _ => []
  | .clip, last, _ => last
  | .keep, last, tail => last ++ tail

/-- A scalar from the character that starts it on, inside of a collection that is indented as
`parent` says. -/
def scan (folded : Bool) (parent : Int) (c : Cursor) : Result (List Char × Cursor) := do
  let (h, c) ← header c.advance
  let c ← c.endLine
  let least := (max (parent + 1) 1).toNat
  let (gap, column, c) := match h.indentation with
    | some n =>
      let column := least + n - 1
      let (gap, c) := breaks column c.rest.length.succ c
      (gap, column, c)
    | none =>
      let (gap, widest, c) := leading c.rest.length.succ 0 c
      (gap, max least widest, c)
  if c.column == column && !c.atEnd then
    let (text, last, tail, c) := lines folded column c.rest.length.succ c
    return (gap ++ text ++ chomp h.chomping last tail, c)
  else return (chomp h.chomping [] gap, c)

end DocGrid.Yaml.Block

import DocGrid.Pattern.Node

/-! Searching a text for a match of a pattern by trying the alternatives in order. -/

namespace DocGrid.Pattern

/-- A place in the text, the characters before it nearest first, and the ends of the groups
passed so far: the start of group `g` is mark `2 * g`, its end mark `2 * g + 1`. -/
structure Place where
  before : List Char
  after : List Char
  marks : List (Nat × Nat)

namespace Place

def position (p : Place) : Nat :=
  p.before.length

def mark? (p : Place) (m : Nat) : Option Nat :=
  (p.marks.find? (fun entry => entry.1 == m)).map (·.2)

def setMark (p : Place) (m : Nat) : Place :=
  { p with marks := (m, p.position) :: p.marks }

/-- Where a group started and ended, if it has been passed. -/
def span? (p : Place) (number : Nat) : Option (Nat × Nat) :=
  match p.mark? (2 * number), p.mark? (2 * number + 1) with
  | some s, some e => if s ≤ e then some (s, e) else none
  | _, _ => none

def advance? (p : Place) : Option (Char × Place) :=
  match p.after with
  | [] => none
  | c :: rest => some (c, { p with before := c :: p.before, after := rest })

/-- Steps over a number of characters to the left. -/
def back? (p : Place) : Nat → Option Place
  | 0 => some p
  | n + 1 =>
    match p.before with
    | [] => none
    | c :: rest => Place.back? { p with before := rest, after := c :: p.after } n

def isBoundary (p : Place) (ascii : Bool) : Bool :=
  p.before.head?.any (isWordChar ascii) != p.after.head?.any (isWordChar ascii)

def holds (p : Place) : Anchor → Bool
  | .textStart => p.before.isEmpty
  | .textEnd => p.after.isEmpty
  | .lastLineEnd => p.after.isEmpty || p.after == ['\n']
  | .lineStart => p.before.isEmpty || p.before.head? == some '\n'
  | .lineEnd => p.after.isEmpty || p.after.head? == some '\n'
  | .boundary ascii => p.isBoundary ascii
  | .noBoundary ascii => !(p.before.isEmpty && p.after.isEmpty) && !p.isBoundary ascii

def sameIgnoring (ascii : Bool) (c d : Char) : Bool :=
  if ascii then (asciiVariants c).contains d else Text.lowerChar c == Text.lowerChar d

/-- Steps over a repetition of the given characters. -/
def repeats? (same : Char → Char → Bool) (p : Place) : List Char → Option Place
  | [] => some p
  | c :: rest =>
    match p.advance? with
    | some (d, q) => if same c d then q.repeats? same rest else none
    | none => none

/-- Steps over the characters that a group matched. -/
def reference? (p : Place) (number : Nat) (ignoring ascii : Bool) : Option Place :=
  match p.span? number with
  | none => none
  | some (s, e) =>
    let matched := ((p.before.reverse ++ p.after).drop s).take (e - s)
    p.repeats? (if ignoring then sameIgnoring ascii else (· == ·)) matched

end Place

/-- What is to be matched after a node. -/
abbrev Rest := Place → Option Place

/-- Repeats a body. Once the least number is reached, a round that starts where the one before it
started is not tried. -/
def greedyLoop (body : Rest → Rest) (least : Nat) (most : Option Nat) (k : Rest) :
    Nat → Nat → Option Nat → Rest
  | 0, _, _, p => k p
  | fuel + 1, count, last, p =>
    if count < least then body (greedyLoop body least most k fuel (count + 1) last) p
    else if most.all (count < ·) && last != some p.position then
      match body (greedyLoop body least most k fuel (count + 1) (some p.position)) p with
      | some q => some q
      | none => k p
    else k p

def lazyLoop (body : Rest → Rest) (least : Nat) (most : Option Nat) (k : Rest) :
    Nat → Nat → Option Nat → Rest
  | 0, _, _, p => k p
  | fuel + 1, count, last, p =>
    if count < least then body (lazyLoop body least most k fuel (count + 1) last) p
    else
      match k p with
      | some q => some q
      | none =>
        if most.all (count < ·) && last != some p.position then
          body (lazyLoop body least most k fuel (count + 1) (some p.position)) p
        else none

/-- Repeats a body as often as it matches, and never gives a round back. -/
def possessiveLoop (body : Rest → Rest) (least : Nat) (most : Option Nat) :
    Nat → Nat → Option Nat → Rest
  | 0, _, _, p => some p
  | fuel + 1, count, last, p =>
    if count < least then
      (body some p).bind (possessiveLoop body least most fuel (count + 1) last)
    else if most.all (count < ·) && last != some p.position then
      match body some p with
      | some q => possessiveLoop body least most fuel (count + 1) (some p.position) q
      | none => some p
    else some p

/-- More rounds than this are never made: beyond the least number each one starts further on. -/
def rounds (least : Nat) (p : Place) : Nat :=
  least + p.after.length + 2

namespace Node

/-- Matches the node at a place and then the rest. -/
def run (ignoring : Bool) : Node → Rest → Rest
  | empty, k, p => k p
  | seq a b, k, p => a.run ignoring (b.run ignoring k) p
  | alternative a b, k, p =>
    match a.run ignoring k p with
    | some q => some q
    | none => b.run ignoring k p
  | char test, k, p =>
    match p.advance? with
    | some (c, q) => if test.holds ignoring c then k q else none
    | none => none
  | anchor a, k, p => if p.holds a then k p else none
  | group none body, k, p => body.run ignoring k p
  | group (some g) body, k, p =>
    body.run ignoring (fun q => k (q.setMark (2 * g + 1))) (p.setMark (2 * g))
  | atomic body, k, p => (body.run ignoring some p).bind k
  | ahead negated body, k, p =>
    match body.run ignoring some p with
    | some q => if negated then none else k { p with marks := q.marks }
    | none => if negated then k p else none
  | behind negated body, k, p =>
    match (p.back? body.width.1).bind (body.run ignoring some) with
    | some q => if negated then none else k { p with marks := q.marks }
    | none => if negated then k p else none
  | loop .greedy least most body, k, p =>
    greedyLoop (body.run ignoring) least most k (rounds least p) 0 none p
  | loop .lazy least most body, k, p =>
    lazyLoop (body.run ignoring) least most k (rounds least p) 0 none p
  | loop .possessive least most body, k, p =>
    (possessiveLoop (body.run ignoring) least most (rounds least p) 0 none p).bind k
  | reference g _ ignoreCase ascii, k, p =>
    (p.reference? g (ignoreCase.getD ignoring) ascii).bind k
  | conditional g yes no, k, p =>
    if (p.span? g).isSome then yes.run ignoring k p else no.run ignoring k p

def searchFrom (n : Node) (ignoring : Bool) : List Char → List Char → Bool
  | before, [] => (n.run ignoring some ⟨before, [], []⟩).isSome
  | before, c :: rest =>
    (n.run ignoring some ⟨before, c :: rest, []⟩).isSome || n.searchFrom ignoring (c :: before) rest

def search (n : Node) (ignoring : Bool) (cs : List Char) : Bool :=
  n.searchFrom ignoring [] cs

end Node

end DocGrid.Pattern

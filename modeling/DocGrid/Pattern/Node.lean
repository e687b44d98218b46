import DocGrid.Pattern.CharTest

/-! The tree of a pattern, and how many characters its matches have. -/

namespace DocGrid.Pattern

inductive Anchor where
  | textStart
  | textEnd
  /-- The end of the text, or before a line break that ends it. -/
  | lastLineEnd
  | lineStart
  | lineEnd
  | boundary (ascii : Bool)
  | noBoundary (ascii : Bool)
  deriving DecidableEq, Repr

inductive Greed where
  | greedy
  | lazy
  | possessive
  deriving DecidableEq, Repr

/-- The least and the greatest number of characters. -/
abbrev Width := Nat × Nat

inductive Node where
  | empty
  | seq (first second : Node)
  | alternative (first second : Node)
  | char (test : CharTest)
  | anchor (a : Anchor)
  /-- A group, which keeps what it matched if it has a number. -/
  | group (number : Option Nat) (body : Node)
  | atomic (body : Node)
  | ahead (negated : Bool) (body : Node)
  /-- A look at the text before. Its body must have one width. -/
  | behind (negated : Bool) (body : Node)
  | loop (greed : Greed) (least : Nat) (most : Option Nat) (body : Node)
  | reference (number : Nat) (width : Width) (ignoreCase : Option Bool) (ascii : Bool)
  | conditional (number : Nat) (yes no : Node)
  deriving Repr

/-- Widths are not counted beyond this bound. -/
def widthBound : Nat := 0x10000000000000000

namespace Node

def rawWidth : Node → Width
  | empty => (0, 0)
  | seq a b => (a.rawWidth.1 + b.rawWidth.1, a.rawWidth.2 + b.rawWidth.2)
  | alternative a b => (min a.rawWidth.1 b.rawWidth.1, max a.rawWidth.2 b.rawWidth.2)
  | char _ => (1, 1)
  | anchor _ => (0, 0)
  | group _ body => body.rawWidth
  | atomic body => body.rawWidth
  | ahead .. => (0, 0)
  | behind .. => (0, 0)
  | loop _ least most body =>
    let (low, high) := body.rawWidth
    (low * least,
      match most with
      | some n => high * n
      | none => if high = 0 then 0 else widthBound)
  | reference _ width _ _ => width
  | conditional _ yes no =>
    (min yes.rawWidth.1 no.rawWidth.1, max yes.rawWidth.2 no.rawWidth.2)

def width (n : Node) : Width :=
  (min n.rawWidth.1 widthBound, min n.rawWidth.2 widthBound)

/-- Whether every look at the text before has a fixed width. -/
def looksFixed : Node → Bool
  | seq a b => a.looksFixed && b.looksFixed
  | alternative a b => a.looksFixed && b.looksFixed
  | group _ body => body.looksFixed
  | atomic body => body.looksFixed
  | ahead _ body => body.looksFixed
  | behind _ body =>
    decide (body.width.1 = body.width.2) && decide (body.width.1 < 0x100000000) && body.looksFixed
  | loop _ _ _ body => body.looksFixed
  | conditional _ yes no => yes.looksFixed && no.looksFixed
  | _ => true

def hasLoop : Node → Bool
  | seq a b => a.hasLoop || b.hasLoop
  | alternative a b => a.hasLoop || b.hasLoop
  | group _ body => body.hasLoop
  | atomic body => body.hasLoop
  | ahead _ body => body.hasLoop
  | behind _ body => body.hasLoop
  | loop .. => true
  | conditional _ yes no => yes.hasLoop || no.hasLoop
  | _ => false

def isAnchor : Node → Bool
  | anchor _ => true
  | _ => false

def isLoop : Node → Bool
  | loop .. => true
  | _ => false

end Node

end DocGrid.Pattern

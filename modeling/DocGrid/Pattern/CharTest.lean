import DocGrid.Text.Blank
import DocGrid.Text.Case
import DocGrid.Text.Digit
import DocGrid.Text.Word

/-! Tests of a single character in a pattern. -/

namespace DocGrid.Pattern

inductive Kind where
  | digit
  | space
  | word
  deriving DecidableEq, Repr

def isAsciiDigit (c : Char) : Bool :=
  decide (48 ≤ c.toNat) && decide (c.toNat ≤ 57)

def isAsciiLetter (c : Char) : Bool :=
  (decide (65 ≤ c.toNat) && decide (c.toNat ≤ 90)) ||
    (decide (97 ≤ c.toNat) && decide (c.toNat ≤ 122))

def isWordChar (ascii : Bool) (c : Char) : Bool :=
  if ascii then isAsciiDigit c || isAsciiLetter c || c == '_' else Text.isWord c

def Kind.holds (ascii : Bool) (c : Char) : Kind → Bool
  | digit => if ascii then isAsciiDigit c else Text.isDigit c
  | space =>
    if ascii then c == ' ' || (decide (9 ≤ c.toNat) && decide (c.toNat ≤ 13)) else Text.isBlank c
  | word => isWordChar ascii c

/-- A member of a set of characters. Code points that belong to no character are allowed. -/
inductive Member where
  | code (n : Nat)
  | range (low high : Nat)
  | kind (k : Kind) (negated : Bool)
  deriving DecidableEq, Repr

/-- Whether letter case counts is settled by the pattern, or else by whoever searches. -/
structure CharTest where
  negated : Bool
  members : List Member
  ignoreCase : Option Bool
  ascii : Bool
  deriving DecidableEq, Repr

/-- The capital and small letter of an ASCII letter. -/
def asciiVariants (c : Char) : List Char :=
  if isAsciiLetter c then [c, Char.ofNat (if c.toNat < 97 then c.toNat + 32 else c.toNat - 32)]
  else [c]

def Member.admits (ascii : Bool) (c : Char) (forms : List Char) : Member → Bool
  | code n => forms.any (fun d => d.toNat == n)
  | range low high => forms.any (fun d => decide (low ≤ d.toNat) && decide (d.toNat ≤ high))
  | kind k negated => k.holds ascii c != negated

namespace CharTest

/-- The characters that count as `c`. -/
def forms (t : CharTest) (ignoring : Bool) (c : Char) : List Char :=
  if t.ignoreCase.getD ignoring then
    if t.ascii then asciiVariants c else Text.caseVariants c
  else [c]

def holds (t : CharTest) (ignoring : Bool) (c : Char) : Bool :=
  t.members.any (·.admits t.ascii c (t.forms ignoring c)) != t.negated

end CharTest

end DocGrid.Pattern

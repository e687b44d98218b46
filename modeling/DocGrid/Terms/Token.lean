/-! Cutting a filter text into clauses such as `age(gte:18)` and the delimiters between them.
What is neither is passed over. -/

namespace DocGrid

inductive TokenKind where
  | clause
  | delimiter
  deriving DecidableEq, Repr

structure Token where
  kind : TokenKind
  text : List Char
  position : Nat
  deriving DecidableEq, Repr

namespace Token

def isClause (t : Token) : Bool :=
  t.kind == .clause

def isDelimiter (c : Char) : Bool :=
  c == ',' || c == ';'

def isParenthesis (c : Char) : Bool :=
  c == '(' || c == ')'

/-- The clause at the start of a text: a name, and an argument list up to the first closing
parenthesis, neither of them empty. -/
def clauseAt? (cs : List Char) : Option (List Char) :=
  let name := cs.takeWhile (fun c => !isParenthesis c)
  match cs.dropWhile (fun c => !isParenthesis c) with
  | '(' :: rest =>
    let inner := rest.takeWhile (· ≠ ')')
    match rest.dropWhile (· ≠ ')') with
    | _ :: _ =>
      if name.isEmpty || inner.isEmpty then none else some (name ++ '(' :: inner ++ [')'])
    | [] => none
  | _ => none

/-- The token at the start of a text. -/
def tokenAt? (position : Nat) (cs : List Char) : Option Token :=
  match cs with
  | [] => none
  | c :: _ =>
    if isDelimiter c then some ⟨.delimiter, [c], position⟩
    else (clauseAt? cs).map (fun text => ⟨.clause, text, position⟩)

/-- Reads tokens from the left. Where there is none, one character is passed over. -/
def scan : Nat → Nat → List Char → List Token
  | 0, _, _ => []
  | _ + 1, _, [] => []
  | fuel + 1, position, c :: cs =>
    match tokenAt? position (c :: cs) with
    | some t => t :: scan fuel (position + t.text.length) ((c :: cs).drop t.text.length)
    | none => scan fuel (position + 1) cs

/-- The tokens of a filter text, or none when there is no clause among them. -/
def ofText (s : String) : List Token :=
  let found := scan s.toList.length 0 s.toList
  if found.any isClause then found else []

/-- Groups clauses from the left. A clause directly after a semicolon opens a group. -/
def groupsFrom (afterOr : Bool) (current : List Token) : List Token → List (List Token)
  | [] => if current.isEmpty then [] else [current]
  | t :: rest =>
    if t.isClause then
      if afterOr && !current.isEmpty then current :: groupsFrom false [t] rest
      else groupsFrom false (current ++ [t]) rest
    else groupsFrom (t.text == [';']) current rest

/-- The clauses in groups, of which one has to hold with all its clauses. -/
def groups (tokens : List Token) : List (List Token) :=
  groupsFrom false [] tokens

end Token

end DocGrid

import DocGrid.Yaml.Token

/-! Cutting a YAML text into tokens. A key without a mark of its own is recognised by the colon
after it, so that its tokens are put in later. -/

namespace DocGrid.Yaml

/-- The place of what may turn out to be a key. -/
structure PossibleKey where
  flow : Nat
  /-- The number of tokens before it. -/
  number : Nat
  /-- Whether it has to be a key, because it stands where the keys of a mapping stand. -/
  required : Bool
  place : Cursor

structure Lexer where
  cursor : Cursor
  tokens : List Token
  flow : Nat
  indent : Int
  indents : List Int
  allowKey : Bool
  keys : List PossibleKey

namespace Lexer

def start (cs : List Char) : Lexer :=
  ⟨.start cs, [], 0, -1, [], true, []⟩

def inFlow (s : Lexer) : Bool :=
  s.flow != 0

def column (s : Lexer) : Int :=
  s.cursor.column

def push (s : Lexer) (t : Token) : Lexer :=
  { s with tokens := s.tokens ++ [t] }

def pushAt (s : Lexer) (number : Nat) (t : Token) : Lexer :=
  { s with tokens := s.tokens.take number ++ t :: s.tokens.drop number }

/-- Takes `n` characters as a token. -/
def take (s : Lexer) (n : Nat) (t : Token) : Lexer :=
  { s.push t with cursor := s.cursor.advanceBy n }

/-! Keys -/

/-- Whether the place of a possible key is too far back: keys stay on one line, and are short. -/
def isStale (s : Lexer) (k : PossibleKey) : Bool :=
  k.place.line != s.cursor.line || decide (1024 < s.cursor.index - k.place.index)

/-- Drops possible keys, of which none may be required. -/
def dropKeys (s : Lexer) (drop : PossibleKey → Bool) : Result Lexer :=
  if s.keys.any (fun k => drop k && k.required) then Lexeme.broken
  else .ok { s with keys := s.keys.filter fun k => !drop k }

def dropStale (s : Lexer) : Result Lexer :=
  s.dropKeys s.isStale

def dropHere (s : Lexer) : Result Lexer :=
  s.dropKeys fun k => k.flow == s.flow

def keyHere? (s : Lexer) : Option PossibleKey :=
  s.keys.find? fun k => k.flow == s.flow

/-- Notes that the next token may be a key. -/
def saveKey (s : Lexer) : Result Lexer :=
  if s.allowKey then do
    let s ← s.dropHere
    let required := !s.inFlow && s.indent == s.column
    return { s with keys := ⟨s.flow, s.tokens.length, required, s.cursor⟩ :: s.keys }
  else .ok s

/-- The number of the first token that may still become a key; the tokens before it are settled. -/
def settled (s : Lexer) : Nat :=
  (s.keys.map (·.number)).foldl min s.tokens.length

/-! Indentation -/

/-- Ends the blocks that are indented further than the column. -/
def unwind (column : Int) : List Int → Lexer → Lexer
  | [], s => s
  | outer :: rest, s =>
    if !s.inFlow && column < s.indent then
      unwind column rest { s.push .blockEnd with indent := outer, indents := rest }
    else s

def unwindTo (s : Lexer) (column : Int) : Lexer :=
  unwind column s.indents s

/-- Starts a block that is indented further than the one around it. -/
def indentTo (s : Lexer) (column : Int) (number : Nat) (t : Token) : Lexer :=
  if s.indent < column then
    { s.pushAt number t with indent := column, indents := s.indent :: s.indents }
  else s

/-! White space -/

/-- Skips spaces, comments and line breaks. After a line break a key may follow. -/
def skipGap : Nat → Lexer → Lexer
  | 0, s => s
  | fuel + 1, s =>
    let c := s.cursor.skipSpaces
    let c := if c.peek == '#' then c.skip (fun ch => !isBreak ch) else c
    match c.lineBreak with
    | ([], _) => { s with cursor := c }
    | (_, c) => skipGap fuel { s with cursor := c, allowKey := s.allowKey || !s.inFlow }

/-- A byte order mark may come first. -/
def toNext (s : Lexer) : Lexer :=
  let s := if s.cursor.index == 0 && s.cursor.peek == '\ufeff' then
    { s with cursor := s.cursor.advance } else s
  skipGap s.cursor.rest.length.succ s

/-! Tokens of each kind -/

/-- Ends all blocks before a directive or a mark between documents. -/
def closeAll (s : Lexer) : Result Lexer := do
  let s ← (s.unwindTo (-1)).dropHere
  return { s with allowKey := false }

def streamEnd (s : Lexer) : Result Lexer := do
  return (← s.closeAll).push .streamEnd

def directive (s : Lexer) : Result Lexer := do
  let s ← s.closeAll
  let (d, c) ← Lexeme.directive s.cursor
  return { s.push (.directive d) with cursor := c }

def documentMark (s : Lexer) (t : Token) : Result Lexer := do
  return (← s.closeAll).take 3 t

def flowStart (s : Lexer) (t : Token) : Result Lexer := do
  let s ← s.saveKey
  return { s.take 1 t with flow := s.flow + 1, allowKey := true }

def flowEnd (s : Lexer) (t : Token) : Result Lexer := do
  let s ← s.dropHere
  return { s.take 1 t with flow := s.flow - 1, allowKey := false }

def flowEntry (s : Lexer) : Result Lexer := do
  let s ← s.dropHere
  return { s.take 1 .flowEntry with allowKey := true }

/-- Starts an entry or a key of a block, which only may stand where a key may. -/
def blockItem (s : Lexer) (block item : Token) (allowKey : Bool) : Result Lexer := do
  let s ←
    if s.inFlow then pure s
    else if s.allowKey then pure (s.indentTo s.column s.tokens.length block)
    else Lexeme.broken
  let s ← { s with allowKey := allowKey }.dropHere
  return s.take 1 item

def blockEntry (s : Lexer) : Result Lexer :=
  s.blockItem .blockSequenceStart .blockEntry true

def key (s : Lexer) : Result Lexer :=
  s.blockItem .blockMappingStart .key (!s.inFlow)

/-- A colon after a possible key makes it a key. -/
def value (s : Lexer) : Result Lexer :=
  match s.keyHere? with
  | some k =>
    let s := { s with keys := s.keys.filter fun k => k.flow != s.flow, allowKey := false }
    let s := s.pushAt k.number .key
    let s := if s.inFlow then s else s.indentTo k.place.column k.number .blockMappingStart
    .ok (s.take 1 .value)
  | none => s.blockItem .blockMappingStart .value (!s.inFlow)

/-- An anchor, an alias, a tag or a scalar, which may be a key. -/
def node (s : Lexer) (scan : Cursor → Result (Token × Cursor)) : Result Lexer := do
  let s ← s.saveKey
  let (t, c) ← scan s.cursor
  return { s.push t with cursor := c, allowKey := false }

def named (make : String → Token) (c : Cursor) : Result (Token × Cursor) := do
  let (s, c) ← Lexeme.anchorName c
  return (make s, c)

def tag (c : Cursor) : Result (Token × Cursor) := do
  let (h, s, c) ← Lexeme.tag c
  return (.tag h s, c)

def quoted (double : Bool) (c : Cursor) : Result (Token × Cursor) := do
  let (text, c) ← Quoted.scan double c
  return (.scalar text false, c)

/-- A key may follow a block scalar, but a block scalar is no key. -/
def block (s : Lexer) (folded : Bool) : Result Lexer := do
  let s ← { s with allowKey := true }.dropHere
  let (text, c) ← Block.scan folded s.indent s.cursor
  return { s.push (.scalar text false) with cursor := c }

def plain (s : Lexer) : Result Lexer := do
  let s ← s.saveKey
  let p := Lexeme.plain s.inFlow (s.indent + 1) s.cursor.rest.length.succ s.cursor
  return { s.push (.scalar p.text true) with cursor := p.cursor, allowKey := p.broke }

/-- Whether a plain scalar may start here. -/
def startsPlain (s : Lexer) : Bool :=
  let ch := s.cursor.peek
  !(s.cursor.spaceAt 0 || ("-?:,[]\x7b\x7d#&*!|>'\"%@`".toList).contains ch) ||
    (!s.cursor.spaceAt 1 && (ch == '-' || (!s.inFlow && (ch == '?' || ch == ':'))))

def token (s : Lexer) : Result Lexer :=
  let c := s.cursor
  let ch := c.peek
  let signHere := s.inFlow || c.spaceAt 1
  if c.atEnd then s.streamEnd
  else if ch == '%' && c.column == 0 then s.directive
  else if c.column == 0 && c.atDocumentMark then
    s.documentMark (if ch == '-' then .documentStart else .documentEnd)
  else if ch == '[' then s.flowStart .flowSequenceStart
  else if ch == '\x7b' then s.flowStart .flowMappingStart
  else if ch == ']' then s.flowEnd .flowSequenceEnd
  else if ch == '\x7d' then s.flowEnd .flowMappingEnd
  else if ch == ',' then s.flowEntry
  else if ch == '-' && c.spaceAt 1 then s.blockEntry
  else if ch == '?' && signHere then s.key
  else if ch == ':' && signHere then s.value
  else if ch == '*' then s.node (named .alias)
  else if ch == '&' then s.node (named .anchor)
  else if ch == '!' then s.node tag
  else if ch == '|' && !s.inFlow then s.block false
  else if ch == '>' && !s.inFlow then s.block true
  else if ch == '\'' then s.node (quoted false)
  else if ch == '"' then s.node (quoted true)
  else if s.startsPlain then s.plain
  else Lexeme.broken

def step (s : Lexer) : Result Lexer := do
  let s ← s.toNext.dropStale
  (s.unwindTo s.column).token

def isDone (s : Lexer) : Bool :=
  match s.tokens.getLast? with
  | some .streamEnd => true
  | _ => false

def giveUp (s : Lexer) (known : Nat) (f : Failure) : List Token :=
  s.tokens.take known ++ [.broken f]

/-- All tokens. When the text cannot be read further, only those of them are known of which it
was settled whether they are keys. -/
def run : Nat → Nat → Lexer → List Token
  | 0, known, s => s.giveUp known (.markup .token)
  | fuel + 1, known, s =>
    match s.dropStale with
    | .error f => s.giveUp known f
    | .ok s =>
      match s.step with
      | .error f => s.giveUp s.settled f
      | .ok s' => if s'.isDone then s'.tokens else run fuel s.settled s'

end Lexer

def Token.ofText (cs : List Char) : List Token :=
  Lexer.run (cs.length + 1) 0 (.start cs)

end DocGrid.Yaml

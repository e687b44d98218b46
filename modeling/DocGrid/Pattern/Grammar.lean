import DocGrid.Number.Reading
import DocGrid.Pattern.CharName
import DocGrid.Pattern.Node

/-! Reading the text of a pattern. -/

namespace DocGrid.Pattern

inductive Problem where
  /-- The text is no pattern. -/
  | malformed
  /-- A repeat count is too large to be kept. -/
  | countTooLarge
  /-- A repeat count has too many digits to be read. -/
  | countUnreadable
  /-- The flags for ASCII and for all characters are both set for the whole pattern. -/
  | flagConflict
  deriving DecidableEq, Repr

/-- A character of the pattern, or a backslash with the character it escapes. -/
inductive Token where
  | plain (c : Char)
  | escaped (c : Char)
  /-- A backslash with nothing after it. -/
  | broken
  deriving DecidableEq, Repr

def tokens : List Char → List Token
  | [] => []
  | ['\\'] => [.broken]
  | '\\' :: c :: rest => .escaped c :: tokens rest
  | c :: rest => .plain c :: tokens rest

def Token.text : Token → List Char
  | plain c => [c]
  | escaped c => ['\\', c]
  | broken => ['\\']

def Token.isDigit : Token → Bool
  | plain c => isAsciiDigit c
  | _ => false

structure Flags where
  ignoreCase : Option Bool
  multiline : Bool
  dotAll : Bool
  verbose : Bool
  ascii : Bool
  deriving DecidableEq, Repr

/-- Flags that a group turns on and off. -/
structure FlagChange where
  on : List Char
  off : List Char

def Flags.apply (f : Flags) (change : FlagChange) : Flags :=
  let pick (c : Char) (old : Bool) : Bool := (old || change.on.contains c) && !change.off.contains c
  { ignoreCase :=
      if change.off.contains 'i' then some false
      else if change.on.contains 'i' then some true
      else f.ignoreCase
    multiline := pick 'm' f.multiline
    dotAll := pick 's' f.dotAll
    verbose := pick 'x' f.verbose
    ascii := change.on.contains 'a' || (f.ascii && !change.on.contains 'u') }

/-- What is known while a pattern is read: the tokens to come, the widths of the groups so far, in
their order, with none for those still open, their names, the first group that is hidden from a
look at the text before, and the numbers that conditions ask for. -/
structure Reader where
  rest : List Token
  widths : List (Option Width)
  names : List (String × Nat)
  hidden : Option Nat
  asked : List Nat
  /-- The flags set for the whole pattern. -/
  whole : List Char

abbrev Parse := StateT Reader (Except Problem)

namespace Parse

def fail {α : Type} : Parse α :=
  throw .malformed

def peek : Parse (Option Token) := do
  return (← get).rest.head?

/-- Moves on by one token. The token after it must be whole. -/
def next : Parse (Option Token) := do
  let r ← get
  match r.rest with
  | [] => return none
  | t :: rest =>
    if rest.head? = some .broken then fail
    else
      set { r with rest := rest }
      return some t

/-- Moves on if the next token is this character. -/
def accept (c : Char) : Parse Bool := do
  if (← peek) = some (.plain c) then
    discard next
    return true
  else return false

def expect (c : Char) : Parse Unit := do
  if !(← accept c) then fail

/-- Takes up to `n` characters that satisfy the test. -/
def takeUpTo (test : Char → Bool) : Nat → Parse (List Char)
  | 0 => return []
  | n + 1 => do
    match ← peek with
    | some (.plain c) =>
      if test c then
        discard next
        return c :: (← takeUpTo test n)
      else return []
    | _ => return []

/-- Takes what stands before the closing character, which must not be nothing. -/
def takeName (close : Char) : Nat → List Char → Parse (List Char)
  | 0, _ => fail
  | fuel + 1, found => do
    match ← next with
    | none => fail
    | some t =>
      if t = .plain close then
        if found.isEmpty then fail else return found
      else takeName close fuel (found ++ t.text)

/-- Takes tokens up to the given one, or all of them. -/
def skipPast (stop : Char) (mustStop : Bool) : Nat → Parse Unit
  | 0 => fail
  | fuel + 1 => do
    match ← next with
    | none => if mustStop then fail
    | some t => if t ≠ .plain stop then skipPast stop mustStop fuel

end Parse

open Parse

def isHexDigit (c : Char) : Bool :=
  isAsciiDigit c || (decide (65 ≤ c.toNat) && decide (c.toNat ≤ 70)) ||
    (decide (97 ≤ c.toNat) && decide (c.toNat ≤ 102))

def isOctalDigit (c : Char) : Bool :=
  decide (48 ≤ c.toNat) && decide (c.toNat ≤ 55)

def digitOf (c : Char) : Nat :=
  if isAsciiDigit c then c.toNat - 48
  else if c.toNat < 97 then c.toNat - 55 else c.toNat - 87

def numberOf (base : Nat) (cs : List Char) : Nat :=
  cs.foldl (fun n c => n * base + digitOf c) 0

/-- The code point written with exactly `count` hexadecimal digits. -/
def hexCode (count : Nat) : Parse Nat := do
  let digits ← takeUpTo isHexDigit count
  let code := numberOf 16 digits
  if digits.length = count ∧ code < 0x110000 then return code else fail

/-- The code point of an escaped letter that stands for one control character. -/
def controlCode? : Char → Option Nat
  | 'a' => some 7
  | 'b' => some 8
  | 'f' => some 12
  | 'n' => some 10
  | 'r' => some 13
  | 't' => some 9
  | 'v' => some 11
  | '\\' => some 92
  | _ => none

def kind? : Char → Option (Kind × Bool)
  | 'd' => some (.digit, false)
  | 'D' => some (.digit, true)
  | 's' => some (.space, false)
  | 'S' => some (.space, true)
  | 'w' => some (.word, false)
  | 'W' => some (.word, true)
  | _ => none

/-- A code point of up to three octal digits, the first of which is given. -/
def octalCode (first : Char) : Parse Nat := do
  let code := numberOf 8 (first :: (← takeUpTo isOctalDigit 2))
  if code < 0o400 then return code else fail

/-- The code point of a name in braces. -/
def namedCode : Parse Nat := do
  expect '\x7b'
  let name ← takeName '\x7d' ((← get).rest.length + 1) []
  match charNamed? name with
  | some c => return c.toNat
  | none => fail

/-- An escape that stands for a code point both inside and outside of a set. -/
def escapedCode (c : Char) : Parse Nat := do
  match c with
  | 'x' => hexCode 2
  | 'u' => hexCode 4
  | 'U' => hexCode 8
  | 'N' => namedCode
  | _ => if isAsciiLetter c || isAsciiDigit c then fail else return c.toNat

def memberOfEscape (c : Char) : Parse Member := do
  match controlCode? c, kind? c with
  | some n, _ => return .code n
  | none, some (k, negated) => return .kind k negated
  | none, none => .code <$> (if isOctalDigit c then octalCode c else escapedCode c)

def memberOfToken : Token → Parse Member
  | .plain c => return .code c.toNat
  | .escaped c => memberOfEscape c
  | .broken => fail

/-- The members of a set up to the closing bracket, which is a member itself where it comes
first. -/
def setMembers : Nat → List Member → Parse (List Member)
  | 0, _ => fail
  | fuel + 1, found => do
    match ← next with
    | none => fail
    | some t =>
      if t = .plain ']' ∧ found ≠ [] then return found
      else
        let low ← memberOfToken t
        if ← accept '-' then
          match ← next with
          | none => fail
          | some t' =>
            if t' = .plain ']' then return found ++ [low, .code 45]
            else
              match low, ← memberOfToken t' with
              | .code a, .code b =>
                if b < a then fail else setMembers fuel (found ++ [.range a b])
              | _, _ => fail
        else setMembers fuel (found ++ [low])

def charNode (f : Flags) (negated : Bool) (members : List Member) : Node :=
  .char ⟨negated, members, f.ignoreCase, f.ascii⟩

/-- Whether a group is closed and may be referred to here. -/
def checkReference (number : Nat) : Parse Width := do
  let r ← get
  match r.widths[number - 1]? with
  | some (some width) => if r.hidden.any (· ≤ number) then fail else return width
  | _ => fail

/-- Inside a look at the text before, a condition may only ask for groups closed outside of it. -/
def checkCondition (number : Nat) : Parse Unit := do
  if (← get).hidden.isSome then discard (checkReference number)

def referenceNode (f : Flags) (number : Nat) : Parse Node := do
  return .reference number (← checkReference number) f.ignoreCase f.ascii

/-- An escape of one or two digits refers to a group, unless three octal digits make a code. -/
def digitEscape (f : Flags) (c : Char) : Parse Node := do
  let single := charNode f false
  if c = '0' then return single [.code (numberOf 8 (c :: (← takeUpTo isOctalDigit 2)))]
  else
    match ← takeUpTo isAsciiDigit 1 with
    | [d] =>
      if isOctalDigit c && isOctalDigit d && (← peek).any (fun t => t.text.all isOctalDigit) then
        let last ← takeUpTo isOctalDigit 1
        let code := numberOf 8 ([c, d] ++ last)
        if code < 0o400 then return single [.code code] else fail
      else referenceNode f (numberOf 10 [c, d])
    | _ => referenceNode f (numberOf 10 [c])

def escapeNode (f : Flags) (c : Char) : Parse Node := do
  match c, kind? c, controlCode? c with
  | 'A', _, _ => return .anchor .textStart
  | 'Z', _, _ => return .anchor .textEnd
  | 'b', _, _ => return .anchor (.boundary f.ascii)
  | 'B', _, _ => return .anchor (.noBoundary f.ascii)
  | _, some (k, negated), _ => return charNode f false [.kind k negated]
  | _, _, some n => return charNode f false [.code n]
  | _, _, _ =>
    if isAsciiDigit c then digitEscape f c
    else return charNode f false [.code (← escapedCode c)]

/-- The bounds of a repeat after the opening brace, or nothing when it is no repeat. -/
def bounds? : Parse (Option (Nat × Option Nat)) := do
  let here ← get
  if (← peek) = some (.plain '}') then return none
  else
    let count := here.rest.length
    let low ← takeUpTo isAsciiDigit count
    let high ← if ← accept ',' then takeUpTo isAsciiDigit count else pure low
    if ← accept '}' then
      if Reading.maxDigits < low.length then throw .countUnreadable
      let least := numberOf 10 low
      if 0xFFFFFFFF ≤ least then throw .countTooLarge
      if high.isEmpty then return some (least, none)
      else
        if Reading.maxDigits < high.length then throw .countUnreadable
        let most := numberOf 10 high
        if 0xFFFFFFFF ≤ most then throw .countTooLarge
        if most < least then fail
        return some (least, some most)
    else
      set here
      return none

/-- The repeat that a character starts. -/
def repeat? (c : Char) : Parse (Option (Nat × Option Nat)) := do
  match c with
  | '?' => return some (0, some 1)
  | '*' => return some (0, none)
  | '+' => return some (1, none)
  | '{' => bounds?
  | _ => return none

def greed : Parse Greed := do
  if ← accept '?' then return .lazy
  else if ← accept '+' then return .possessive
  else return .greedy

/-- Repeats the last of the nodes read so far, which come last first. -/
def repeatLast (least : Nat) (most : Option Nat) : List Node → Parse (List Node)
  | [] => fail
  | last :: found => do
    if last.isAnchor || last.isLoop then fail
    else return .loop (← greed) least most last :: found

def isNameStart (c : Char) : Bool :=
  c == '_' || (Text.isWord c && !Text.isDigit c)

def isName : List Char → Bool
  | [] => false
  | c :: rest => isNameStart c && rest.all Text.isWord

def groupName (close : Char) : Parse String := do
  let name ← takeName close ((← get).rest.length + 1) []
  if isName name then return String.ofList name else fail

def numberOfName (name : String) : Parse Nat := do
  match (← get).names.find? (fun entry => entry.1 == name) with
  | some (_, number) => return number
  | none => fail

def openGroup (name : Option String) : Parse Nat := do
  let r ← get
  let number := r.widths.length + 1
  match name with
  | none => set { r with widths := r.widths ++ [none] }
  | some s =>
    if r.names.any (fun entry => entry.1 == s) then fail
    else set { r with widths := r.widths ++ [none], names := (s, number) :: r.names }
  return number

def closeGroup (number : Nat) (width : Width) : Parse Unit :=
  modify fun r => { r with widths := r.widths.set (number - 1) (some width) }

/-- The group that a condition asks for, by name or by number. -/
def conditionGroup : Parse Nat := do
  let name ← takeName ')' ((← get).rest.length + 1) []
  if isName name then numberOfName (String.ofList name)
  else
    match Reading.int? (String.ofList name) with
    | some n =>
      if n < 1 ∨ 1073741823 ≤ n then fail
      else
        modify fun r => { r with asked := n.toNat :: r.asked }
        return n.toNat
    | none => fail

def isFlag (c : Char) : Bool :=
  ['i', 'L', 'm', 's', 'x', 'a', 't', 'u'].contains c

/-- Flags up to one of the closing characters. -/
def flagLetters (close : List Char) (allowed : Char → Bool) :
    Nat → Char → List Char → Parse (List Char × Char)
  | 0, _, _ => fail
  | fuel + 1, c, found => do
    if !(isFlag c && allowed c) then fail
    else
      match ← next with
      | some (.plain d) =>
        if close.contains d then return (found ++ [c], d)
        else flagLetters close allowed fuel d (found ++ [c])
      | _ => fail

/-- The flags of a group whose first character is given, or nothing when they hold for the whole
pattern. -/
def flagChange? (c : Char) : Parse (Option FlagChange) := do
  let count := (← get).rest.length + 1
  let (on, close) ←
    if c = '-' then pure ([], '-')
    else flagLetters [')', '-', ':'] (· ≠ 'L') count c []
  if on.contains 'a' && on.contains 'u' then fail
  else if close = ')' then
    modify fun r => { r with whole := r.whole ++ on }
    return none
  else if on.contains 't' then fail
  else
    let off ←
      if close = ':' then pure []
      else
        match ← next with
        | some (.plain d) =>
          Prod.fst <$> flagLetters [':'] (fun x => !(['a', 'u', 'L', 't'].contains x)) count d []
        | _ => fail
    if on.any off.contains then fail else return some ⟨on, off⟩

def Flags.ofWhole (whole : List Char) : Flags :=
  (⟨none, false, false, false, false⟩ : Flags).apply ⟨whole, []⟩

/-- The nodes, last first, in a row. -/
def inRow (found : List Node) : Node :=
  found.foldl (fun after n => if after matches .empty then n else .seq n after) .empty

/-- What a group with flags, a look around or a condition is made of, before its body is read. -/
inductive Opening where
  | group (name : Option String)
  | plainGroup (change : FlagChange)
  | atomic
  | ahead (negated : Bool)
  | behind (negated : Bool)
  | conditional (number : Nat)
  /-- Something complete that matches nothing by itself. -/
  | nothing
  | reference (number : Nat)
  /-- Flags for the whole pattern, which may only stand at its start. -/
  | wholeFlags

/-- Reads what stands between an opening parenthesis and the body of the group. -/
def opening : Parse Opening := do
  if !(← accept '?') then return .group none
  else
    match ← next with
    | some (.plain c) =>
      if c = 'P' then
        if ← accept '<' then return .group (some (← groupName '>'))
        else if ← accept '=' then return .reference (← numberOfName (← groupName ')'))
        else fail
      else if c = ':' then return .plainGroup ⟨[], []⟩
      else if c = '#' then
        skipPast ')' true ((← get).rest.length + 1)
        return .nothing
      else if c = '=' then return .ahead false
      else if c = '!' then return .ahead true
      else if c = '<' then
        if ← accept '=' then return .behind false
        else if ← accept '!' then return .behind true
        else fail
      else if c = '(' then return .conditional (← conditionGroup)
      else if c = '>' then return .atomic
      else if isFlag c || c = '-' then
        match ← flagChange? c with
        | none => return .wholeFlags
        | some change => return .plainGroup change
      else fail
    | _ => fail

def isSpaceToken : Token → Bool
  | .plain c => c == ' ' || (decide (9 ≤ c.toNat) && decide (c.toNat ≤ 13))
  | _ => false

mutual

/-- Alternatives up to a closing parenthesis or the end. Only the first alternative of the whole
pattern may start with flags for all of it. -/
def alternatives (f : Flags) (outermost : Bool) : Nat → Parse Node
  | 0 => fail
  | fuel + 1 => do
    let first ← sequence f outermost outermost fuel []
    if ← accept '|' then
      let whole := (← get).whole
      let f' := if outermost then Flags.ofWhole whole else f
      return .alternative first (← furtherAlternatives f' outermost fuel)
    else return first

def furtherAlternatives (f : Flags) (outermost : Bool) : Nat → Parse Node
  | 0 => fail
  | fuel + 1 => do
    let first ← sequence f outermost false fuel []
    if ← accept '|' then return .alternative first (← furtherAlternatives f outermost fuel)
    else return first

/-- Nodes in a row. `found` holds those read so far, last first. -/
def sequence (f : Flags) (outermost first : Bool) : Nat → List Node → Parse Node
  | 0, _ => fail
  | fuel + 1, found => do
    match ← peek with
    | none => return inRow found
    | some t =>
      if t = .plain '|' ∨ t = .plain ')' then return inRow found
      else
        discard next
        if f.verbose && isSpaceToken t then sequence f outermost first fuel found
        else if f.verbose && t == .plain '#' then
          skipPast '\n' false ((← get).rest.length + 1)
          sequence f outermost first fuel found
        else
          match t with
          | .broken => fail
          | .escaped c =>
            let n ← escapeNode f c
            sequence f outermost first fuel (n :: found)
          | .plain '[' =>
            let negated ← accept '^'
            let members ← setMembers ((← get).rest.length + 1) []
            sequence f outermost first fuel (charNode f negated members :: found)
          | .plain '.' =>
            let stop := if f.dotAll then [] else [Member.code 10]
            sequence f outermost first fuel (.char ⟨true, stop, some false, false⟩ :: found)
          | .plain '^' =>
            let a := if f.multiline then Anchor.lineStart else .textStart
            sequence f outermost first fuel (.anchor a :: found)
          | .plain '$' =>
            let a := if f.multiline then Anchor.lineEnd else .lastLineEnd
            sequence f outermost first fuel (.anchor a :: found)
          | .plain '(' =>
            match ← opening with
            | .nothing => sequence f outermost first fuel found
            | .wholeFlags =>
              if first && found.isEmpty then
                sequence (.ofWhole (← get).whole) outermost first fuel found
              else fail
            | .reference number =>
              let n ← referenceNode f number
              sequence f outermost first fuel (n :: found)
            | other =>
              let n ← groupBody f fuel other
              sequence f outermost first fuel (n :: found)
          | .plain c =>
            match ← repeat? c with
            | some (least, most) =>
              let found ← repeatLast least most found
              sequence f outermost first fuel found
            | none => sequence f outermost first fuel (charNode f false [.code c.toNat] :: found)

/-- The body of a group and its closing parenthesis. -/
def groupBody (f : Flags) : Nat → Opening → Parse Node
  | 0, _ => fail
  | fuel + 1, .group name => do
    let number ← openGroup name
    let body ← alternatives f false fuel
    expect ')'
    closeGroup number body.width
    return .group (some number) body
  | fuel + 1, .plainGroup change => do
    let body ← alternatives (f.apply change) false fuel
    expect ')'
    return .group none body
  | fuel + 1, .atomic => do
    let body ← alternatives f false fuel
    expect ')'
    return .atomic body
  | fuel + 1, .ahead negated => do
    let body ← alternatives f false fuel
    expect ')'
    return .ahead negated body
  | fuel + 1, .behind negated => do
    let hidden := (← get).hidden
    modify fun r => { r with hidden := some (hidden.getD (r.widths.length + 1)) }
    let body ← alternatives f false fuel
    modify fun r => { r with hidden := hidden }
    expect ')'
    return .behind negated body
  | fuel + 1, .conditional number => do
    checkCondition number
    let yes ← sequence f false false fuel []
    if ← accept '|' then
      let no ← sequence f false false fuel []
      expect ')'
      return .conditional number yes no
    else
      expect ')'
      return .conditional number yes .empty
  | _ + 1, _ => fail

end

/-- The whole of a pattern. Flags that contradict each other count before anything is left over,
and conditions may ask for groups that come later. -/
def pattern (fuel : Nat) : Parse Node := do
  let n ← alternatives (.ofWhole []) true fuel
  let r ← get
  if r.whole.contains 'a' && r.whole.contains 'u' then throw .flagConflict
  else if !r.rest.isEmpty then fail
  else if r.asked.any (r.widths.length < ·) then fail
  else if !n.looksFixed then fail
  else if r.whole.contains 't' && n.hasLoop then fail
  else return n

def Node.ofText? (cs : List Char) : Except Problem Node :=
  let ts := tokens cs
  if ts = [.broken] then .error .malformed
  else ((pattern (4 * cs.length + 8)).run ⟨ts, [], [], none, [], []⟩).map (·.1)

end DocGrid.Pattern

namespace DocGrid

structure Pattern where
  text : String
  root : Pattern.Node

namespace Pattern

def ofText? (s : String) : Except Problem Pattern :=
  (Node.ofText? s.toList).map (fun n => ⟨s, n⟩)

end Pattern

end DocGrid

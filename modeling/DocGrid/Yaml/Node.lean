import DocGrid.Yaml.Lexer
import DocGrid.Yaml.Tag

/-! The nodes of a YAML document, put together from its tokens. -/

namespace DocGrid.Yaml

inductive Node where
  | scalar (tag : Tag) (text : List Char)
  | sequence (tag : Tag) (items : List Node)
  | mapping (tag : Tag) (entries : List (Node × Node))
  deriving Repr

/-- What is known while a document is read. -/
structure NodeState where
  tokens : List Token
  /-- The nodes that aliases may refer to, the last one first. -/
  anchors : List (String × Node)
  handles : List (String × String)

abbrev NodeReader := StateT NodeState Result

namespace NodeReader

def fail {α : Type} (p : MarkupProblem) : NodeReader α :=
  throw (.markup p)

def peek : NodeReader Token := do
  match (← get).tokens with
  | [] => return .streamEnd
  | .broken f :: _ => throw f
  | t :: _ => return t

def skip : NodeReader Unit :=
  modify fun r => { r with tokens := r.tokens.tail }

def standardHandles : List (String × String) :=
  [("!", "!"), ("!!", Tag.standardLead)]

def empty : Node :=
  .scalar .null []

/-- The anchor and the tag in front of a node. -/
structure Properties where
  anchor : Option String
  tag : Option (Option String × String)

def properties : NodeReader Properties := do
  match ← peek with
  | .anchor a =>
    skip
    match ← peek with
    | .tag h s =>
      skip
      return ⟨some a, some (h, s)⟩
    | _ => return ⟨some a, none⟩
  | .tag h s =>
    skip
    match ← peek with
    | .anchor a =>
      skip
      return ⟨some a, some (h, s)⟩
    | _ => return ⟨none, some (h, s)⟩
  | _ => return ⟨none, none⟩

/-- The text of a tag with its handle written out. -/
def tagText (p : Properties) : NodeReader (Option String) := do
  match p.tag with
  | none => return none
  | some (none, s) => return some s
  | some (some h, s) =>
    match (← get).handles.find? (·.1 == h) with
    | some (_, lead) => return some (lead ++ s)
    | none => fail .arrangement

/-- A tag of its own, unless there is none or only an exclamation mark. -/
def ownTag (tag : Option String) (default : Tag) : Tag :=
  match tag with
  | none => default
  | some s => if s = "!" then default else .ofText s

/-- Plain scalars have their kind by their look, and so have those with an exclamation mark. -/
def scalarTag (tag : Option String) (text : List Char) (plain : Bool) : Tag :=
  ownTag tag (if plain || tag.isSome then .ofPlain text else .str)

/-- Checks that an anchor is new. -/
def claim (anchor : Option String) : NodeReader Unit := do
  match anchor with
  | some a => if (← get).anchors.any (·.1 == a) then fail .document
  | none => pure ()

def remember (anchor : Option String) (n : Node) : NodeReader Unit :=
  match anchor with
  | some a => modify fun r => { r with anchors := (a, n) :: r.anchors }
  | none => pure ()

def aliased (name : String) : NodeReader Node := do
  match (← get).anchors.find? (·.1 == name) with
  | some (_, n) => return n
  | none => fail .document

/-- Whether nothing stands between this token and the one before it in a block. -/
def endsEntry : Token → Bool
  | .blockEntry => true
  | .blockEnd => true
  | _ => false

def endsItem : Token → Bool
  | .blockEntry => true
  | .key => true
  | .value => true
  | .blockEnd => true
  | _ => false

def endsPart : Token → Bool
  | .key => true
  | .value => true
  | .blockEnd => true
  | _ => false

def isFlowEntry : Token → Bool
  | .flowEntry => true
  | _ => false

def endsFlowSequence : Token → Bool
  | .flowSequenceEnd => true
  | _ => false

def endsFlowMapping : Token → Bool
  | .flowMappingEnd => true
  | _ => false

def isValue : Token → Bool
  | .value => true
  | _ => false

/-- Nothing but an anchor or a tag. -/
def bare (p : Properties) (tag : Option String) : NodeReader Node := do
  if p.anchor.isNone && p.tag.isNone then fail .arrangement
  claim p.anchor
  let n := Node.scalar (scalarTag tag [] tag.isNone) []
  remember p.anchor n
  return n

/-- A collection of the parts that come next. An alias inside of what it refers to finds nothing
in it yet. -/
def collection {α : Type} (make : List α → Node) (anchor : Option String)
    (parts : NodeReader (List α)) : NodeReader Node := do
  claim anchor
  remember anchor (make [])
  let n := make (← parts)
  remember anchor n
  return n

def sequence (p : Properties) (tag : Option String) (items : NodeReader (List Node)) :
    NodeReader Node :=
  collection (.sequence (ownTag tag .seq)) p.anchor items

def mapping (p : Properties) (tag : Option String) (entries : NodeReader (List (Node × Node))) :
    NodeReader Node :=
  collection (.mapping (ownTag tag .map)) p.anchor entries

/-- An item in brackets; a key among them makes a mapping of its own. -/
def itemOf : Node × Option Node → Node
  | (n, none) => n
  | (k, some v) => .mapping .map [(k, v)]

/-- An entry in braces; a node without a key mark is a key without value. -/
def entryOf (part : Node × Option Node) : Node × Node :=
  (part.1, part.2.getD empty)

mutual

/-- A node; blocks may start only in a block, and the items of a sequence without indentation only
as a part of a mapping. -/
def node (block indentless : Bool) : Nat → NodeReader Node
  | 0 => fail .arrangement
  | fuel + 1 => do
    match ← peek with
    | .alias name =>
      skip
      aliased name
    | _ =>
      let p ← properties
      let tag ← tagText p
      match ← peek with
      | .scalar text plain =>
        skip
        claim p.anchor
        let n := Node.scalar (scalarTag tag text plain) text
        remember p.anchor n
        return n
      | .flowSequenceStart =>
        skip
        sequence p tag (return (← flowParts endsFlowSequence true fuel).map itemOf)
      | .flowMappingStart =>
        skip
        mapping p tag (return (← flowParts endsFlowMapping true fuel).map entryOf)
      | .blockSequenceStart =>
        if block then do
          skip
          sequence p tag (blockItems fuel)
        else bare p tag
      | .blockMappingStart =>
        if block then do
          skip
          mapping p tag (blockEntries fuel)
        else bare p tag
      | .blockEntry =>
        if indentless then sequence p tag (indentlessItems fuel) else bare p tag
      | _ => bare p tag

/-- A node, or nothing before a token that ends its place. -/
def nodeBefore (ends : Token → Bool) (block indentless : Bool) : Nat → NodeReader Node
  | 0 => fail .arrangement
  | fuel + 1 => do
    if ends (← peek) then return empty else node block indentless fuel

/-- The node after a colon, or nothing where there is no colon. -/
def valueBefore (ends : Token → Bool) (block indentless : Bool) : Nat → NodeReader Node
  | 0 => fail .arrangement
  | fuel + 1 => do
    match ← peek with
    | .value =>
      skip
      nodeBefore ends block indentless fuel
    | _ => return empty

def blockItems : Nat → NodeReader (List Node)
  | 0 => fail .arrangement
  | fuel + 1 => do
    match ← peek with
    | .blockEntry =>
      skip
      let n ← nodeBefore endsEntry true false fuel
      return n :: (← blockItems fuel)
    | .blockEnd =>
      skip
      return []
    | _ => fail .arrangement

def indentlessItems : Nat → NodeReader (List Node)
  | 0 => fail .arrangement
  | fuel + 1 => do
    match ← peek with
    | .blockEntry =>
      skip
      let n ← nodeBefore endsItem true false fuel
      return n :: (← indentlessItems fuel)
    | _ => return []

def blockEntries : Nat → NodeReader (List (Node × Node))
  | 0 => fail .arrangement
  | fuel + 1 => do
    match ← peek with
    | .key =>
      skip
      let k ← nodeBefore endsPart true true fuel
      let v ← valueBefore endsPart true true fuel
      return (k, v) :: (← blockEntries fuel)
    | .blockEnd =>
      skip
      return []
    | _ => fail .arrangement

/-- What stands between brackets or braces: nodes, and keys with their values. -/
def flowParts (isEnd : Token → Bool) (first : Bool) : Nat → NodeReader (List (Node × Option Node))
  | 0 => fail .arrangement
  | fuel + 1 => do
    if !first then
      let t ← peek
      if isFlowEntry t then skip
      else if !isEnd t then fail .arrangement
    let t ← peek
    if isEnd t then
      skip
      return []
    else
      match t with
      | .key =>
        skip
        let ends (t : Token) : Bool := isFlowEntry t || isEnd t
        let k ← nodeBefore (fun t => isValue t || ends t) false false fuel
        let v ← valueBefore ends false false fuel
        return (k, some v) :: (← flowParts isEnd false fuel)
      | _ =>
        let n ← node false false fuel
        return (n, none) :: (← flowParts isEnd false fuel)

end

/-- Directives before a document: at most one version, which must be the first, and handles. -/
def directives : Nat → Bool → List (String × String) → NodeReader Unit
  | 0, _, _ => fail .arrangement
  | fuel + 1, versioned, handles => do
    match ← peek with
    | .directive (.version major) =>
      skip
      if versioned || major ≠ 1 then fail .arrangement
      directives fuel true handles
    | .directive (.tag h lead) =>
      skip
      if handles.any (·.1 == h) then fail .arrangement
      directives fuel versioned ((h, lead) :: handles)
    | .directive .other =>
      skip
      directives fuel versioned handles
    | _ => modify fun r => { r with handles := handles ++ standardHandles }

def skipDocumentEnds : Nat → NodeReader Unit
  | 0 => pure ()
  | fuel + 1 => do
    match ← peek with
    | .documentEnd =>
      skip
      skipDocumentEnds fuel
    | _ => pure ()

/-- Directives and the mark that starts a document. -/
def documentStart (fuel : Nat) : NodeReader Unit := do
  directives fuel false []
  match ← peek with
  | .documentStart => skip
  | _ => fail .arrangement

def startsDocument : Token → Bool
  | .directive _ => true
  | .documentStart => true
  | .documentEnd => true
  | .streamEnd => true
  | _ => false

def explicitDocument (fuel : Nat) : NodeReader Node := do
  documentStart fuel
  if startsDocument (← peek) then return empty else node true false fuel

/-- The only document of a text, if it has one. -/
def document (fuel : Nat) : NodeReader (Option Node) := do
  match ← peek with
  | .streamEnd => return none
  | t =>
    let explicit := match t with
      | .directive _ => true
      | .documentStart => true
      | _ => false
    let n ← if explicit then explicitDocument fuel else node true false fuel
    skipDocumentEnds fuel
    match ← peek with
    | .streamEnd => return some n
    | _ =>
      documentStart fuel
      fail .document

end NodeReader

def Node.ofText (cs : List Char) : Result (Option Node) :=
  if cs.all isAllowed then do
    let tokens := Token.ofText cs
    let start : NodeState := ⟨tokens, [], NodeReader.standardHandles⟩
    let (n, _) ← (NodeReader.document (4 * tokens.length + 4)).run start
    return n
  else .error (.markup .character)

end DocGrid.Yaml

import DocGrid.Intake.Items
import DocGrid.Value.Shown
import DocGrid.Value.Same
import DocGrid.Yaml.Node
import DocGrid.Yaml.Staged

/-! The values that YAML nodes stand for. -/

namespace DocGrid.Yaml

def fault {α : Type} : Result α :=
  .error (.markup .value)

/-! Scalars -/

namespace Scalar

def withoutLows (cs : List Char) : List Char :=
  cs.filter (· ≠ '_')

/-- The sign of a number, which must not be empty. -/
def signed (cs : List Char) : Result (Bool × List Char) :=
  match cs with
  | [] => .error .missingArgument
  | '-' :: rest => .ok (true, rest)
  | '+' :: rest => .ok (false, rest)
  | _ => .ok (false, cs)

def digitOf? (base : Nat) (c : Char) : Option Nat :=
  (Text.hexDigit? c).bind fun d => if d < base then some d else none

/-- A whole number in a base, of which there is at least one digit. -/
def inBase? (base : Nat) (cs : List Char) : Option Int :=
  if cs.isEmpty then none
  else (cs.foldlM (fun n c => (digitOf? base c).map (n * base + ·)) 0).map fun n : Nat => (n : Int)

/-- Numbers separated by colons, each worth sixty of the one after it. -/
def sixties? (cs : List Char) : Option Int :=
  (Text.split ':' cs).foldlM
    (fun n part => (Reading.int? (String.ofList part)).map (n * 60 + ·)) 0

def size? (cs : List Char) : Option Int :=
  match cs with
  | '0' :: 'b' :: ds => inBase? 2 ds
  | '0' :: 'x' :: ds => inBase? 16 ds
  | ['0'] => some 0
  | '0' :: 'o' :: ds => inBase? 8 ds
  | '0' :: ds => inBase? 8 ds
  | _ => if cs.contains ':' then sixties? cs else Reading.int? (String.ofList cs)

def int (cs : List Char) : Result Value := do
  let (negative, cs) ← signed (withoutLows cs)
  if cs.isEmpty then throw .missingArgument
  match size? cs with
  | some n => return .int (if negative then -n else n)
  | none => throw .badValue

/-- Numbers separated by colons, added up from the last one on. -/
def floatSixties? (cs : List Char) : Option Binary64 := do
  let parts ← (Text.split ':' cs).mapM fun part => Reading.float? (String.ofList part)
  let scaled := parts.reverse.zipIdx.map fun (x, i) => x.times (Nat.pow 60 i)
  return scaled.foldl Binary64.add (.zero false)

def float (cs : List Char) : Result Value := do
  let (negative, cs) ← signed (Text.lower (withoutLows cs))
  let size? :=
    if cs = ".inf".toList then some (Binary64.infinity false)
    else if cs = ".nan".toList then some Binary64.nan
    else if cs.contains ':' then floatSixties? cs
    else Reading.float? (String.ofList cs)
  match size? with
  | some x => return .float (if negative then x.negate else x)
  | none => throw .badValue

def bool (cs : List Char) : Result Value :=
  match Plain.boolWords.find? fun e => e.1 == String.ofList (Text.lower cs) with
  | some e => .ok (.bool e.2)
  | none => .error .missingKey

def timestamp (cs : List Char) : Result Value :=
  match Timestamp.read? cs with
  | none => .error .missingMember
  | some t => t.value?.elim (.error .badValue) .ok

def isBase64 (c : Char) : Bool :=
  c.isAlphanum || c == '+' || c == '/'

def bits (c : Char) : Nat :=
  if c.isUpper then c.toNat - 'A'.toNat
  else if c.isLower then c.toNat - 'a'.toNat + 26
  else if c.isDigit then c.toNat - '0'.toNat + 52
  else if c == '+' then 62
  else 63

/-- Octets from groups of four characters. Other characters between them do not count, and the
last group is filled up with equality signs. -/
def octets? : List Char → List Nat → Nat → Option (List Nat)
  | [], [], _ => some []
  | [], _, _ => none
  | c :: rest, group, pads =>
    if c == '=' then
      if 2 ≤ group.length ∧ 4 ≤ group.length + pads + 1 then
        match group with
        | [a, b] => some [a * 4 + b / 16]
        | [a, b, d] => some [a * 4 + b / 16, b % 16 * 16 + d / 4]
        | _ => none
      else octets? rest group (if 2 ≤ group.length then pads + 1 else pads)
    else if isBase64 c then
      match group with
      | [a, b, d] =>
        (octets? rest [] 0).map
          ([a * 4 + b / 16, b % 16 * 16 + d / 4, d % 4 * 64 + bits c] ++ ·)
      | _ => octets? rest (group ++ [bits c]) 0
    else octets? rest group pads

/-- Octets, each as the character of its number. -/
def binary (cs : List Char) : Result Value :=
  if cs.all (fun c => c.toNat < 0x80) then
    match octets? cs [] 0 with
    | some os => .ok (.text (String.ofList (os.map Char.ofNat)))
    | none => fault
  else fault

def value (tag : Tag) (cs : List Char) : Result Value :=
  match tag with
  | .null => .ok .null
  | .bool => bool cs
  | .int => int cs
  | .float => float cs
  | .timestamp => timestamp cs
  | .binary => binary cs
  | .str => .ok (.text (String.ofList cs))
  | _ => fault

end Scalar

namespace Node

def tag : Node → Tag
  | scalar t _ => t
  | sequence t _ => t
  | mapping t _ => t

def isCollection : Tag → Bool
  | .seq => true
  | .map => true
  | .set => true
  | .omap => true
  | .pairs => true
  | _ => false

/-- Replaces the value of an equal key where it stands, or adds the key at the end. -/
def put (key value : Value) : List (Value × Value) → List (Value × Value)
  | [] => [(key, value)]
  | (k, v) :: rest => if k.same key then (k, value) :: rest else (k, v) :: put key value rest

/-- A mapping in which each key has the last of its values, with the texts of its keys. -/
def mappingOf (entries : List (Value × Value)) : Value :=
  let unique := entries.foldl (fun found e => put e.1 e.2 found) []
  .mapping (Document.ofPairs (unique.map fun e => (e.1.display, e.2)))

/-- Entries that a mapping takes over from others, and its own. -/
structure Entries where
  merged : Staged (List (Value × Value))
  own : Staged (List (Value × Value))

/-- Own entries come last, so that they count. -/
def Entries.all (es : Entries) : Staged (List (Value × Value)) :=
  es.merged.both (· ++ ·) es.own

mutual

/-- The value of a node. A collection is there at once, whatever its node is like, and its parts
come in the next round. -/
def value : Node → Staged Value
  | scalar t cs => if isCollection t then (Staged.now fault).later else .now (Scalar.value t cs)
  | sequence t items =>
    match t with
    | .seq => ((values items).map .list).later
    | .omap => ((pairs items).map .list).later
    | .pairs => ((pairs items).map .list).later
    | t => if isCollection t then (Staged.now fault).later else .now fault
  | mapping t entries =>
    match t with
    | .map => ((Staged.of ((entriesOf entries).map Entries.all)).map mappingOf).later
    | .set =>
      ((Staged.of ((entriesOf entries).map Entries.all)).map fun es => .list (es.map (·.1))).later
    | t =>
      if isCollection t then (Staged.now fault).later
      else .now ((inner entries).bind (Scalar.value t))

def values : List Node → Staged (List Value)
  | [] => .now (.ok [])
  | n :: rest => (value n).both (· :: ·) (values rest)

/-- Mappings of one entry each, as pairs. -/
def pairs : List Node → Staged (List Value)
  | [] => .now (.ok [])
  | mapping _ [(k, v)] :: rest =>
    ((value k).both (fun k v => .list [k, v]) (value v)).both (· :: ·) (pairs rest)
  | _ :: _ => .now fault

/-- The value of a key. Collections are no keys, so that their parts are not asked for. -/
def keyOf : Node → Staged Value
  | scalar .value cs => .now (Scalar.value .str cs)
  | mapping .value entries => .now ((inner entries).bind (Scalar.value .str))
  | n => if isCollection n.tag then .now fault else value n

/-- Whether the mappings to be merged are mappings is seen before any value is. -/
def entriesOf : List (Node × Node) → Result Entries
  | [] => .ok ⟨.now (.ok []), .now (.ok [])⟩
  | (k, v) :: rest => do
    if k.tag = .merge then
      let found ← source v
      let es ← entriesOf rest
      return ⟨found.both (· ++ ·) es.merged, es.own⟩
    else
      let es ← entriesOf rest
      return ⟨es.merged, ((keyOf k).both Prod.mk (value v)).both (· :: ·) es.own⟩

/-- The entries of a mapping that is merged into another one, or of several, of which the first
one counts most. -/
def source : Node → Result (Staged (List (Value × Value)))
  | mapping _ entries => (entriesOf entries).map Entries.all
  | sequence _ items => sources items
  | scalar _ _ => fault

def sources : List Node → Result (Staged (List (Value × Value)))
  | [] => .ok (.now (.ok []))
  | mapping _ entries :: rest => do
    let es ← entriesOf entries
    return (← sources rest).both (· ++ ·) es.all
  | _ :: _ => fault

/-- The scalar under the key that is an equality sign. -/
def inner : List (Node × Node) → Result (List Char)
  | [] => fault
  | (k, v) :: rest => if k.tag = .value then scalarIn v else inner rest

def scalarIn : Node → Result (List Char)
  | scalar _ cs => .ok cs
  | mapping _ entries => inner entries
  | sequence _ _ => fault

end

end Node

def read (cs : List Char) : Result Value := do
  match ← Node.ofText cs with
  | some n => n.value.outcome
  | none => return .null

end DocGrid.Yaml

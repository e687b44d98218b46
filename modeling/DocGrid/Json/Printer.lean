import DocGrid.Failure

/-! Values as JSON texts of ASCII characters. Points in time, days and decimal numbers have no such
text. -/

namespace DocGrid.Json

/-- The code units of a character in pairs of octets. -/
def units (c : Char) : List Nat :=
  let n := c.toNat
  if n < 0x10000 then [n] else [0xD800 + (n - 0x10000) / 0x400, 0xDC00 + (n - 0x10000) % 0x400]

def shortEscapes : List (Char × Char) :=
  [('"', '"'), ('\\', '\\'), ('\n', 'n'), ('\r', 'r'), ('\t', 't'), ('\x08', 'b'), ('\x0c', 'f')]

def escape (c : Char) : List Char :=
  match shortEscapes.find? (fun e => e.1 == c) with
  | some e => ['\\', e.2]
  | none =>
    if ' ' ≤ c ∧ c ≤ '~' then [c]
    else (units c).flatMap fun u => '\\' :: 'u' :: Text.hex 4 u

def quote (s : String) : List Char :=
  '"' :: s.toList.flatMap escape ++ ['"']

/-- Numbers beyond all bounds are words. -/
def floatText (x : Binary64) : List Char :=
  if x.isNaN then "NaN".toList
  else if x.isInfinite then (if x.negative then "-Infinity" else "Infinity").toList
  else x.text.toList

def listed (pieces : List (List Char)) : List Char :=
  Text.join [',', ' '] pieces

mutual

/-- The text of a value. When `strict` is set, the words for numbers are refused. -/
def print (strict : Bool) : Value → Result (List Char)
  | .null => .ok "null".toList
  | .bool b => .ok (if b then "true" else "false").toList
  | .number (.int n) => .ok (toString n).toList
  | .number (.float x) => if strict && !x.isFinite then .error .badValue else .ok (floatText x)
  | .number (.decimal _) => .error .wrongKind
  | .text s => .ok (quote s)
  | .date _ => .error .wrongKind
  | .datetime _ => .error .wrongKind
  | .list items => do return '[' :: listed (← printItems strict items) ++ [']']
  | .mapping entries => do
    return '\x7b' :: listed (← printEntries strict entries) ++ ['\x7d']

def printItems (strict : Bool) : List Value → Result (List (List Char))
  | [] => .ok []
  | v :: rest => do return (← print strict v) :: (← printItems strict rest)

def printEntries (strict : Bool) : List (String × Value) → Result (List (List Char))
  | [] => .ok []
  | (k, v) :: rest => do
    return (quote k ++ ':' :: ' ' :: (← print strict v)) :: (← printEntries strict rest)

end

end DocGrid.Json

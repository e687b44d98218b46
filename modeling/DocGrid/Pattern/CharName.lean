import DocGrid.Text.Split

/-! The names of the printable characters of ASCII. Other characters have no name here. -/

namespace DocGrid.Pattern

def digitNames : List String :=
  ["ZERO", "ONE", "TWO", "THREE", "FOUR", "FIVE", "SIX", "SEVEN", "EIGHT", "NINE"]

def markNames : List (String × Char) :=
  [("SPACE", ' '), ("EXCLAMATION MARK", '!'), ("QUOTATION MARK", '"'), ("NUMBER SIGN", '#'),
    ("DOLLAR SIGN", '$'), ("PERCENT SIGN", '%'), ("AMPERSAND", '&'), ("APOSTROPHE", '\''),
    ("LEFT PARENTHESIS", '('), ("RIGHT PARENTHESIS", ')'), ("ASTERISK", '*'),
    ("PLUS SIGN", '+'), ("COMMA", ','), ("HYPHEN-MINUS", '-'), ("FULL STOP", '.'),
    ("SOLIDUS", '/'), ("COLON", ':'), ("SEMICOLON", ';'), ("LESS-THAN SIGN", '<'),
    ("EQUALS SIGN", '='), ("GREATER-THAN SIGN", '>'), ("QUESTION MARK", '?'),
    ("COMMERCIAL AT", '@'), ("LEFT SQUARE BRACKET", '['), ("REVERSE SOLIDUS", '\\'),
    ("RIGHT SQUARE BRACKET", ']'), ("CIRCUMFLEX ACCENT", '^'), ("LOW LINE", '_'),
    ("GRAVE ACCENT", '\x60'), ("LEFT CURLY BRACKET", '\x7b'), ("VERTICAL LINE", '|'),
    ("RIGHT CURLY BRACKET", '\x7d'), ("TILDE", '~')]

/-- The letter at the end of a name that starts with the given words. -/
def letterAfter? (words : String) (name : List Char) : Option Char :=
  match Text.dropLead? words.toList name with
  | some [c] => if c.isUpper then some c else none
  | _ => none

def digitNamed? (name : List Char) : Option Char := do
  let word ← Text.dropLead? "DIGIT ".toList name
  let n ← digitNames.findIdx? fun d => d.toList == word
  return Char.ofNat ('0'.toNat + n)

/-- The character of a name, in which case does not count. -/
def charNamed? (name : List Char) : Option Char :=
  let name := name.map Char.toUpper
  (letterAfter? "LATIN CAPITAL LETTER " name)
    <|> (letterAfter? "LATIN SMALL LETTER " name).map Char.toLower
    <|> digitNamed? name
    <|> (markNames.find? fun e => e.1.toList == name).map (·.2)

end DocGrid.Pattern

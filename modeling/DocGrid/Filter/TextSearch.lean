import DocGrid.Filter.Terms
import DocGrid.Text.Case
import DocGrid.Text.Split
import DocGrid.Text.Word
import DocGrid.Value.Basic

/-! Searching all texts of a document. Words are looked for as whole words, all other terms
anywhere. -/

namespace DocGrid

namespace Value

mutual

/-- The texts inside a value, in the order of its entries and items. -/
def texts : Value → List String
  | text s => [s]
  | list items => textsOfItems items
  | mapping entries => textsOfEntries entries
  | _ => []

def textsOfItems : List Value → List String
  | [] => []
  | v :: rest => texts v ++ textsOfItems rest

def textsOfEntries : List (String × Value) → List String
  | [] => []
  | (_, v) :: rest => texts v ++ textsOfEntries rest

end

end Value

namespace TextSearch

/-- The words of a text: its longest runs of word characters. -/
def words : List Char → List (List Char)
  | [] => []
  | c :: rest =>
    if !Text.isWord c then words rest
    else
      match rest, words rest with
      | d :: _, w :: ws => if Text.isWord d then (c :: w) :: ws else [c] :: w :: ws
      | _, ws => [c] :: ws

def isCaseSensitive (options : Document) : Bool :=
  match options.get? "$caseSensitive" with
  | some v => v.isTruthy
  | none => ((options.get? "caseSensitive").map Value.isTruthy).getD false

def contains (caseSensitive : Bool) (text : List Char) (term : List Char) : Bool :=
  let needle := if caseSensitive then term else Text.lower term
  if needle.isEmpty || needle.contains ' ' || !needle.all Text.isWord then
    Text.occursIn needle text
  else (words text).contains needle

/-- Some wanted term occurs and no unwanted one does. -/
def matchesTerms (terms : List SearchTerm) (has : List Char → Bool) : Bool :=
  !(SearchTerm.unwanted terms).any has && (SearchTerm.wanted terms).any has

def holds (search : String) (options : Document) (doc : Value) : Bool :=
  let caseSensitive := isCaseSensitive options
  let joined := Text.join [' '] (doc.texts.map String.toList)
  let text := if caseSensitive then joined else Text.lower joined
  matchesTerms (SearchTerm.ofText search) (contains caseSensitive text)

end TextSearch

end DocGrid

import DocGrid.Failure
import DocGrid.Store.Sql.Conversions

/-! The values that a SQL table keeps, and the affinities by which columns change them: numbers
become texts in text columns, and texts that look like numbers become numbers in numeric ones. -/

namespace DocGrid

inductive Cell where
  | null
  | int (n : Int)
  | real (x : Binary64)
  | text (s : String)
  deriving DecidableEq, Repr

inductive Affinity where
  | integer
  | real
  | numeric
  | text
  deriving DecidableEq, Repr

variable [Conversions]

namespace Cell

def fitsWord (n : Int) : Bool :=
  decide (-0x8000000000000000 ≤ n) && decide (n < 0x8000000000000000)

/-- A whole double as a whole number, unless it is as large as sixty-four bits allow. -/
def wholeOr (x : Binary64) : Cell :=
  if x.isIntegral && decide (x.truncate.natAbs < 0x8000000000000000) then int x.truncate else real x

/-- A text that looks like a number as that number. -/
def ofNumeral (n : Numeral) : Cell :=
  if n.isWhole && fitsWord n.toInt then int n.toInt else real (Conversions.real n)

/-- What stands for a value in a comparison with a column. -/
def under (a : Affinity) (c : Cell) : Cell :=
  match a, c with
  | .text, int n => text (toString n)
  | .text, real x => text (Conversions.text x)
  | .text, c => c
  | _, text s => (Numeral.read? s).elim (text s) ofNumeral
  | _, c => c

def stored (a : Affinity) (c : Cell) : Cell :=
  match a, under a c with
  | .text, c => c
  | .real, int n => real (Binary64.ofInt n)
  | .real, real x => if x.isZero then real (Binary64.zero false) else real x
  | _, real x => wholeOr x
  | _, c => c

def quantity? : Cell → Option Quantity
  | int n => some (.ofInt n)
  | real x => Quantity.ofBinary64 x
  | _ => none

/-- The order of two cells, unknown when one of them is null. Numbers come before texts. -/
def compare? (a b : Cell) : Option Ordering :=
  match a, b with
  | null, _ => none
  | _, null => none
  | text s, text t => some (compare s t)
  | text _, _ => some .gt
  | _, text _ => some .lt
  | a, b =>
    match a.quantity?, b.quantity? with
    | some p, some q => some (p.order q)
    | _, _ => none

/-- The order in which rows are sorted: null comes first. -/
def le (a b : Cell) : Bool :=
  match a, b with
  | null, _ => true
  | _, null => false
  | a, b => (compare? a b).any Ordering.isLE

/-- A number that is none is null. -/
def ofBinary64 (x : Binary64) : Cell :=
  if x.isNaN then null else real x

/-- A value as it is handed to the database. -/
def ofValue : Value → Result Cell
  | .null => .ok null
  | .bool b => .ok (int (if b then 1 else 0))
  | .number (.int n) => if fitsWord n then .ok (int n) else .error .tooLarge
  | .number (.float x) => .ok (ofBinary64 x)
  | .number (.decimal _) => .error .storeValue
  | .text s => .ok (text s)
  | .date d => .ok (text d.text)
  | .datetime t => .ok (text (t.textWith ' '))
  | .list _ => .error .storeValue
  | .mapping _ => .error .storeValue

end Cell

end DocGrid

import DocGrid.Number.Number
import DocGrid.Time.DateTime

/-! The values that documents hold. A mapping keeps its entries in the order they were put in. -/

namespace DocGrid

inductive Value where
  | null
  | bool (b : Bool)
  | number (n : Number)
  | text (s : String)
  | date (d : CalendarDate)
  | datetime (t : DateTime)
  | list (items : List Value)
  | mapping (entries : List (String × Value))
  deriving Repr, Inhabited

/-- The entries of a document. -/
abbrev Document := List (String × Value)

namespace Document

def get? (key : String) : Document → Option Value
  | [] => none
  | (k, v) :: rest => if k = key then some v else get? key rest

@[simp] theorem get?_nil (key : String) : get? key [] = none := rfl

@[simp] theorem get?_cons (key : String) (e : String × Value) (rest : Document) :
    get? key (e :: rest) = if e.1 = key then some e.2 else get? key rest := rfl

def has (doc : Document) (key : String) : Bool :=
  (doc.get? key).isSome

/-- Replaces the value of a key where it stands, or adds the key at the end. -/
def put (key : String) (value : Value) : Document → Document
  | [] => [(key, value)]
  | (k, v) :: rest => if k = key then (k, value) :: rest else (k, v) :: put key value rest

def keys (doc : Document) : List String :=
  doc.map (·.1)

/-- Puts entries in one after the other; a repeated key keeps its first place. -/
def putAll (doc : Document) (entries : List (String × Value)) : Document :=
  entries.foldl (fun doc e => put e.1 e.2 doc) doc

def ofPairs (pairs : List (String × Value)) : Document :=
  putAll [] pairs

@[simp] theorem get?_put (doc : Document) (key k : String) (value : Value) :
    (doc.put key value).get? k = if key = k then some value else doc.get? k := by
  induction doc with
  | nil => simp [put]
  | cons entry rest ih =>
    obtain ⟨e, v⟩ := entry
    by_cases h : e = key
    · subst h
      simp only [put, if_true, get?_cons]
      split <;> rfl
    · simp only [put, h, if_false, get?_cons, ih]
      by_cases hk : e = k
      · subst hk
        simp [Ne.symm h]
      · simp [hk]

theorem mem_of_get? {doc : Document} {key : String} {v : Value} (h : doc.get? key = some v) :
    (key, v) ∈ doc := by
  induction doc with
  | nil => cases h
  | cons e rest ih =>
    obtain ⟨k, u⟩ := e
    rw [get?_cons] at h
    split at h
    · next hk =>
      cases h
      cases hk
      exact List.mem_cons_self
    · exact List.mem_cons_of_mem _ (ih h)

end Document

namespace Value

def int (n : Int) : Value := .number (.int n)

def float (x : Binary64) : Value := .number (.float x)

def isNull : Value → Bool
  | null => true
  | _ => false

def text? : Value → Option String
  | text s => some s
  | _ => none

/-- Truth values count as the numbers zero and one. -/
def number? : Value → Option Number
  | bool b => some (.int (if b then 1 else 0))
  | number n => some n
  | _ => none

/-- Whether the value holds something: zero, nothing and empty things do not. -/
def isTruthy : Value → Bool
  | null => false
  | bool b => b
  | number n => !n.isZero
  | text s => s != ""
  | date _ => true
  | datetime _ => true
  | list items => !items.isEmpty
  | mapping entries => !entries.isEmpty

end Value

end DocGrid

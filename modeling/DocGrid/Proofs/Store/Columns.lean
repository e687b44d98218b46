import DocGrid.Proofs.Json.RoundTrip
import DocGrid.Proofs.Number.Numerals
import DocGrid.Proofs.Results
import DocGrid.Proofs.Store.Cells
import DocGrid.Proofs.Time.Stored
import DocGrid.Value.Same

/-! What the columns of a database keep of the values they are meant for, and how these values come
back. -/

namespace DocGrid

namespace Value

theorem same_float {x : Binary64} (h : x.isNaN = false) : (Number.float x).same (.float x) = true := by
  obtain ⟨q, hq⟩ := Quantity.ofBinary64_isSome h
  simp [Number.same, Number.quantity?, hq]

theorem same_int (n : Int) : (Number.int n).same (.int n) = true := by
  simp [Number.same, Number.quantity?]

theorem sameItems_self {items : List Value} (h : ∀ v ∈ items, v.same v = true) :
    sameItems items items = true := by
  induction items with
  | nil => rfl
  | cons v rest ih =>
    obtain ⟨hv, hrest⟩ := List.forall_mem_cons.mp h
    rw [sameItems, hv, ih hrest]
    rfl

theorem get?_of_mem {doc : Document} {e : String × Value} (hkeys : doc.keys.Nodup) (he : e ∈ doc) :
    doc.get? e.1 = some e.2 := by
  induction doc with
  | nil => cases he
  | cons first rest ih =>
    obtain ⟨hnot, hrest⟩ := List.nodup_cons.mp hkeys
    rcases List.mem_cons.mp he with rfl | he
    · exact if_pos rfl
    · have hne : first.1 ≠ e.1 := by
        intro heq
        exact hnot (List.mem_map.mpr ⟨e, he, heq.symm⟩)
      exact (if_neg hne).trans (ih hrest he)

theorem sameEntries_iff {entries : List (String × Value)} {doc : Document} :
    sameEntries entries doc = true ↔
      ∀ e ∈ entries, ∃ w, doc.get? e.1 = some w ∧ e.2.same w = true := by
  induction entries with
  | nil => simp [sameEntries]
  | cons e rest ih =>
    rw [sameEntries, Bool.and_eq_true, ih, List.forall_mem_cons]
    cases doc.get? e.1 <;> simp

theorem IsJson.same_self {v : Value} (h : v.IsJson) : v.same v = true := by
  induction h with
  | null => rfl
  | bool b => simp [same]
  | int _ => exact same_int _
  | float hx => exact same_float hx
  | text s => simp [same]
  | list _ ih => exact sameItems_self ih
  | mapping hkeys _ ih =>
    have hentries := sameEntries_iff.mpr fun e he => ⟨e.2, get?_of_mem hkeys he, ih e he⟩
    simp [same, hentries]

end Value

/-- A double as a database reads it from its text. -/
def Binary64.reread [Conversions] (x : Binary64) : Binary64 :=
  (Numeral.read? (String.ofList (Json.floatText x))).elim x Conversions.real

theorem Binary64.isNaN_reread [Conversions] {x : Binary64} (h : x.isNaN = false) :
    x.reread.isNaN = false := by
  unfold reread
  cases Numeral.read? (String.ofList (Json.floatText x)) with
  | none => exact h
  | some n => exact Conversions.isNaN_real n

/-- A value that was kept as its JSON text in a numeric column. -/
def Value.reread [Conversions] : Value → Value
  | .number (.float x) => .float x.reread
  | v => v

theorem Value.reread_of_ne [Conversions] {v : Value} (h : ∀ x, v ≠ .float x) : v.reread = v := by
  unfold reread
  split
  · next x => exact absurd rfl (h x)
  · rfl

namespace ColumnType

/-- The values that a column is meant for. A whole number that is a JSON value by itself is kept in
the form of a number. -/
inductive Fits : ColumnType → Value → Prop
  | int {n : Int} (h : Cell.fitsWord n = true) : Fits .int (.int n)
  | float {x : Binary64} (h : x.isNaN = false) : Fits .float (.float x)
  | bool (b : Bool) : Fits .bool (.bool b)
  | text (s : String) : Fits .text (.text s)
  | plain (s : String) : Fits .plain (.text s)
  | datetime {t : DateTime} (h : t.IsNaive) : Fits .datetime (.datetime t)
  | json {type : ColumnType} {v : Value} (htype : type = .jsonList ∨ type = .jsonMapping)
      (h : v.IsJson) (hword : ∀ n, v = .int n → Cell.fitsWord n = true) : Fits type v

variable {type : ColumnType} {u v : Value} {c : Cell}

theorem read?_storedText (t : DateTime) : Numeral.read? t.storedText = none := by
  have hlast : ∀ d ∈ (Text.padded 6 t.microsecond).getLast?, Numeral.isSpace d = false := by
    have hsolid : ∀ c ∈ Reading.numeralChars, Numeral.isSpace c = false :=
      Reading.forall_numeralChars (by decide)
    intro d hd
    have hdigit : d.isDigit = true := Text.isDigit_of_mem_padded (List.mem_of_getLast? hd)
    exact hsolid d (Reading.mem_numeralChars_of_isDigit hdigit)
  obtain ⟨front, hfront⟩ : ∃ front, t.storedText.toList = Text.padded 4 t.date.year ++
      '-' :: (front ++ Text.padded 6 t.microsecond) :=
    ⟨Text.padded 2 t.date.month ++ '-' :: Text.padded 2 t.date.day ++ ' ' ::
      Text.padded 2 t.hour ++ ':' :: Text.padded 2 t.minute ++ ':' :: Text.padded 2 t.second ++ ['.'],
      by simp [Iso.storedClock, CalendarDate.textChars]⟩
  rw [← String.ofList_toList (s := t.storedText), hfront]
  refine Numeral.read?_digits_eq_none (Text.padded_ne_nil 4 _) (fun _ => Text.isDigit_of_mem_padded)
    (by decide) ?_
  rwa [← List.cons_append, List.getLast?_append_of_ne_nil _ (Text.padded_ne_nil 6 _)]

theorem read?_word {c : Char} {cs : List Char} (hc : c ∈ ['n', 't', 'f', 'I', '"', '[', '\x7b']) :
    Numeral.read? (String.ofList (c :: cs)) = none := by
  simp only [List.mem_cons, List.not_mem_nil, or_false] at hc
  rcases hc with rfl | rfl | rfl | rfl | rfl | rfl | rfl <;>
    exact Numeral.read?_eq_none rfl rfl ⟨by decide, by decide⟩ (by decide)

/-- How a value comes back that is kept as its JSON text. -/
theorem load_json (htype : type = .jsonList ∨ type = .jsonMapping) (cs : List Char) :
    type.load (.text (String.ofList cs)) = Json.read cs := by
  rcases htype with rfl | rfl <;> simp only [load, String.toList_ofList]

theorem load_plain (htype : type = .jsonList ∨ type = .jsonMapping) (hc : ∀ s, c ≠ .text s) :
    type.load c = .ok (plainValue c) := by
  cases c with
  | text s => exact absurd rfl (hc s)
  | _ => rcases htype with rfl | rfl <;> rfl

theorem Fits.convert (h : type.Fits v) :
    ∃ u c, type.convert v = .ok u ∧ Cell.ofValue u = .ok c := by
  cases h with
  | int hn => exact ⟨_, _, rfl, ofValue_int hn⟩
  | float hx => exact ⟨_, _, rfl, ofValue_float hx⟩
  | bool b => cases b <;> exact ⟨_, _, rfl, rfl⟩
  | text s => exact ⟨_, _, rfl, rfl⟩
  | plain s => exact ⟨_, _, rfl, rfl⟩
  | datetime ht => exact ⟨_, _, rfl, rfl⟩
  | json htype hv _ =>
    obtain ⟨cs, hprint, -⟩ := Json.read_print hv
    have hu : type.convert v = .ok (.text (String.ofList cs)) := by
      rcases htype with rfl | rfl <;> simp only [ColumnType.convert, toJson, hprint]
    exact ⟨_, _, hu, rfl⟩

theorem toRat_of_isIntegral {x : Binary64} (h : x.isIntegral = true) : x.toRat = x.truncate := by
  obtain ⟨-, hunits⟩ := Bool.and_eq_true_iff.mp h
  have hdvd : Binary64.unitsInOne ∣ x.units := Nat.dvd_of_mod_eq_zero (beq_iff_eq.mp hunits)
  have hsigned : (Binary64.unitsInOne : Int) ∣ x.signedUnits := by
    unfold Binary64.signedUnits
    split
    · exact (Int.dvd_neg).mpr (Int.natCast_dvd_natCast.mpr hdvd)
    · exact Int.natCast_dvd_natCast.mpr hdvd
  have hone : Binary64.unitsInOne ≠ 0 := Nat.pos_iff_ne_zero.mp Binary64.unitsInOne_pos
  have hvalue : x.truncate * (Binary64.unitsInOne : Int) = x.signedUnits :=
    Int.tdiv_mul_cancel hsigned
  have hrat := Rat.mkRat_mul_right (n := x.truncate) (d := 1) hone
  rw [hvalue, Nat.one_mul, Rat.mkRat_one] at hrat
  exact hrat

/-- A whole double is kept as a whole number of the same worth. -/
theorem same_wholeOr {x : Binary64} (h : x.isNaN = false) :
    (Value.float x).same (plainValue (Cell.wholeOr x)) = true := by
  unfold Cell.wholeOr
  split
  · next hwhole =>
    have hintegral := (Bool.and_eq_true_iff.mp hwhole).1
    have hfinite : x.exponent.val ≠ 2047 :=
      bne_iff_ne.mp (Bool.and_eq_true_iff.mp hintegral).1
    have hinfinite : x.isInfinite = false := by simp [Binary64.isInfinite, hfinite]
    have hquantity : Quantity.ofBinary64 x = some (.exact x.truncate) := by
      simp only [Quantity.ofBinary64, h, hinfinite, Bool.false_eq_true, if_false,
        toRat_of_isIntegral hintegral]
    have hsame : (Number.float x).same (.int x.truncate) = true := by
      simp [Number.same, Number.quantity?, hquantity, Quantity.ofInt]
    exact hsame
  · exact Value.same_float h

variable [Conversions]

/-- What a column gives back of a value it is meant for. A double that stands in a JSON column by
itself comes back as the number that its text is read as. -/
def returned (type : ColumnType) (v : Value) : Value :=
  if type = .jsonList ∨ type = .jsonMapping then v.reread else v

def cellOf (type : ColumnType) (v : Value) : Cell :=
  match type.convert v >>= Cell.ofValue with
  | .ok c => Cell.stored type.affinity c
  | .error _ => .null

theorem cellOf_eq (hu : type.convert v = .ok u) (hc : Cell.ofValue u = .ok c) :
    type.cellOf v = Cell.stored type.affinity c := by
  simp [cellOf, hu, hc]

theorem cellOf_int {n : Int} (h : Cell.fitsWord n = true) :
    ColumnType.int.cellOf (.int n) = .int n :=
  cellOf_eq rfl (ofValue_int h)

theorem cellOf_float {x : Binary64} (h : x.isNaN = false) : ColumnType.float.cellOf (.float x) =
    .real (if x.isZero then .zero false else x) := by
  rw [cellOf_eq rfl (ofValue_float h)]
  simp only [affinity, Cell.stored, Cell.under]
  split <;> rfl

@[simp]
theorem cellOf_bool (b : Bool) : ColumnType.bool.cellOf (.bool b) = .int (if b then 1 else 0) := by
  cases b <;> rfl

@[simp] theorem cellOf_text (s : String) : ColumnType.text.cellOf (.text s) = .text s :=
  rfl

@[simp] theorem cellOf_plain (s : String) : ColumnType.plain.cellOf (.text s) = .text s :=
  rfl

/-- A text that is no number stays a text in every column. -/
theorem stored_text {s : String} (h : Numeral.read? s = none) (a : Affinity) :
    Cell.stored a (.text s) = .text s := by
  cases a <;> simp [Cell.stored, Cell.under, h]

@[simp] theorem cellOf_datetime (t : DateTime) :
    ColumnType.datetime.cellOf (.datetime t) = .text t.storedText := by
  rw [cellOf_eq rfl rfl, stored_text (read?_storedText t)]

/-- A JSON value whose text is no number. -/
theorem cellOf_json (htype : type = .jsonList ∨ type = .jsonMapping) {cs : List Char}
    (hprint : Json.print false v = .ok cs) (hnone : Numeral.read? (String.ofList cs) = none) :
    type.cellOf v = .text (String.ofList cs) := by
  have hu : type.convert v = .ok (.text (String.ofList cs)) := by
    rcases htype with rfl | rfl <;> simp only [convert, toJson, hprint]
  rw [cellOf_eq hu rfl, stored_text hnone]

section Json

variable (htype : type = .jsonList ∨ type = .jsonMapping)

include htype

theorem cellOf_json_int {n : Int} (h : Cell.fitsWord n = true) : type.cellOf (.int n) = .int n := by
  have hvalue : (⟨decide (n < 0), Nat.toDigits 10 n.natAbs, [], 0, true⟩ : Numeral).toInt = n := by
    simp only [Numeral.toInt, Reading.natOf_toDigits, decide_eq_true_eq]
    split <;> omega
  have hu : type.convert (.int n) = .ok (.text (toString n)) := by
    rcases htype with rfl | rfl <;>
      simp only [convert, toJson, Json.print, Value.int, String.ofList_toList]
  have hstored : Cell.under .numeric (.text (toString n)) = .int n := by
    simp only [Cell.under, Numeral.read?_int, Option.elim_some, Cell.ofNumeral, hvalue, h,
      Bool.and_self, if_true]
  rw [cellOf_eq hu rfl]
  rcases htype with rfl | rfl <;> simp only [affinity, Cell.stored, hstored]

theorem cellOf_json_float {x : Binary64} (hx : x.isFinite = true) :
    type.cellOf (.float x) = Cell.wholeOr x.reread := by
  obtain ⟨n, hread, hwhole⟩ := Numeral.read?_double hx
  have hu : type.convert (.float x) = .ok (.text (String.ofList (Json.floatText x))) := by
    rcases htype with rfl | rfl <;> rfl
  have hstored : Cell.under .numeric (.text (String.ofList (Json.floatText x))) =
      .real x.reread := by
    simp only [Cell.under, Binary64.reread, hread, Option.elim_some, Cell.ofNumeral, hwhole,
      Bool.false_and, Bool.false_eq_true, if_false]
  rw [cellOf_eq hu rfl]
  rcases htype with rfl | rfl <;> simp only [affinity, Cell.stored, hstored]

/-- A JSON value comes back as an equal one, or as the double that its text is read as. -/
theorem load_cellOf_json (h : v.IsJson) (hword : ∀ n, v = .int n → Cell.fitsWord n = true) :
    type.cellOf v ≠ .null ∧
      ∃ w, type.load (type.cellOf v) = .ok w ∧ (type.returned v).same w = true := by
  obtain ⟨cs, hprint, hread⟩ := Json.read_print h
  have hreturned : type.returned v = v.reread := if_pos htype
  have htext : Numeral.read? (String.ofList cs) = none → v.reread = v →
      type.cellOf v ≠ .null ∧ ∃ w, type.load (type.cellOf v) = .ok w ∧ v.reread.same w = true := by
    intro hnone hsame
    rw [cellOf_json htype hprint hnone, load_json htype, hsame]
    exact ⟨by simp, v, hread, h.same_self⟩
  rw [hreturned]
  -- A finite number is kept as a number, everything else as its text.
  cases h with
  | null =>
    obtain rfl := Except.ok.inj hprint
    exact htext rfl rfl
  | bool b =>
    obtain rfl := Except.ok.inj hprint
    cases b <;> exact htext rfl rfl
  | @int n hn =>
    rw [cellOf_json_int htype (hword n rfl), load_plain htype (by simp)]
    exact ⟨by simp, _, rfl, Value.same_int n⟩
  | @float x hx =>
    by_cases hfinite : x.isFinite = true
    · have hcell : Cell.wholeOr x.reread ≠ .null ∧ ∀ s, Cell.wholeOr x.reread ≠ .text s := by
        unfold Cell.wholeOr
        split <;> simp
      rw [cellOf_json_float htype hfinite, load_plain htype hcell.2]
      exact ⟨hcell.1, _, rfl, same_wholeOr (Binary64.isNaN_reread hx)⟩
    · obtain rfl := Except.ok.inj hprint
      obtain ⟨negative, rfl⟩ : ∃ negative, x = .infinity negative :=
        ⟨_, Json.eq_infinity hx hfinite⟩
      cases negative <;> exact htext rfl rfl
  | text s =>
    obtain rfl := Except.ok.inj hprint
    exact htext (read?_word (by simp)) rfl
  | list hitems =>
    obtain ⟨pieces, -, hcs⟩ := Result.ok_of_bind hprint
    obtain rfl := Except.ok.inj hcs
    exact htext (read?_word (by simp)) rfl
  | mapping hkeys hentries =>
    obtain ⟨pieces, -, hcs⟩ := Result.ok_of_bind hprint
    obtain rfl := Except.ok.inj hcs
    exact htext (read?_word (by simp)) rfl

end Json

/-- A value that a column is meant for is kept. -/
theorem Fits.load (h : type.Fits v) : type.cellOf v ≠ .null ∧
    ∃ w, type.load (type.cellOf v) = .ok w ∧ (type.returned v).same w = true := by
  cases h with
  | @int n hn =>
    rw [cellOf_int hn]
    exact ⟨by simp, _, rfl, Value.same_int n⟩
  | @float x hx =>
    rw [cellOf_float hx]
    refine ⟨by simp, _, rfl, ?_⟩
    by_cases hzero : x.isZero = true
    · obtain ⟨q, hq⟩ := Quantity.ofBinary64_isSome hx
      have hsame : (Number.float x).same (.float (.zero false)) = true := by
        simp [Number.same, Number.quantity?, Quantity.ofBinary64_zero hzero, hq]
      rwa [if_pos hzero]
    · rw [if_neg hzero]
      exact Value.same_float hx
  | bool b =>
    rw [cellOf_bool b]
    cases b <;> exact ⟨by simp, _, rfl, rfl⟩
  | text s =>
    rw [cellOf_text]
    exact ⟨by simp, _, rfl, beq_self_eq_true s⟩
  | plain s =>
    rw [cellOf_plain]
    exact ⟨by simp, _, rfl, beq_self_eq_true s⟩
  | @datetime t ht =>
    rw [cellOf_datetime]
    refine ⟨by simp, .datetime t, ?_, by simp [returned, Value.same, DateTime.same]⟩
    simp only [ColumnType.load, Iso.dateTime?_storedText ht]
    rfl
  | json htype hv hword => exact load_cellOf_json htype hv hword

end ColumnType

end DocGrid

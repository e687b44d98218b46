import DocGrid.Proofs.Number.Shortest
import DocGrid.Proofs.Text.Split
import DocGrid.Query.Page
import Mathlib.Algebra.Order.Field.Rat
import Mathlib.Data.List.Basic
import Mathlib.Data.List.TakeWhile
import Mathlib.Data.Rat.Cast.Order
import Mathlib.Tactic.Linarith

/-! Page numbers and sizes as requests give them. Every number and every text has an answer, but for
texts that start with more digits than a whole number may have. -/

namespace DocGrid

namespace Text

variable {c : Char} {digits : List Char}

theorem digitFrom_eq_some {zeros : List Nat} {n d : Nat} (h : digitFrom zeros n = some d) :
    ∃ z ∈ zeros, n = z + d ∧ d < 10 := by
  induction zeros with
  | nil => cases h
  | cons z rest ih =>
    unfold digitFrom at h
    split at h
    · cases h
    · split at h
      · obtain rfl := Option.some.inj h
        exact ⟨z, List.mem_cons_self, by omega, by omega⟩
      · obtain ⟨y, hy, hn⟩ := ih h
        exact ⟨y, List.mem_cons_of_mem _ hy, hn⟩

theorem not_isBlank_of_isDigit (h : isDigit c = true) : isBlank c = false := by
  obtain ⟨d, hd⟩ := Option.isSome_iff_exists.mp h
  obtain ⟨z, hz, hc, hd⟩ := digitFrom_eq_some hd
  have hapart : ∀ z ∈ zeroDigits, ∀ r ∈ blankChars.ranges, r.2 < z ∨ z + 10 ≤ r.1 := by decide
  have houtside {ranges : List (Nat × Nat)} (hr : ∀ r ∈ ranges, r.2 < z ∨ z + 10 ≤ r.1) :
      RangeSet.covers ranges c.toNat = false := by
    induction ranges with
    | nil => rfl
    | cons r rest ih =>
      obtain ⟨hfirst, hrest⟩ := List.forall_mem_cons.mp hr
      rw [RangeSet.covers]
      split
      · rfl
      · rw [ih hrest, Bool.or_false, decide_eq_false_iff_not]
        omega
  exact houtside (hapart z hz)

/-- The number that digits of any scripts stand for. -/
def worth (digits : List Char) : Nat :=
  digits.foldl (fun n c => 10 * n + (digitValue? c).getD 0) 0

theorem natOf_plainDigits (h : ∀ c ∈ digits, isDigit c = true) :
    Reading.natOf (digits.map Reading.plainDigit) = worth digits := by
  have hcode : ∀ d < 10, (Char.ofNat (0x30 + d)).toNat - 0x30 = d := by decide
  rw [Reading.natOf, worth, List.foldl_map]
  refine List.foldl_ext _ _ _ fun n c hc => ?_
  obtain ⟨d, hd⟩ := Option.isSome_iff_exists.mp (h c hc)
  obtain ⟨_, _, _, hlt⟩ := digitFrom_eq_some hd
  rw [Reading.plainDigit, hd, hcode d hlt, Option.getD_some, Nat.mul_comm]

end Text

namespace Page

def IsSign : Bool → List Char → Prop
  | true, cs => cs = ['-']
  | false, cs => cs = [] ∨ cs = ['+']

/-- The text starts with a number: white space, a sign or none, and then digits, up to the first
character that is none. -/
structure StartsWith (s : String) (negative : Bool) (digits : List Char) : Prop where
  digits_ne : digits ≠ []
  digits_all : ∀ c ∈ digits, Text.isDigit c = true
  split : ∃ blanks sign rest, s.toList = blanks ++ (sign ++ (digits ++ rest)) ∧
    (∀ c ∈ blanks, Text.isBlank c = true) ∧ IsSign negative sign ∧
    ∀ c ∈ rest.head?, Text.isDigit c = false

theorem isSign_splitSign (cs : List Char) : ∃ sign, cs = sign ++ (Reading.splitSign cs).2 ∧
    IsSign (Reading.splitSign cs).1 sign := by
  unfold Reading.splitSign
  split
  · exact ⟨['-'], rfl, rfl⟩
  · exact ⟨['+'], rfl, .inr rfl⟩
  · exact ⟨[], rfl, .inl rfl⟩

theorem splitSign_append {negative : Bool} {sign digits : List Char} (h : IsSign negative sign)
    (hdigits : digits ≠ []) (hall : ∀ c ∈ digits, Text.isDigit c = true) (rest : List Char) :
    Reading.splitSign (sign ++ (digits ++ rest)) = (negative, digits ++ rest) := by
  cases negative with
  | true =>
    obtain rfl := h
    rfl
  | false =>
    rcases h with rfl | rfl
    · obtain ⟨c, more, rfl⟩ := List.exists_cons_of_ne_nil hdigits
      have hc := hall c List.mem_cons_self
      have hsigns : Text.isDigit '-' = false ∧ Text.isDigit '+' = false := by decide
      rw [List.nil_append, List.cons_append]
      unfold Reading.splitSign
      split
      · next heq => rw [(List.cons.inj heq).1, hsigns.1] at hc; cases hc
      · next heq => rw [(List.cons.inj heq).1, hsigns.2] at hc; cases hc
      · rfl
    · rfl

theorem trimStart_blanks {blanks cs : List Char} (h : ∀ c ∈ blanks, Text.isBlank c = true)
    (hcs : ∀ c ∈ cs.head?, Text.isBlank c = false) : Text.trimStart (blanks ++ cs) = cs :=
  Text.dropWhile_run h hcs

namespace StartsWith

variable {s : String} {negative : Bool} {digits : List Char}

/-- The sign and the digits that are found in the text. -/
theorem found (h : StartsWith s negative digits) :
    (Reading.splitSign (Text.trimStart s.toList)).1 = negative ∧
      (Reading.splitSign (Text.trimStart s.toList)).2.takeWhile Text.isDigit = digits := by
  obtain ⟨blanks, sign, rest, hs, hblanks, hsign, hrest⟩ := h.split
  have hsolid : ∀ c ∈ (sign ++ (digits ++ rest)).head?, Text.isBlank c = false := by
    obtain ⟨d, more, hdigits⟩ := List.exists_cons_of_ne_nil h.digits_ne
    have hd : Text.isBlank d = false :=
      Text.not_isBlank_of_isDigit (h.digits_all d (by simp [hdigits]))
    have hsigns : Text.isBlank '-' = false ∧ Text.isBlank '+' = false := by decide
    cases negative with
    | true =>
      obtain rfl := hsign
      simpa using hsigns.1
    | false =>
      rcases hsign with rfl | rfl
      · simpa [hdigits] using hd
      · simpa using hsigns.2
  rw [hs, trimStart_blanks hblanks hsolid, splitSign_append hsign h.digits_ne h.digits_all]
  exact ⟨rfl, Text.takeWhile_run h.digits_all hrest⟩

theorem unique {negative' : Bool} {digits' : List Char} (h : StartsWith s negative digits)
    (h' : StartsWith s negative' digits') : negative = negative' ∧ digits = digits' :=
  ⟨h.found.1.symm.trans h'.found.1, h.found.2.symm.trans h'.found.2⟩

end StartsWith

/-- Digits that are found show how the text starts. -/
theorem startsWith_of_found {s : String} (h : (Reading.splitSign (Text.trimStart s.toList)).2.takeWhile
    Text.isDigit ≠ []) : StartsWith s (Reading.splitSign (Text.trimStart s.toList)).1
      ((Reading.splitSign (Text.trimStart s.toList)).2.takeWhile Text.isDigit) := by
  obtain ⟨sign, hsign, his⟩ := isSign_splitSign (Text.trimStart s.toList)
  refine ⟨h, fun c hc => List.mem_takeWhile_imp hc, s.toList.takeWhile Text.isBlank, sign,
    (Reading.splitSign (Text.trimStart s.toList)).2.dropWhile Text.isDigit, ?_,
    fun c hc => List.mem_takeWhile_imp hc, his, fun c hc => ?_⟩
  · rw [List.takeWhile_append_dropWhile, ← hsign, Text.trimStart, List.takeWhile_append_dropWhile]
  · have hnot := List.head?_dropWhile_not Text.isDigit
      (Reading.splitSign (Text.trimStart s.toList)).2
    rw [Option.mem_def.mp hc] at hnot
    simpa using hnot

def signed (negative : Bool) (n : Nat) : Int :=
  if negative then -(n : Int) else n

/-- What a number is without the digits after the point. -/
structure IsWholePart (q : Rat) (n : Int) : Prop where
  nonneg : 0 ≤ q → (n : Rat) ≤ q ∧ q < n + 1
  nonpos : q ≤ 0 → q ≤ n ∧ (n : Rat) - 1 < q

theorem IsWholePart.unique {q : Rat} {n m : Int} (hn : IsWholePart q n) (hm : IsWholePart q m) :
    n = m := by
  have hclose : (n : Rat) < m + 1 ∧ (m : Rat) < n + 1 := by
    rcases le_total 0 q with hq | hq
    · have hn := hn.nonneg hq
      have hm := hm.nonneg hq
      exact ⟨hn.1.trans_lt hm.2, hm.1.trans_lt hn.2⟩
    · have hn := hn.nonpos hq
      have hm := hm.nonpos hq
      constructor <;> linarith
  have hle : n < m + 1 ∧ m < n + 1 := by exact_mod_cast hclose
  omega

theorem isWholePart_tdiv (a : Int) {d : Nat} (hd : 0 < d) :
    IsWholePart (mkRat a d) (a.tdiv d) := by
  have hd' : (0 : Rat) < d := by exact_mod_cast hd
  have hdiv := Int.mul_tdiv_add_tmod a d
  have hbelow := Int.tmod_lt_of_pos a (b := d) (by omega)
  have habove := Int.lt_tmod_of_pos a (b := d) (by omega)
  rw [Rat.mkRat_eq_div]
  constructor
  · intro hq
    have ha : 0 ≤ a := by
      rw [le_div_iff₀ hd', zero_mul] at hq
      exact_mod_cast hq
    have hrest := Int.tmod_nonneg (d : Int) ha
    rw [le_div_iff₀ hd', div_lt_iff₀ hd']
    constructor
    · exact_mod_cast (by linarith : a.tdiv d * d ≤ a)
    · exact_mod_cast (by linarith : a < (a.tdiv d + 1) * d)
  · intro hq
    have ha : a ≤ 0 := by
      rw [div_le_iff₀ hd', zero_mul] at hq
      exact_mod_cast hq
    have hrest := Int.tmod_nonneg (d : Int) (Int.neg_nonneg_of_nonpos ha)
    rw [Int.neg_tmod] at hrest
    rw [div_le_iff₀ hd', lt_div_iff₀ hd']
    constructor
    · exact_mod_cast (by linarith : a ≤ a.tdiv d * d)
    · exact_mod_cast (by linarith : (a.tdiv d - 1) * d < a)

theorem isWholePart_truncate (x : Binary64) : IsWholePart x.toRat x.truncate :=
  isWholePart_tdiv x.signedUnits Binary64.unitsInOne_pos

/-- Nothing, a whole number, a double or a text. -/
def admits : Value → Bool
  | .null => true
  | .number (.int _) => true
  | .number (.float _) => true
  | .text _ => true
  | _ => false

/-- The number that a request names as a page or a size, if it names one. -/
inductive Names : Value → Option Int → Prop
  | nothing : Names .null none
  | whole (n : Int) : Names (.int n) (some n)
  | cut {x : Binary64} {n : Int} (finite : x.isFinite = true) (part : IsWholePart x.toRat n) :
      Names (.float x) (some n)
  | endless {x : Binary64} (endless : x.isFinite = false) : Names (.float x) none
  | leading {s : String} {negative : Bool} {digits : List Char}
      (start : StartsWith s negative digits) :
      Names (.text s) (some (signed negative (Text.worth digits)))
  | unreadable {s : String} (start : ∀ negative digits, ¬ StartsWith s negative digits) :
      Names (.text s) none

/-- A text that starts with more digits than a whole number may have. -/
def Overlong (v : Value) : Prop :=
  ∃ s negative digits, v = .text s ∧ StartsWith s negative digits ∧
    Reading.maxDigits < digits.length

variable {v : Value} {n m : Option Int}

theorem exists_names (h : admits v = true) : ∃ n, Names v n := by
  unfold admits at h
  split at h
  · exact ⟨_, .nothing⟩
  · exact ⟨_, .whole _⟩
  · next x =>
    cases hx : x.isFinite with
    | true => exact ⟨_, .cut hx (isWholePart_truncate x)⟩
    | false => exact ⟨_, .endless hx⟩
  · next s =>
    by_cases hs : ∃ negative digits, StartsWith s negative digits
    · obtain ⟨_, _, hs⟩ := hs
      exact ⟨_, .leading hs⟩
    · exact ⟨_, .unreadable fun negative digits hstart => hs ⟨negative, digits, hstart⟩⟩
  · cases h

theorem Names.unique (hn : Names v n) (hm : Names v m) : n = m := by
  cases hn with
  | nothing => cases hm; rfl
  | whole k => cases hm; rfl
  | cut hfinite hpart =>
    cases hm with
    | cut _ hpart' => rw [hpart.unique hpart']
    | endless hendless => rw [hfinite] at hendless; cases hendless
  | endless hendless =>
    cases hm with
    | cut hfinite _ => rw [hfinite] at hendless; cases hendless
    | endless _ => rfl
  | leading hstart =>
    cases hm with
    | leading hstart' =>
      obtain ⟨rfl, rfl⟩ := hstart.unique hstart'
      rfl
    | unreadable hnone => exact absurd hstart (hnone _ _)
  | unreadable hnone =>
    cases hm with
    | leading hstart => exact absurd hstart (hnone _ _)
    | unreadable _ => rfl

theorem leadingInt?_of_startsWith {s : String} {negative : Bool} {digits : List Char}
    (h : StartsWith s negative digits) : leadingInt? s =
      if Reading.maxDigits < digits.length then .error .badValue
      else .ok (some (signed negative (Text.worth digits))) := by
  have hne : digits.isEmpty = false := List.isEmpty_eq_false_iff.mpr h.digits_ne
  simp only [leadingInt?, h.found.1, h.found.2, hne, Text.natOf_plainDigits h.digits_all, signed]
  rfl

theorem int?_of_overlong (h : Overlong v) : int? v = .error .badValue := by
  obtain ⟨s, negative, digits, rfl, hstart, hlong⟩ := h
  exact (leadingInt?_of_startsWith hstart).trans (if_pos hlong)

theorem Names.int?_eq (h : Names v n) (hfits : ¬ Overlong v) : int? v = .ok n := by
  cases h with
  | nothing => rfl
  | whole k => rfl
  | @cut x k hfinite hpart =>
    rw [← (isWholePart_truncate x).unique hpart]
    simp [int?, Value.float, hfinite]
  | endless hendless => simp [int?, Value.float, hendless]
  | leading hstart =>
    have hshort := fun hlong => hfits ⟨_, _, _, rfl, hstart, hlong⟩
    exact (leadingInt?_of_startsWith hstart).trans (if_neg hshort)
  | @unreadable s hnone =>
    have hempty : (Reading.splitSign (Text.trimStart s.toList)).2.takeWhile Text.isDigit = [] := by
      by_contra hne
      exact hnone _ _ (startsWith_of_found hne)
    simp [int?, leadingInt?, hempty]

/-- The number of a page, where the first one is meant when nothing is named. -/
def ordinal (page : Value) (named : Option Int) : Int :=
  if page.isNull then 1 else max (named.getD 0) 0

theorem window_of_overlong (h : Overlong v) (items : Value) (default : Int) :
    window v items default = .error .badValue := by
  have hnull : v.isNull = false := by
    obtain ⟨s, _, _, rfl, -⟩ := h
    rfl
  rw [window, hnull, int?_of_overlong h]
  rfl

/-- The window of a page that has been read depends on the size alone. -/
theorem window_of_page (h : Names v n) (hfits : ¬ Overlong v) (items : Value) (default : Int) :
    ∃ p : Option Int, max (p.getD 0 - 1) 0 = max (ordinal v n - 1) 0 ∧
      window v items default = (int? items).map fun size =>
        ⟨(p.getD 0 - 1).toNat * (size.getD default).toNat, (size.getD default).toNat⟩ := by
  cases hnull : v.isNull with
  | true =>
    refine ⟨some 1, by simp [ordinal, hnull], ?_⟩
    rw [window, hnull]
    cases int? items <;> rfl
  | false =>
    refine ⟨n, ?_, ?_⟩
    · simp only [ordinal, hnull, Bool.false_eq_true, if_false]
      omega
    · rw [window, hnull, h.int?_eq hfits]
      cases int? items <;> rfl

theorem window_answer {page items : Value} (hpage : admits page = true)
    (hitems : admits items = true) (default : Int) :
    (∃! p, Names page p) ∧ (∃! n, Names items n) ∧
    (Overlong page ∨ Overlong items → window page items default = .error .badValue) ∧
    (¬ (Overlong page ∨ Overlong items) → ∀ p n, Names page p → Names items n →
      ∃ w, window page items default = .ok w ∧ (w.limit : Int) = max (n.getD default) 0 ∧
        (w.offset : Int) = w.limit * max (ordinal page p - 1) 0) := by
  obtain ⟨p, hp⟩ := exists_names hpage
  obtain ⟨n, hn⟩ := exists_names hitems
  refine ⟨⟨p, hp, fun q hq => hq.unique hp⟩, ⟨n, hn, fun m hm => hm.unique hn⟩, ?_, ?_⟩
  · intro hlong
    by_cases hpages : Overlong page
    · exact window_of_overlong hpages items default
    · obtain ⟨number, -, hwindow⟩ := window_of_page hp hpages items default
      rw [hwindow, int?_of_overlong (hlong.resolve_left hpages)]
      rfl
  · intro hfits q m hq hm
    obtain ⟨hpages, hsizes⟩ := not_or.mp hfits
    obtain ⟨number, hnumber, hwindow⟩ := window_of_page hq hpages items default
    rw [hm.int?_eq hsizes] at hwindow
    refine ⟨_, hwindow, Int.toNat_eq_max _, ?_⟩
    rw [← hnumber, Nat.cast_mul, Int.toNat_eq_max, mul_comm]

/-- Page thirty by the digits of another script, with two and a half items. -/
theorem window_answer_thirtieth :
    let page : Value := .text "\u3000+٣٠x"
    let items : Value := .float ⟨false, 1024, 0x4000000000000⟩
    admits page = true ∧ admits items = true ∧ Names page (some 30) ∧ Names items (some 2) ∧
      window page items 10 = .ok ⟨58, 2⟩ := by
  intro page items
  have hadmits : admits page = true ∧ admits items = true := ⟨rfl, rfl⟩
  have hdigits : ∀ c ∈ ['٣', '٠'], Text.isDigit c = true :=
    List.forall_mem_cons.mpr ⟨by decide, List.forall_mem_singleton.mpr (by decide)⟩
  have hrest : ∀ c ∈ ['x'].head?, Text.isDigit c = false := by
    rintro c ⟨rfl⟩
    decide
  have hstart : StartsWith "\u3000+٣٠x" false ['٣', '٠'] :=
    ⟨by decide, hdigits, ['\u3000'], ['+'], ['x'], rfl, List.forall_mem_singleton.mpr (by decide),
      .inr rfl, hrest⟩
  have hthirty : Text.worth ['٣', '٠'] = 30 := by decide
  have hpage : Names page (some 30) := by
    have hnames := Names.leading hstart
    rwa [hthirty] at hnames
  have hitems : Names items (some 2) := by
    have htwo : Binary64.truncate ⟨false, 1024, 0x4000000000000⟩ = 2 := by decide +kernel
    have hnames := Names.cut rfl (isWholePart_truncate ⟨false, 1024, 0x4000000000000⟩)
    rwa [htwo] at hnames
  have hfits : ¬ (Overlong page ∨ Overlong items) := by
    rintro (⟨s, negative, digits, hs, hdigits, hlong⟩ | ⟨s, negative, digits, hs, -⟩)
    · obtain rfl := Value.text.inj hs
      rw [← (hstart.unique hdigits).2] at hlong
      exact absurd hlong (by decide)
    · simp [items, Value.float] at hs
  obtain ⟨⟨offset, limit⟩, hwindow, hlimit, hoffset⟩ :=
    (window_answer hadmits.1 hadmits.2 10).2.2.2 hfits _ _ hpage hitems
  obtain rfl : limit = 2 := Int.ofNat_inj.mp hlimit
  obtain rfl : offset = 58 := Int.ofNat_inj.mp hoffset
  exact ⟨hadmits.1, hadmits.2, hpage, hitems, hwindow⟩

theorem overlong_ones {k : Nat} (h : Reading.maxDigits < k) :
    Overlong (.text (String.ofList (List.replicate k '1'))) := by
  have hne : k ≠ 0 := by omega
  refine ⟨_, false, List.replicate k '1', rfl, ⟨by simpa using hne, fun c hc => ?_, [], [], [], ?_⟩,
    by simpa using h⟩
  · rw [List.eq_of_mem_replicate hc]
    decide
  · simp [IsSign]

theorem not_window_isOk : ¬ ∀ (page items : Value) (default : Int), admits page = true →
    admits items = true → ∃ w, window page items default = .ok w := by
  intro hall
  obtain ⟨w, hw⟩ := hall (.text (String.ofList (List.replicate 4301 '1'))) (.int 0) 10 rfl rfl
  have hlong := overlong_ones (show Reading.maxDigits < 4301 by decide)
  rw [window_of_overlong hlong] at hw
  cases hw

end Page

end DocGrid

import DocGrid.Proofs.Text.Digits
import DocGrid.Time.Iso
import Mathlib.Data.List.Basic
import Mathlib.Data.List.TakeWhile

/-! Points in time without an offset are read back from their ISO texts, also when the colons
between hours, minutes and seconds are left out. -/

namespace DocGrid

/-- The points in time that have no offset. -/
structure DateTime.IsNaive (t : DateTime) : Prop where
  date : t.date.isValid = true
  hour : t.hour < 24
  minute : t.minute < 60
  second : t.second < 60
  microsecond : t.microsecond < 1000000
  offset : t.offset = none

def DateTime.compactText (t : DateTime) : String :=
  String.ofList (t.text.toList.filter (· != ':'))

namespace Iso

theorem digit?_of_isDigit {c : Char} (h : c.isDigit = true) :
    digit? c = some (c.toNat - 0x30) := by
  obtain ⟨hlow, hhigh⟩ := Char.isDigit_iff_toNat.mp h
  exact if_pos ⟨hlow, hhigh⟩

theorem number?_digits {ds : List Char} (h : ∀ c ∈ ds, c.isDigit = true) (n : Nat)
    (rest : List Char) :
    number? ds.length n (ds ++ rest) = some (Nat.ofDigitChars 10 ds n, rest) := by
  induction ds generalizing n with
  | nil => rfl
  | cons c ds ih =>
    obtain ⟨hc, hds⟩ := List.forall_mem_cons.mp h
    rw [List.length_cons, List.cons_append, number?, digit?_of_isDigit hc, Option.bind_some,
      ih hds, Nat.ofDigitChars_cons, Nat.mul_comm]
    rfl

theorem number?_padded {width n : Nat} (hw : 0 < width) (h : n < 10 ^ width) (rest : List Char) :
    number? width 0 (Text.padded width n ++ rest) = some (n, rest) := by
  have hdigit : ∀ c ∈ Text.padded width n, c.isDigit = true := fun _ => Text.isDigit_of_mem_padded
  have hread := number?_digits hdigit 0 rest
  rwa [Text.length_padded hw h, Text.ofDigitChars_padded] at hread

theorem padded_two {n : Nat} (h : n < 100) : ∃ c d, Text.padded 2 n = [c, d] ∧
    c.isDigit = true ∧ d.isDigit = true := by
  have hlen := Text.length_padded (by decide : 0 < 2) h
  obtain ⟨c, d, hcd⟩ := List.length_eq_two.mp hlen
  have hdigit : ∀ a ∈ Text.padded 2 n, a.isDigit = true := fun _ => Text.isDigit_of_mem_padded
  rw [hcd] at hdigit
  exact ⟨c, d, hcd, hdigit c (by simp), hdigit d (by simp)⟩

theorem ne_of_isDigit {c d : Char} (hc : c.isDigit = true) (hd : d.isDigit = false) : c ≠ d := by
  rintro rfl
  exact Bool.false_ne_true (hd.symm.trans hc)

theorem daysInMonth_lt (year month : Nat) : CalendarDate.daysInMonth year month < 100 := by
  unfold CalendarDate.daysInMonth
  split
  · split <;> decide
  all_goals decide

section Day

variable {d : CalendarDate} (h : d.isValid = true)

include h

theorem date_bounds : d.year < 10 ^ 4 ∧ d.month < 100 ∧ d.day < 100 := by
  simp only [CalendarDate.isValid, Bool.and_eq_true, decide_eq_true_eq] at h
  have hday := daysInMonth_lt d.year d.month
  omega

/-- A day is read back from its text. -/
@[simp] theorem date?_textChars : date? d.textChars = some d := by
  obtain ⟨hyear, hmonth, hday⟩ := date_bounds h
  have hmonthDate : monthDate? d.year true (Text.padded 2 d.month ++ '-' :: Text.padded 2 d.day) =
      some d := by
    have hread := number?_padded (by decide : 0 < 2) hday []
    rw [List.append_nil] at hread
    simp [monthDate?, number?_padded (by decide : 0 < 2) hmonth, skipHyphen?, hread, h]
  obtain ⟨a, b, hab, ha, -⟩ := padded_two hmonth
  have hweek : a ≠ 'W' := ne_of_isDigit ha rfl
  rw [hab] at hmonthDate
  simp only [CalendarDate.textChars, List.append_assoc, List.cons_append, date?, hab,
    number?_padded (by decide : 0 < 4) hyear, Option.bind_eq_bind, Option.bind_some,
    List.head?_cons, beq_self_eq_true, if_true, List.tail_cons]
  split
  · next heq => exact absurd (List.cons.inj heq).1 hweek
  · exact hmonthDate

@[simp] theorem length_textChars : d.textChars.length = 10 := by
  obtain ⟨hyear, hmonth, hday⟩ := date_bounds h
  have hfour := Text.length_padded (by decide : 0 < 4) hyear
  simp [CalendarDate.textChars, hfour, hmonth, hday]

@[simp] theorem dateLength?_textChars (c : Char) (rest : List Char) :
    dateLength? (d.textChars ++ c :: rest) = some 10 := by
  obtain ⟨hyear, hmonth, hday⟩ := date_bounds h
  obtain ⟨a, b, hab, ha, -⟩ := padded_two hmonth
  have hweek : a ≠ 'W' := ne_of_isDigit ha rfl
  have hfour := Text.length_padded (by decide : 0 < 4) hyear
  have hlen : (d.textChars ++ c :: rest).length ≠ 7 := by
    simp [h]
    omega
  have hhyphen : (d.textChars ++ c :: rest)[4]? = some '-' := by
    simp [CalendarDate.textChars, hfour]
  have hsolid : (d.textChars ++ c :: rest)[5]? ≠ some 'W' := by
    simp [CalendarDate.textChars, List.getElem?_append_right, hfour, hab, hweek]
  rw [dateLength?, if_neg hlen, if_pos hhyphen, if_neg hsolid]

end Day

section Clock

variable {stop : Char} {clock : Clock}

/-- A place that is followed by the digits of the next one. -/
theorem places?_next {more place n m : Nat} {colons : Bool} (hplace : place = 0 ∨ colons = false)
    (hn : n < 100) (hm : m < 100) (rest : List Char) :
    places? stop (more + 1) place colons clock
        (Text.padded 2 n ++ (Text.padded 2 m ++ rest)) =
      places? stop more (place + 1) false (clock.set place n) (Text.padded 2 m ++ rest) := by
  obtain ⟨c, d, hcd, hc, hd⟩ := padded_two hm
  have hcolon : c ≠ ':' := ne_of_isDigit hc rfl
  have hsame : (c == ':') = false := beq_eq_false_iff_ne.mpr hcolon
  have hpoint : c ≠ '.' := ne_of_isDigit hc rfl
  have hcomma : c ≠ ',' := ne_of_isDigit hc rfl
  rcases hplace with rfl | rfl <;>
    simp [places?, number?_padded (by decide : 0 < 2) hn, hcd, hcolon, hsame, hpoint, hcomma]

def fractionText (n : Nat) : List Char :=
  if n = 0 then [] else '.' :: Text.padded 6 n

theorem fraction?_padded (clock : Clock) {n : Nat} (h : n < 1000000) : fraction? terminator clock
    (Text.padded 6 n) = some ({ clock with microsecond := n }, false) := by
  have hlen := Text.length_padded (by decide : 0 < 6) h
  have hread := number?_padded (by decide : 0 < 6) h []
  rw [List.append_nil] at hread
  have hleft : isLeftOver terminator [] = false := by decide
  simp [fraction?, hlen, hread, hleft]

theorem places?_second {n micro : Nat} (hn : n < 100) (hmicro : micro < 1000000)
    (hclock : clock.microsecond = 0) :
    places? terminator 1 2 false clock (Text.padded 2 n ++ fractionText micro) =
      some ({ clock with second := n, microsecond := micro }, false) := by
  have hread := number?_padded (by decide : 0 < 2) hn (fractionText micro)
  have hleft : isLeftOver terminator [] = false := by decide
  obtain ⟨hour, minute, second, microsecond⟩ := clock
  obtain rfl : microsecond = 0 := hclock
  unfold fractionText at hread ⊢
  split
  · next hzero =>
    rw [if_pos hzero, List.append_nil] at hread
    simp [places?, hread, hleft, Clock.set, hzero]
  · next hzero =>
    rw [if_neg hzero] at hread
    obtain ⟨c, more, hcs⟩ := List.exists_cons_of_ne_nil (Text.padded_ne_nil 6 micro)
    have hfraction := fraction?_padded ⟨hour, minute, n, 0⟩ hmicro
    rw [hcs] at hread hfraction
    simp [places?, hcs, hread, hfraction, Clock.set]

def compactClock (t : DateTime) : List Char :=
  Text.padded 2 t.hour ++ (Text.padded 2 t.minute ++
    (Text.padded 2 t.second ++ fractionText t.microsecond))

theorem clock?_compactClock {t : DateTime} (h : t.IsNaive) : clock? terminator (compactClock t) =
    some (⟨t.hour, t.minute, t.second, t.microsecond⟩, false) := by
  obtain ⟨-, hhour, hminute, hsecond, hmicro, -⟩ := h
  have hlt {n m : Nat} (hn : n < m) (hm : m ≤ 100) : n < 100 := Nat.lt_of_lt_of_le hn hm
  rw [clock?, compactClock, places?_next (.inl rfl) (by omega) (by omega),
    places?_next (.inr rfl) (by omega) (by omega), places?_second (by omega) hmicro rfl]
  rfl

end Clock

theorem toList_text {t : DateTime} (h : t.offset = none) :
    t.text.toList = t.date.textChars ++ 'T' :: (Text.padded 2 t.hour ++ ':' ::
      (Text.padded 2 t.minute ++ ':' :: (Text.padded 2 t.second ++ fractionText t.microsecond))) := by
  simp [DateTime.text, DateTime.textWith, DateTime.clockText, h, fractionText]

theorem toList_compactText {t : DateTime} (h : t.offset = none) :
    t.compactText.toList = t.date.textChars ++ 'T' :: compactClock t := by
  have hpadded (width n : Nat) : (Text.padded width n).filter (· != ':') = Text.padded width n :=
    List.filter_eq_self.mpr fun _ hc =>
      bne_iff_ne.mpr (ne_of_isDigit (Text.isDigit_of_mem_padded hc) rfl)
  have hfraction : (fractionText t.microsecond).filter (· != ':') = fractionText t.microsecond := by
    unfold fractionText
    split
    · rfl
    · rw [List.filter_cons_of_pos (by decide), hpadded]
  simp [DateTime.compactText, toList_text h, CalendarDate.textChars, compactClock, hpadded,
    hfraction]

theorem chars_fractionText {n : Nat} : ∀ c ∈ fractionText n, c.isDigit = true ∨ c = '.' := by
  unfold fractionText
  split
  · simp
  · exact List.forall_mem_cons.mpr ⟨.inr rfl, fun c hc => .inl (Text.isDigit_of_mem_padded hc)⟩

theorem chars_compactClock (t : DateTime) :
    ∀ c ∈ compactClock t, c.isDigit = true ∨ c = '.' := by
  have hpadded {n : Nat} : ∀ c ∈ Text.padded 2 n, c.isDigit = true ∨ c = '.' :=
    fun c hc => .inl (Text.isDigit_of_mem_padded hc)
  simp only [compactClock, List.forall_mem_append]
  exact ⟨hpadded, hpadded, hpadded, chars_fractionText⟩

theorem isZoneMark_of_clock {c : Char} (h : c.isDigit = true ∨ c = '.') :
    isZoneMark c = false := by
  rcases h with h | rfl
  · simp [isZoneMark, ne_of_isDigit h (d := '+') rfl, ne_of_isDigit h (d := '-') rfl,
      ne_of_isDigit h (d := 'Z') rfl]
  · rfl

/-- A time of day without an offset goes up to the end of the text. -/
theorem time?_of_clock {cs : List Char} {clock : Clock} (hmark : ∀ c ∈ cs, isZoneMark c = false)
    (hclock : clock? terminator cs = some (clock, false)) : time? cs = some (clock, none) := by
  have hplain : ∀ c ∈ cs, (!isZoneMark c) = true := fun c hc => by
    rw [hmark c hc]
    rfl
  have htake := List.takeWhile_eq_self_iff.mpr hplain
  have hdrop := List.dropWhile_eq_nil_iff.mpr hplain
  simp [time?, htake, hdrop, hclock]

theorem dateTime?_of_time {t : DateTime} (h : t.IsNaive) {s : String} {sep : Char}
    {cs : List Char} (htext : s.toList = t.date.textChars ++ sep :: cs)
    (htime : time? cs = some (⟨t.hour, t.minute, t.second, t.microsecond⟩, none)) :
    dateTime? s = some t := by
  have hten := length_textChars h.date
  have hlen : ¬(t.date.textChars ++ sep :: cs).length < 7 := by
    simp [hten]
    omega
  have htake : (t.date.textChars ++ sep :: cs).take 10 = t.date.textChars := List.take_left' hten
  have hdrop : (t.date.textChars ++ sep :: cs).drop 10 = sep :: cs := List.drop_left' hten
  have hvalid : (⟨t.hour, t.minute, t.second, t.microsecond⟩ : Clock).isValid = true := by
    simp [Clock.isValid, h.hour, h.minute, h.second]
  simp only [dateTime?, htext, hlen, if_false, dateLength?_textChars h.date, Option.bind_eq_bind,
    Option.bind_some, htake, date?_textChars h.date, hdrop, htime, hvalid, if_true, ← h.offset]

/-- A point in time is read back from its text without colons. -/
theorem dateTime?_compactText {t : DateTime} (h : t.IsNaive) :
    dateTime? t.compactText = some t := by
  refine dateTime?_of_time h (toList_compactText h.offset) ?_
  exact time?_of_clock (fun c hc => isZoneMark_of_clock (chars_compactClock t c hc))
    (clock?_compactClock h)

end Iso

end DocGrid

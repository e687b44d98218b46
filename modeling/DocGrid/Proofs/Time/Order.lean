import DocGrid.Proofs.Time.Stored
import Mathlib.Order.Compare
import Mathlib.Order.Monotone.Basic

/-! The order of points in time without an offset. It is the order of their texts in a database,
where each number has its full width. -/

namespace DocGrid

section Compares

variable {n m r s width : Nat} {first second : Ordering}

/-- Where the first numbers are equal the rest decides. -/
theorem compares_then {α : Type} [LT α] {x y : α} (hlt : n < m → x < y) (hgt : m < n → y < x)
    (heq : n = m → second.Compares x y) : ((compare n m).then second).Compares x y := by
  rcases lt_trichotomy n m with h | h | h
  · rw [compare_lt_iff_lt.mpr h]
    exact hlt h
  · rw [compare_eq_iff_eq.mpr h]
    exact heq h
  · rw [compare_gt_iff_gt.mpr h]
    exact hgt h

/-- Numbers that lie in ranges which follow one another. -/
theorem compares_steps {f : Nat → Nat} (hf : Monotone f) {x y : Nat} (hx : f n ≤ x ∧ x < f (n + 1))
    (hy : f m ≤ y ∧ y < f (m + 1)) (h : n = m → second.Compares x y) :
    ((compare n m).then second).Compares x y := by
  refine compares_then (fun hlt => ?_) (fun hgt => ?_) h
  · exact hx.2.trans_le ((hf hlt).trans hy.1)
  · exact hy.2.trans_le ((hf hgt).trans hx.1)

theorem compares_add_left (h : second.Compares r s) (n : Nat) :
    second.Compares (n + r) (n + s) := by
  cases second with
  | lt => exact Nat.add_lt_add_left h n
  | eq => exact congrArg (n + ·) h
  | gt => exact Nat.add_lt_add_left h n

theorem compares_radix (h : first.Compares n m) (h' : second.Compares r s) (hr : r < width)
    (hs : s < width) : (first.then second).Compares (n * width + r) (m * width + s) := by
  have hless {a b c d : Nat} (hab : a < b) (hc : c < width) : a * width + c < b * width + d := by
    have hstep : (a + 1) * width ≤ b * width := Nat.mul_le_mul_right _ hab
    rw [Nat.add_mul, Nat.one_mul] at hstep
    omega
  cases first with
  | lt => exact hless h hr
  | gt => exact hless h hs
  | eq =>
    obtain rfl : n = m := h
    exact compares_add_left h' _

theorem compares_padded {xs ys : List Char} (hw : 0 < width) (hn : n < 10 ^ width)
    (hm : m < 10 ^ width) (h : second.Compares xs ys) :
    ((compare n m).then second).Compares (Text.padded width n ++ xs) (Text.padded width m ++ ys) := by
  refine compares_then (fun hlt => ?_) (fun hgt => ?_) ?_
  · exact Text.padded_append_lt hw hn hm hlt xs ys
  · exact Text.padded_append_lt hw hm hn hgt ys xs
  · rintro rfl
    cases second with
    | lt => exact List.append_left_lt h
    | eq => exact congrArg _ h
    | gt => exact List.append_left_lt h

theorem compares_cons {xs ys : List Char} (h : second.Compares xs ys) (c : Char) :
    second.Compares (c :: xs) (c :: ys) := by
  cases second with
  | lt => exact List.cons_lt_cons_iff.mpr (.inr ⟨rfl, h⟩)
  | eq => exact congrArg _ h
  | gt => exact List.cons_lt_cons_iff.mpr (.inr ⟨rfl, h⟩)

theorem compare_eq_of_compares_toList {x y : String} (h : second.Compares x.toList y.toList) :
    compare x y = second := by
  have hless {x y : String} (h : x.toList < y.toList) : compare x y = .lt :=
    compareOfLessAndEq_eq_lt.mpr (String.lt_iff.mpr h)
  cases second with
  | lt => exact hless h
  | eq => exact Std.LawfulEqCmp.compare_eq_iff_eq.mpr (String.toList_inj.mp h)
  | gt => exact Std.OrientedCmp.gt_of_lt (hless h)

theorem compare_eq_of_compares_cast {x y : Int} (hx : x = n) (hy : y = m)
    (h : second.Compares n m) : compare x y = second := by
  subst hx hy
  cases second with
  | lt => exact compare_lt_iff_lt.mpr (Int.ofNat_lt.mpr h)
  | eq => exact compare_eq_iff_eq.mpr (congrArg Int.ofNat h)
  | gt => exact compare_gt_iff_gt.mpr (Int.ofNat_lt.mpr h)

end Compares

namespace CalendarDate

variable {d e : CalendarDate}

/-- Years are compared before months, and months before days. -/
def order (d e : CalendarDate) : Ordering :=
  (compare d.year e.year).then ((compare d.month e.month).then (compare d.day e.day))

theorem daysBeforeYear_succ {year : Nat} (h : 1 ≤ year) : daysBeforeYear (year + 1) =
    daysBeforeYear year + if isLeap year = true then 366 else 365 := by
  obtain ⟨y, rfl⟩ := Nat.exists_eq_add_of_le' h
  have hfour : (y + 1) / 4 = y / 4 + if (y + 1) % 4 = 0 then 1 else 0 := by split <;> omega
  have hhundred : (y + 1) / 100 = y / 100 + if (y + 1) % 100 = 0 then 1 else 0 := by split <;> omega
  have hfourHundred : (y + 1) / 400 = y / 400 + if (y + 1) % 400 = 0 then 1 else 0 := by
    split <;> omega
  have hless : y / 100 ≤ y / 4 := by omega
  simp only [daysBeforeYear, isLeap, Bool.and_eq_true, Bool.or_eq_true, beq_iff_eq, bne_iff_ne,
    Nat.add_sub_cancel, hfour, hhundred, hfourHundred]
  by_cases h4 : (y + 1) % 4 = 0
  · by_cases h400 : (y + 1) % 400 = 0
    · have h100 : (y + 1) % 100 = 0 := by omega
      simp only [h4, h100, h400, if_true, true_and, or_true]
      omega
    · by_cases h100 : (y + 1) % 100 = 0
      · simp only [h4, h100, h400, if_true, if_false, true_and, not_true, ne_eq, or_false]
        omega
      · simp only [h4, h100, h400, if_true, if_false, true_and, ne_eq, not_false_iff, true_or]
        omega
  · have h100 : (y + 1) % 100 ≠ 0 := by omega
    have h400 : (y + 1) % 400 ≠ 0 := by omega
    simp only [h4, h100, h400, if_false, false_and]
    omega

theorem daysBeforeYear_mono : Monotone daysBeforeYear := by
  refine monotone_nat_of_le_succ fun year => ?_
  simp only [daysBeforeYear]
  omega

theorem daysBeforeMonth_mono (year : Nat) : Monotone (daysBeforeMonth year) := by
  refine monotone_nat_of_le_succ fun month => ?_
  cases month with
  | zero => exact Nat.le_refl _
  | succ month => exact Nat.le_add_right _ _

theorem daysBeforeMonth_thirteen (year : Nat) :
    daysBeforeMonth year 13 = if isLeap year = true then 366 else 365 := by
  cases h : isLeap year <;> simp [daysBeforeMonth, daysInMonth, h]

def yearDay (d : CalendarDate) : Nat :=
  daysBeforeMonth d.year d.month + d.day

theorem yearDay_bounds (h : d.isValid = true) : daysBeforeMonth d.year d.month < d.yearDay ∧
    d.yearDay ≤ daysBeforeMonth d.year (d.month + 1) := by
  simp only [isValid, Bool.and_eq_true, decide_eq_true_eq] at h
  obtain ⟨⟨⟨⟨-, hmonth⟩, -⟩, hday⟩, hlast⟩ := h
  obtain ⟨month, hm⟩ := Nat.exists_eq_add_of_le' hmonth
  have hnext : daysBeforeMonth d.year (d.month + 1) =
      daysBeforeMonth d.year d.month + daysInMonth d.year d.month := by
    rw [hm]
    rfl
  rw [hnext, yearDay]
  omega

theorem yearDay_le (h : d.isValid = true) :
    d.yearDay ≤ if isLeap d.year = true then 366 else 365 := by
  have hmonth : d.month + 1 ≤ 13 := by
    simp only [isValid, Bool.and_eq_true, decide_eq_true_eq] at h
    omega
  rw [← daysBeforeMonth_thirteen]
  exact (yearDay_bounds h).2.trans (daysBeforeMonth_mono d.year hmonth)

theorem compares_yearDay (hd : d.isValid = true) (he : e.isValid = true) (h : d.year = e.year) :
    ((compare d.month e.month).then (compare d.day e.day)).Compares d.yearDay e.yearDay := by
  have hmono : Monotone fun month => daysBeforeMonth d.year month + 1 :=
    fun _ _ hle => Nat.succ_le_succ (daysBeforeMonth_mono d.year hle)
  have hd' := yearDay_bounds hd
  have he' := yearDay_bounds he
  rw [← h] at he'
  refine compares_steps hmono ⟨hd'.1, Nat.lt_succ_of_le hd'.2⟩ ⟨he'.1, Nat.lt_succ_of_le he'.2⟩
    fun hmonth => ?_
  rw [yearDay, yearDay, ← h, ← hmonth]
  exact compares_add_left ((compare_iff _ _).mp rfl) _

theorem compares_ordinal (hd : d.isValid = true) (he : e.isValid = true) :
    (d.order e).Compares d.ordinal e.ordinal := by
  have hmono : Monotone fun year => daysBeforeYear year + 1 :=
    fun _ _ hle => Nat.succ_le_succ (daysBeforeYear_mono hle)
  have hordinal (c : CalendarDate) : c.ordinal = daysBeforeYear c.year + c.yearDay :=
    Nat.add_assoc _ _ _
  have hbounds {c : CalendarDate} (hc : c.isValid = true) :
      daysBeforeYear c.year + 1 ≤ c.ordinal ∧ c.ordinal < daysBeforeYear (c.year + 1) + 1 := by
    have hyear : 1 ≤ c.year := by
      simp only [isValid, Bool.and_eq_true, decide_eq_true_eq] at hc
      omega
    have hfirst := (yearDay_bounds hc).1
    have hlast := yearDay_le hc
    rw [hordinal, daysBeforeYear_succ hyear]
    omega
  refine compares_steps hmono (hbounds hd) (hbounds he) fun hyear => ?_
  rw [hordinal, hordinal, ← hyear]
  exact compares_add_left (compares_yearDay hd he hyear) _

end CalendarDate

namespace DateTime

variable {t u : DateTime}

def clockOrder (t u : DateTime) : Ordering :=
  (compare t.hour u.hour).then ((compare t.minute u.minute).then
    ((compare t.second u.second).then (compare t.microsecond u.microsecond)))

/-- Microseconds since midnight. -/
def clockValue (t : DateTime) : Nat :=
  t.hour * 3600000000 + (t.minute * 60000000 + (t.second * 1000000 + t.microsecond))

theorem clockValue_lt (h : t.IsNaive) : t.clockValue < 86400000000 := by
  obtain ⟨-, hhour, hminute, hsecond, hmicro, -⟩ := h
  unfold clockValue
  omega

theorem compares_clockValue (ht : t.IsNaive) (hu : u.IsNaive) :
    (t.clockOrder u).Compares t.clockValue u.clockValue := by
  obtain ⟨-, hhour, hminute, hsecond, hmicro, -⟩ := ht
  obtain ⟨-, hhour', hminute', hsecond', hmicro', -⟩ := hu
  refine compares_radix ((compare_iff _ _).mp rfl) ?_ (by omega) (by omega)
  refine compares_radix ((compare_iff _ _).mp rfl) ?_ (by omega) (by omega)
  exact compares_radix ((compare_iff _ _).mp rfl) ((compare_iff _ _).mp rfl) hmicro hmicro'

theorem instant_eq (h : t.IsNaive) :
    t.instant = (t.date.ordinal * 86400000000 + t.clockValue : Nat) := by
  simp only [instant, h.offset, Option.getD_none, clockValue]
  omega

theorem compare_instant (ht : t.IsNaive) (hu : u.IsNaive) :
    compare t.instant u.instant = (t.date.order u.date).then (t.clockOrder u) :=
  compare_eq_of_compares_cast (instant_eq ht) (instant_eq hu)
    (compares_radix (CalendarDate.compares_ordinal ht.date hu.date) (compares_clockValue ht hu)
      (clockValue_lt ht) (clockValue_lt hu))

theorem compares_storedClock (ht : t.IsNaive) (hu : u.IsNaive) :
    (t.clockOrder u).Compares (Iso.storedClock t) (Iso.storedClock u) := by
  obtain ⟨-, hhour, hminute, hsecond, hmicro, -⟩ := ht
  obtain ⟨-, hhour', hminute', hsecond', hmicro', -⟩ := hu
  have hlast : (compare t.microsecond u.microsecond).Compares
      (Text.padded 6 t.microsecond) (Text.padded 6 u.microsecond) := by
    have hnone : Ordering.eq.Compares ([] : List Char) [] := rfl
    have hpadded := compares_padded (by decide : 0 < 6) hmicro hmicro' hnone
    rwa [Ordering.then_eq, List.append_nil, List.append_nil] at hpadded
  refine compares_padded (by decide) (by omega) (by omega) (compares_cons ?_ _)
  refine compares_padded (by decide) (by omega) (by omega) (compares_cons ?_ _)
  exact compares_padded (by decide) (by omega) (by omega) (compares_cons hlast _)

theorem compares_storedText (ht : t.IsNaive) (hu : u.IsNaive) :
    ((t.date.order u.date).then (t.clockOrder u)).Compares t.storedText.toList
      u.storedText.toList := by
  obtain ⟨hyear, hmonth, hday⟩ := Iso.date_bounds ht.date
  obtain ⟨hyear', hmonth', hday'⟩ := Iso.date_bounds hu.date
  have htext (t : DateTime) : t.storedText.toList = Text.padded 4 t.date.year ++ '-' ::
      (Text.padded 2 t.date.month ++ '-' :: (Text.padded 2 t.date.day ++ ' ' ::
        Iso.storedClock t)) := by
    simp [CalendarDate.textChars]
  rw [htext, htext, CalendarDate.order, Ordering.then_assoc, Ordering.then_assoc]
  refine compares_padded (by decide) hyear hyear' (compares_cons ?_ _)
  refine compares_padded (by decide) hmonth hmonth' (compares_cons ?_ _)
  exact compares_padded (by decide) hday hday' (compares_cons (compares_storedClock ht hu) _)

/-- The texts in a database are in the order of the points in time. -/
theorem compare_storedText (ht : t.IsNaive) (hu : u.IsNaive) :
    compare t.storedText u.storedText = compare t.instant u.instant := by
  rw [compare_instant ht hu]
  exact compare_eq_of_compares_toList (compares_storedText ht hu)

end DateTime

end DocGrid

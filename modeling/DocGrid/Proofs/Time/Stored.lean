import DocGrid.Proofs.Time.Texts
import DocGrid.Store.Sql.Column

/-! The texts of points in time in a database. A point without an offset is read back from its
text. -/

namespace DocGrid

namespace Iso

/-- The time of day as a database has it. -/
def storedClock (t : DateTime) : List Char :=
  Text.padded 2 t.hour ++ ':' :: (Text.padded 2 t.minute ++ ':' ::
    (Text.padded 2 t.second ++ '.' :: Text.padded 6 t.microsecond))

@[simp] theorem toList_storedText (t : DateTime) :
    t.storedText.toList = t.date.textChars ++ ' ' :: storedClock t := by
  simp [DateTime.storedText, DateTime.clockText, storedClock]

/-- A place that is followed by a colon and the next one. -/
theorem places?_colon {stop : Char} {more place n : Nat} {clock : Clock} {rest : List Char}
    (hn : n < 100) (hrest : rest ≠ []) :
    places? stop (more + 1) place true clock (Text.padded 2 n ++ ':' :: rest) =
      places? stop more (place + 1) true (clock.set place n) rest := by
  obtain ⟨c, rest, rfl⟩ := List.exists_cons_of_ne_nil hrest
  by_cases hplace : place = 0 <;>
    simp [places?, number?_padded (by decide : 0 < 2) hn, hplace]

theorem clock?_storedClock {t : DateTime} (h : t.IsNaive) : clock? terminator (storedClock t) =
    some (⟨t.hour, t.minute, t.second, t.microsecond⟩, false) := by
  obtain ⟨-, hhour, hminute, hsecond, hmicro, -⟩ := h
  have hne (n : Nat) (rest : List Char) : Text.padded 2 n ++ rest ≠ [] := by
    simp [Text.padded_ne_nil]
  obtain ⟨c, more, hcs⟩ := List.exists_cons_of_ne_nil (Text.padded_ne_nil 6 t.microsecond)
  have hfraction := fraction?_padded ⟨t.hour, t.minute, t.second, 0⟩ hmicro
  have hread := number?_padded (by decide : 0 < 2) (by omega : t.second < 10 ^ 2)
    ('.' :: Text.padded 6 t.microsecond)
  rw [clock?, storedClock, places?_colon (by omega) (hne _ _), places?_colon (by omega) (hne _ _)]
  rw [hcs] at hread hfraction ⊢
  simp [places?, hread, hfraction, Clock.set]

theorem chars_storedClock (t : DateTime) :
    ∀ c ∈ storedClock t, c.isDigit = true ∨ c = ':' ∨ c = '.' := by
  have hpadded {width n : Nat} :
      ∀ c ∈ Text.padded width n, c.isDigit = true ∨ c = ':' ∨ c = '.' :=
    fun c hc => .inl (Text.isDigit_of_mem_padded hc)
  have hcolon {cs : List Char} (hcs : ∀ c ∈ cs, c.isDigit = true ∨ c = ':' ∨ c = '.') :
      ∀ c ∈ ':' :: cs, c.isDigit = true ∨ c = ':' ∨ c = '.' :=
    List.forall_mem_cons.mpr ⟨.inr (.inl rfl), hcs⟩
  refine List.forall_mem_append.mpr ⟨hpadded, hcolon (List.forall_mem_append.mpr ⟨hpadded,
    hcolon (List.forall_mem_append.mpr ⟨hpadded, ?_⟩)⟩)⟩
  exact List.forall_mem_cons.mpr ⟨.inr (.inr rfl), hpadded⟩

/-- A point in time is read back from its text in a database. -/
theorem dateTime?_storedText {t : DateTime} (h : t.IsNaive) : dateTime? t.storedText = some t := by
  refine dateTime?_of_time h (toList_storedText t) (time?_of_clock ?_ (clock?_storedClock h))
  intro c hc
  rcases chars_storedClock t c hc with hdigit | rfl | rfl
  · exact isZoneMark_of_clock (.inl hdigit)
  · rfl
  · rfl

end Iso

end DocGrid

import DocGrid.Proofs.Filter.Casts
import DocGrid.Proofs.Store.Written

/-! Texts as they are handed over for a comparison. No text becomes a null on the way, unless it is
read as a number that is none. -/

namespace DocGrid

namespace Cell

theorem compare?_isSome {a b : Cell} (ha : a.NotNaN) (hb : b.NotNaN) (hnull : a ≠ null)
    (hnull' : b ≠ null) : (a.compare? b).isSome := by
  have hreal {x : Binary64} (h : NotNaN (real x)) : ∃ q, (real x).quantity? = some q :=
    Quantity.ofBinary64_isSome h
  cases a with
  | null => exact absurd rfl hnull
  | text s => cases b <;> first | rfl | exact absurd rfl hnull'
  | int n =>
    cases b with
    | null => exact absurd rfl hnull'
    | real y =>
      obtain ⟨q, hq⟩ := hreal hb
      rw [compare?_eq rfl hq]
      rfl
    | _ => rfl
  | real x =>
    obtain ⟨p, hp⟩ := hreal ha
    cases b with
    | null => exact absurd rfl hnull'
    | text t => rfl
    | int m =>
      rw [compare?_eq hp rfl]
      rfl
    | real y =>
      obtain ⟨q, hq⟩ := hreal hb
      rw [compare?_eq hp hq]
      rfl

theorem under_ne_null [Conversions] {c : Cell} (h : c ≠ null) (a : Affinity) : c.under a ≠ null := by
  have htext (s : String) : (Numeral.read? s).elim (text s) ofNumeral ≠ null := by
    cases Numeral.read? s with
    | none => simp
    | some n =>
      simp only [Option.elim_some, ofNumeral]
      split <;> simp
  cases c with
  | null => exact absurd rfl h
  | text s => cases a <;> first | exact htext s | simp [under]
  | _ => cases a <;> simp [under]

end Cell

/-! The cells in which texts are handed over. -/

namespace Value

def NotNaN (v : Value) : Prop :=
  ∀ x, v = .float x → x.isNaN = false

/-- A value that the database does not take for null. -/
structure Solid (v : Value) : Prop where
  notNull : v ≠ .null
  notNaN : v.NotNaN

theorem solid_text (s : String) : (text s).Solid :=
  ⟨by simp, fun _ h => by cases h⟩

theorem solid_int (n : Int) : (int n).Solid :=
  ⟨by simp [int], fun _ h => by cases h⟩

theorem solid_float {y : Binary64} (h : y.isNaN = false) : (float y).Solid := by
  refine ⟨by simp [float], fun z hz => ?_⟩
  cases hz
  exact h

end Value

theorem ReadAs.solid {s : String} {target : Target} {v : Value} (h : ReadAs s target v)
    (hnan : v.NotNaN) : v.Solid := by
  refine ⟨?_, hnan⟩
  cases h <;> simp [Value.int, Value.float]

theorem Cell.ofValue_ne_null {v : Value} {c : Cell} (h : Cell.ofValue v = .ok c)
    (hv : v.Solid) : c ≠ .null := by
  cases v with
  | null => exact absurd rfl hv.notNull
  | number n =>
    cases n with
    | int n =>
      rw [Cell.ofValue] at h
      split at h <;> cases h
      simp
    | float x =>
      cases h
      simp [Cell.ofBinary64, hv.notNaN x rfl]
    | decimal d => cases h
  | list items => cases h
  | mapping entries => cases h
  | _ =>
    cases h
    simp

namespace ColumnType

variable {type : ColumnType} {s x : String} {first v u : Value}

theorem solid_toFloat {target : Target} (h : ReadAs x target v)
    (htarget : target = .int ∨ target = .float) (hv : v.Solid) (hu : toFloat v = .ok u) :
    u.Solid := by
  cases h with
  | text h =>
    simp only [toFloat, h htarget] at hu
    cases hu
  | bool b => simp at htarget
  | int n =>
    have hround : Loose.float? (.int n) = Binary64.ofInt? n := rfl
    simp only [toFloat, Value.int] at hu hround
    rw [hround, Binary64.ofInt?] at hu
    split at hu
    · cases hu
    · cases hu
      exact Value.solid_float (Binary64.isNaN_ofInt n)
  | double y =>
    cases hu
    exact hv
  | float y =>
    cases hu
    exact hv
  | datetime t => simp at htarget

theorem solid_toBool (hv : v ≠ .null) (hu : toBool v = .ok u) : u.Solid := by
  unfold toBool at hu
  split at hu
  · exact absurd rfl hv
  · split at hu
    · split at hu
      · cases hu
        exact Value.solid_int 0
      · split at hu
        · cases hu
          exact Value.solid_int 1
        · cases hu
    · cases hu

theorem solid_toTimeText (hv : v ≠ .null) (hu : toTimeText v = .ok u) : u.Solid := by
  unfold toTimeText at hu
  split at hu
  · exact absurd rfl hv
  · cases hu
    exact Value.solid_text _
  · cases hu
    exact Value.solid_text _
  · cases hu

theorem solid_toJson (hu : toJson v = .ok u) : u.Solid := by
  unfold toJson at hu
  split at hu
  · cases hu
    exact Value.solid_text _
  · cases hu

/-- The type of the first value goes for the others. -/
theorem solid_convert (hs : ReadAs s type.target first) (hx : ReadAs x type.target v)
    (hnan : v.NotNaN) (hu : (type.argumentType first).convert v = .ok u) : u.Solid := by
  have hfloat : type.argumentType first = .float → type.target = .int ∨ type.target = .float := by
    cases type <;> cases hs <;> simp [argumentType, target]
  have hv := hx.solid hnan
  generalize type.argumentType first = kind at hu hfloat
  cases kind with
  | float => exact solid_toFloat hx (hfloat rfl) hv hu
  | bool => exact solid_toBool hv.notNull hu
  | datetime => exact solid_toTimeText hv.notNull hu
  | jsonList => exact solid_toJson hu
  | jsonMapping => exact solid_toJson hu
  | _ =>
    cases hu
    exact hv

inductive Takes : ColumnType → Value → Prop
  | int {n : Int} (h : Cell.fitsWord n = true) : Takes .int (.int n)
  | double (x : Binary64) : Takes .int (.float x)
  | float (x : Binary64) : Takes .float (.float x)
  | bool (b : Bool) : Takes .bool (.bool b)
  | text (s : String) : Takes .text (.text s)
  | datetime (t : DateTime) : Takes .datetime (.datetime t)
  | plain (s : String) : Takes .plain (.text s)
  | jsonList (s : String) : Takes .jsonList (.text s)
  | jsonMapping (s : String) : Takes .jsonMapping (.text s)

theorem Takes.cell?_isOk (hfirst : type.Takes first) (hv : type.Takes v) :
    ∃ c, (⟨v, type.argumentType first⟩ : Argument).cell? = .ok c := by
  cases hv with
  | @int n hn =>
    cases hfirst with
    | int _ => exact ⟨_, ofValue_int hn⟩
    | double x =>
      have hround : toFloat (.int n) = .ok (.float (Binary64.ofInt n)) := by
        change (Binary64.ofInt? n).elim _ _ = _
        rw [Binary64.ofInt?_of_fitsWord hn]
        rfl
      exact ⟨_, cell?_of_convert (a := ⟨.int n, .float⟩) hround⟩
  | double y => cases hfirst <;> exact ⟨_, rfl⟩
  | bool b =>
    cases hfirst
    cases b <;> exact ⟨_, rfl⟩
  | _ =>
    cases hfirst
    exact ⟨_, rfl⟩

end ColumnType

/-- What a text is read as is handed over as it is, except for truth values. -/
theorem Condition.comparing_of_readAs {x : String} {target : Target} {v : Value}
    (h : ReadAs x target v) (hbit : ∀ b, v ≠ .bool b) (c : Column) (op : SqlOperator) :
    comparing c op v = .ok (.compares c op ⟨v, c.type.argumentType v⟩) := by
  cases h with
  | bool b => exact absurd rfl (hbit b)
  | _ => rfl

/-- Hands arguments over; a failure is that of the first one that cannot be. -/
def Argument.handOver (as : List Argument) : Result Unit := do
  let _ ← as.mapM fun a => a.type.convert a.value
  let _ ← as.mapM Argument.cell?
  return ()

theorem Argument.handOver_eq_ok {as : List Argument} :
    handOver as = .ok () ↔ ∀ a ∈ as, ∃ c, a.cell? = .ok c := by
  constructor
  · intro h
    obtain ⟨_, -, h⟩ := Result.ok_of_bind h
    obtain ⟨_, hcells, -⟩ := Result.ok_of_bind h
    exact Result.ok_of_mapM hcells
  · intro h
    have hconvert : ∀ a ∈ as, ∃ v, a.type.convert a.value = .ok v := by
      intro a ha
      obtain ⟨c, hc⟩ := h a ha
      obtain ⟨v, hv, -⟩ := Result.ok_of_bind hc
      exact ⟨v, hv⟩
    obtain ⟨vs, hvs⟩ := Result.mapM_exists hconvert
    obtain ⟨cells, hcells⟩ := Result.mapM_exists h
    rw [handOver, hvs, hcells]
    rfl

end DocGrid

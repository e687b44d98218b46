import DocGrid.Failure
import Mathlib.Data.List.Forall2

/-! Runs that stop at the first failure, runs over lists among them, and what holds of all that a
program may answer or fail with. -/

namespace DocGrid.Result

section Steps

variable {ε α β : Type}

@[simp] theorem ok_bind (a : α) (f : α → Except ε β) : (Except.ok a >>= f) = f a := rfl

@[simp] theorem error_bind (e : ε) (f : α → Except ε β) :
    (Except.error e >>= f) = Except.error e := rfl

@[simp] theorem pure_eq_ok (a : α) : (pure a : Except ε α) = .ok a := rfl

@[simp] theorem map_ok (f : α → β) (a : α) : (Except.ok a : Except ε α).map f = .ok (f a) := rfl

@[simp] theorem map_error (f : α → β) (e : ε) :
    (Except.error e : Except ε α).map f = .error e := rfl

end Steps

variable {α β : Type} {f : α → Result β} {xs : List α}

theorem ok_of_bind {x : Result α} {y : β} (h : (x >>= f) = .ok y) :
    ∃ a, x = .ok a ∧ f a = .ok y := by
  cases x with
  | error e => cases h
  | ok a => exact ⟨a, rfl, h⟩

theorem error_of_bind {x : Result α} {e : Failure} (h : (x >>= f) = .error e) :
    x = .error e ∨ ∃ a, x = .ok a ∧ f a = .error e := by
  cases x with
  | error d => exact .inl (congrArg Except.error (Except.error.inj h))
  | ok a => exact .inr ⟨a, rfl, h⟩

theorem mapM_of_ok {g : α → β} (h : ∀ x ∈ xs, f x = .ok (g x)) : xs.mapM f = .ok (xs.map g) := by
  induction xs with
  | nil => rfl
  | cons x xs ih =>
    have hi := ih fun y hy => h y (List.mem_cons_of_mem _ hy)
    rw [List.mapM_cons, h x (by simp), hi]
    rfl

theorem mapM_eq_ok_iff {ys : List β} :
    xs.mapM f = .ok ys ↔ List.Forall₂ (fun x y => f x = .ok y) xs ys := by
  induction xs generalizing ys with
  | nil =>
    constructor
    · intro h
      obtain rfl := Except.ok.inj h
      exact .nil
    · intro h
      cases h
      rfl
  | cons x xs ih =>
    rw [List.mapM_cons, List.forall₂_cons_left_iff]
    constructor
    · intro h
      obtain ⟨y, hy, h⟩ := ok_of_bind h
      obtain ⟨zs, hzs, h⟩ := ok_of_bind h
      exact ⟨y, zs, hy, ih.mp hzs, (Except.ok.inj h).symm⟩
    · rintro ⟨y, zs, hy, hzs, rfl⟩
      rw [hy, ih.mpr hzs]
      rfl

/-- A run fails with the failure of the first member that fails. -/
theorem mapM_eq_error_iff {e : Failure} : xs.mapM f = .error e ↔
    ∃ before x after, xs = before ++ x :: after ∧ (∀ y ∈ before, ∃ b, f y = .ok b) ∧
      f x = .error e := by
  induction xs with
  | nil =>
    refine iff_of_false (fun h => nomatch h) ?_
    rintro ⟨before, x, after, h, -⟩
    simp at h
  | cons x xs ih =>
    rw [List.mapM_cons]
    constructor
    · intro h
      rcases error_of_bind h with hx | ⟨y, hy, h⟩
      · exact ⟨[], x, xs, rfl, by simp, hx⟩
      · rcases error_of_bind h with hxs | ⟨zs, -, h⟩
        · obtain ⟨before, z, after, rfl, hbefore, hz⟩ := ih.mp hxs
          exact ⟨x :: before, z, after, rfl, List.forall_mem_cons.mpr ⟨⟨y, hy⟩, hbefore⟩, hz⟩
        · cases h
    · rintro ⟨before, z, after, h, hbefore, hz⟩
      cases before with
      | nil =>
        obtain ⟨rfl, rfl⟩ := List.cons.inj h
        rw [hz]
        rfl
      | cons w before =>
        obtain ⟨rfl, rfl⟩ := List.cons.inj h
        obtain ⟨⟨y, hy⟩, hbefore⟩ := List.forall_mem_cons.mp hbefore
        rw [hy, ih.mpr ⟨before, z, after, rfl, hbefore, hz⟩]
        rfl

theorem ok_of_mapM {ys : List β} (h : xs.mapM f = .ok ys) : ∀ x ∈ xs, ∃ y, f x = .ok y := by
  have hall := mapM_eq_ok_iff.mp h
  clear h
  induction hall with
  | nil => simp
  | cons hx _ ih => exact List.forall_mem_cons.mpr ⟨⟨_, hx⟩, ih⟩

theorem length_of_mapM {ys : List β} (h : xs.mapM f = .ok ys) : ys.length = xs.length :=
  (mapM_eq_ok_iff.mp h).length_eq.symm

theorem forall_of_mapM {ys : List β} {P : β → Prop} (h : xs.mapM f = .ok ys)
    (hf : ∀ x ∈ xs, ∀ y, f x = .ok y → P y) : ∀ y ∈ ys, P y := by
  have hall := mapM_eq_ok_iff.mp h
  clear h
  induction hall with
  | nil => simp
  | cons hx _ ih =>
    obtain ⟨hhead, htail⟩ := List.forall_mem_cons.mp hf
    exact List.forall_mem_cons.mpr ⟨hhead _ hx, ih htail⟩

theorem error_of_mapM {e : Failure} (h : xs.mapM f = .error e) : ∃ x ∈ xs, f x = .error e := by
  obtain ⟨before, x, after, rfl, -, hx⟩ := mapM_eq_error_iff.mp h
  exact ⟨x, by simp, hx⟩

theorem mapM_forall {P : α → β → Prop} (h : ∀ x ∈ xs, ∃ y, f x = .ok y ∧ P x y) :
    ∃ ys, xs.mapM f = .ok ys ∧ List.Forall₂ P xs ys := by
  induction xs with
  | nil => exact ⟨[], rfl, .nil⟩
  | cons x xs ih =>
    obtain ⟨y, hy, hp⟩ := h x (by simp)
    obtain ⟨ys, hys, hps⟩ := ih fun z hz => h z (List.mem_cons_of_mem _ hz)
    refine ⟨y :: ys, ?_, .cons hp hps⟩
    rw [List.mapM_cons, hy, hys]
    rfl

theorem mapM_exists (h : ∀ x ∈ xs, ∃ y, f x = .ok y) : ∃ ys, xs.mapM f = .ok ys := by
  obtain ⟨ys, hys, -⟩ := mapM_forall (P := fun x y => f x = .ok y) fun x hx => by
    obtain ⟨y, hy⟩ := h x hx
    exact ⟨y, hy, hy⟩
  exact ⟨ys, hys⟩

theorem filterAuxM_of_ok {test : α → Result Bool} {p : α → Bool} (h : ∀ x ∈ xs, test x = .ok (p x))
    (found : List α) : xs.filterAuxM test found = .ok ((xs.filter p).reverse ++ found) := by
  induction xs generalizing found with
  | nil => rfl
  | cons x xs ih =>
    have hi := ih fun y hy => h y (List.mem_cons_of_mem _ hy)
    rw [List.filterAuxM, h x (by simp)]
    change List.filterAuxM test xs _ = _
    rw [hi]
    cases hp : p x <;> simp [hp]

theorem filterM_of_ok {test : α → Result Bool} {p : α → Bool} (h : ∀ x ∈ xs, test x = .ok (p x)) :
    xs.filterM test = .ok (xs.filter p) := by
  rw [List.filterM, filterAuxM_of_ok h]
  simp

theorem ok_of_filterAuxM {test : α → Result Bool} {found ys : List α}
    (h : xs.filterAuxM test found = .ok ys) : ∀ x ∈ xs, ∃ b, test x = .ok b := by
  induction xs generalizing found with
  | nil => simp
  | cons x xs ih =>
    rw [List.filterAuxM] at h
    cases hx : test x with
    | error e =>
      rw [hx] at h
      cases h
    | ok b =>
      rw [hx] at h
      exact List.forall_mem_cons.mpr ⟨⟨b, hx⟩, ih h⟩

theorem ok_of_filterM {test : α → Result Bool} {ys : List α} (h : xs.filterM test = .ok ys) :
    ∀ x ∈ xs, ∃ b, test x = .ok b := by
  rw [List.filterM] at h
  obtain ⟨found, hfound, -⟩ := ok_of_bind h
  exact ok_of_filterAuxM hfound

theorem error_of_filterAuxM {test : α → Result Bool} {found : List α} {e : Failure}
    (h : xs.filterAuxM test found = .error e) : ∃ x ∈ xs, test x = .error e := by
  induction xs generalizing found with
  | nil => cases h
  | cons x xs ih =>
    rw [List.filterAuxM] at h
    rcases error_of_bind h with hx | ⟨b, -, h⟩
    · exact ⟨x, List.mem_cons_self, hx⟩
    · obtain ⟨y, hy, he⟩ := ih h
      exact ⟨y, List.mem_cons_of_mem _ hy, he⟩

theorem error_of_filterM {test : α → Result Bool} {e : Failure} (h : xs.filterM test = .error e) :
    ∃ x ∈ xs, test x = .error e := by
  rw [List.filterM] at h
  rcases error_of_bind h with hfound | ⟨found, -, h⟩
  · exact error_of_filterAuxM hfound
  · cases h

theorem filterM_eq {test : α → Result Bool} {ys : List α} (h : xs.filterM test = .ok ys) :
    ys = xs.filter fun x => test x matches .ok true := by
  have htests := ok_of_filterM h
  have hread : ∀ x ∈ xs, test x = .ok (test x matches .ok true) := by
    intro x hx
    obtain ⟨b, hb⟩ := htests x hx
    cases b <;> simp [hb]
  exact Except.ok.inj (h.symm.trans (filterM_of_ok hread))

theorem exists_of_filterM {test : α → Result Bool} {ys : List α} (h : xs.filterM test = .ok ys) :
    ∃ p : α → Bool, ys = xs.filter p ∧ ∀ x ∈ xs, test x = .ok (p x) := by
  refine ⟨_, filterM_eq h, fun x hx => ?_⟩
  obtain ⟨b, hb⟩ := ok_of_filterM h x hx
  cases b <;> simp [hb]

/-! Every answer has one property, every failure another -/

def Holds (P : α → Prop) (Q : Failure → Prop) : Result α → Prop
  | .ok a => P a
  | .error e => Q e

section Holds

variable {P : α → Prop} {R : β → Prop} {Q : Failure → Prop} {x : Result α}

theorem Holds.failure {e : Failure} (h : Holds P Q x) (he : x = .error e) : Q e := by
  subst he
  exact h

theorem Holds.answer {a : α} (h : Holds P Q x) (ha : x = .ok a) : P a := by
  subst ha
  exact h

theorem Holds.bind (h : Holds P Q x) (hf : ∀ a, P a → Holds R Q (f a)) : Holds R Q (x >>= f) := by
  cases x with
  | error e => exact h
  | ok a => exact hf a h

theorem Holds.ite {c : Prop} [Decidable c] {y : Result α} (hx : Holds P Q x) (hy : Holds P Q y) :
    Holds P Q (if c then x else y) := by
  split
  · exact hx
  · exact hy

/-- Every failure has the property. -/
def Fails (Q : Failure → Prop) (x : Result α) : Prop :=
  Holds (fun _ => True) Q x

namespace Fails

theorem ok (a : α) : Fails Q (.ok a) := trivial

theorem bind (h : Fails Q x) (hf : ∀ a, Fails Q (f a)) : Fails Q (x >>= f) :=
  Holds.bind h fun a _ => hf a

theorem ite {c : Prop} [Decidable c] {y : Result α} (hx : Fails Q x) (hy : Fails Q y) :
    Fails Q (if c then x else y) :=
  Holds.ite hx hy

/-- A failure under a condition, before what comes next in any case. -/
theorem guard {c : Prop} [Decidable c] {x : Result Unit} {f : Unit → Result β} (hx : Fails Q x)
    (hf : ∀ a, Fails Q (f a)) : Fails Q (if c then x >>= f else f ()) :=
  .ite (.bind hx hf) (hf ())

theorem imp {Q' : Failure → Prop} (h : Fails Q x) (hq : ∀ e, Q e → Q' e) : Fails Q' x := by
  cases x with
  | ok a => trivial
  | error e => exact hq e h

end Fails

end Holds

end DocGrid.Result

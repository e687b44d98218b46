import DocGrid.Proofs.Results
import DocGrid.Proofs.Store.Connectives

/-! The answers of connectives, where a part may be unknown or may fail. Both truth values of a
disjunction are told from those of its parts, and of a conjunction whether it is true: that is all
a search asks for. -/

namespace DocGrid.Condition

variable {r : SqlRow} {c : Condition} {cs : List Condition}

@[simp] theorem either_eq_false (a b : Option Bool) :
    either a b = some false ↔ a = some false ∧ b = some false := by
  rcases a with _ | _ | _ <;> rcases b with _ | _ | _ <;> decide

/-- An answer, if there is one, is the given truth value exactly under the condition. There is one
unless a pattern is too long. -/
structure Tells (answer : Result (Option Bool)) (long : Prop) (b : Bool) (p : Prop) : Prop where
  iff : ∀ known, answer = .ok known → (known = some b ↔ p)
  fails : ∀ e, answer = .error e → e = .storeOperation ∧ long

theorem Tells.mono {answer : Result (Option Bool)} {long long' : Prop} {b : Bool} {p : Prop}
    (h : Tells answer long b p) (hlong : long → long') : Tells answer long' b p :=
  ⟨h.iff, fun e he => (h.fails e he).imp_right hlong⟩

theorem tells_of_ok {answer : Result (Option Bool)} {known : Option Bool} {long : Prop} {b : Bool}
    {p : Prop} (h : answer = .ok known) (hp : known = some b ↔ p) : Tells answer long b p := by
  subst h
  exact ⟨fun k hk => Except.ok.inj hk ▸ hp, nofun⟩

theorem tells_of_error {answer : Result (Option Bool)} {long p : Prop} {b : Bool}
    (h : answer = .error .storeOperation) (hlong : long) : Tells answer long b p := by
  subst h
  exact ⟨nofun, fun e he => ⟨(Except.error.inj he).symm, hlong⟩⟩

theorem filter_constant_eq_self {b : Bool} (h : constant b ∉ cs) :
    cs.filter (fun c => !isConstant b c) = cs := by
  refine List.filter_eq_self.mpr fun c hc => ?_
  rw [Bool.not_eq_true', Bool.eq_false_iff, ne_eq, isConstant_iff]
  exact fun heq => h (heq ▸ hc)

theorem disjunction_ne_constant (h : ∀ b, constant b ∉ cs) (hne : cs ≠ []) (b : Bool) :
    disjunction cs ≠ constant b := by
  have hkept := filter_constant_eq_self (h false)
  have hwhole := connects_disjunction cs
  generalize disjunction cs = whole at hwhole
  cases hwhole with
  | settled hmem => exact absurd hmem (h true)
  | nothing hnil => exact absurd (hkept.symm.trans hnil) hne
  | single _ hone =>
    have hmem : whole ∈ cs := by simp [hkept.symm.trans hone]
    rintro rfl
    exact h b hmem
  | joined => simp

theorem conjunction_eq_all {d : Condition} (h : ∀ b, constant b ∉ c :: d :: cs) :
    conjunction (c :: d :: cs) = all (c :: d :: cs) := by
  unfold conjunction
  rw [if_neg (mt constant_mem_iff.mp (h false)), filter_constant_eq_self (h true)]

variable [Conversions]

/-- The first condition decides, or it is joined with the others. -/
theorem ok_of_holdsAny_cons {k : Option Bool} (h : holdsAny r (c :: cs) = .ok k) :
    ∃ known, holds r c = .ok known ∧ (known = some true ∧ k = some true ∨
      ∃ rest, holdsAny r cs = .ok rest ∧ k = either known rest) := by
  rw [holdsAny] at h
  obtain ⟨known, hknown, h⟩ := Result.ok_of_bind h
  refine ⟨known, hknown, ?_⟩
  split at h
  · next htrue => exact .inl ⟨htrue, (Except.ok.inj h).symm.trans htrue⟩
  · obtain ⟨rest, hrest, h⟩ := Result.ok_of_bind h
    exact .inr ⟨rest, hrest, (Except.ok.inj h).symm⟩

theorem error_of_holdsAny_cons {e : Failure} (h : holdsAny r (c :: cs) = .error e) :
    holds r c = .error e ∨ holdsAny r cs = .error e := by
  rw [holdsAny] at h
  rcases Result.error_of_bind h with hc | ⟨known, -, h⟩
  · exact .inl hc
  · split at h
    · cases h
    · rcases Result.error_of_bind h with hcs | ⟨rest, -, h⟩
      · exact .inr hcs
      · cases h

theorem ok_of_holdsAll_cons {k : Option Bool} (h : holdsAll r (c :: cs) = .ok k) :
    ∃ known, holds r c = .ok known ∧ (known ≠ some true ∧ k ≠ some true ∨
      known = some true ∧ holdsAll r cs = .ok k) := by
  rw [holdsAll] at h
  obtain ⟨known, hknown, h⟩ := Result.ok_of_bind h
  refine ⟨known, hknown, ?_⟩
  split at h
  · next htrue => exact .inr ⟨htrue, h⟩
  · next hnot => exact .inl ⟨hnot, Except.ok.inj h ▸ hnot⟩

theorem error_of_holdsAll_cons {e : Failure} (h : holdsAll r (c :: cs) = .error e) :
    holds r c = .error e ∨ holdsAll r cs = .error e := by
  rw [holdsAll] at h
  rcases Result.error_of_bind h with hc | ⟨known, -, h⟩
  · exact .inl hc
  · split at h
    · exact .inr h
    · cases h

theorem Tells.not {long p : Prop} {b : Bool} (h : Tells (holds r c) long b p) :
    Tells (holds r c.not) long (!b) p := by
  rw [holds]
  cases hc : holds r c with
  | error e => exact ⟨nofun, fun d hd => h.fails d (hc.trans hd)⟩
  | ok known =>
    refine tells_of_ok rfl ?_
    rw [← h.iff known hc]
    cases b <;> rcases known with _ | _ | _ <;> decide

section Lists

variable {α : Type} {xs : List α} {f : α → Condition} {long p : α → Prop}

theorem tells_any_true (h : ∀ x ∈ xs, Tells (holds r (f x)) (long x) true (p x)) :
    Tells (holdsAny r (xs.map f)) (∃ x ∈ xs, long x) true (∃ x ∈ xs, p x) := by
  induction xs with
  | nil => exact tells_of_ok rfl (by simp)
  | cons x xs ih =>
    obtain ⟨hx, hxs⟩ := List.forall_mem_cons.mp h
    rw [List.map_cons, List.exists_mem_cons_iff, List.exists_mem_cons_iff]
    constructor
    · intro k hk
      obtain ⟨known, hknown, ⟨htrue, rfl⟩ | ⟨rest, hrest, rfl⟩⟩ := ok_of_holdsAny_cons hk
      · simp [(hx.iff known hknown).mp htrue]
      · rw [either_eq_true, hx.iff known hknown, (ih hxs).iff rest hrest]
    · intro e he
      rcases error_of_holdsAny_cons he with he | he
      · exact (hx.fails e he).imp_right .inl
      · exact ((ih hxs).fails e he).imp_right .inr

theorem tells_any_false (h : ∀ x ∈ xs, Tells (holds r (f x)) (long x) false (p x)) :
    Tells (holdsAny r (xs.map f)) (∃ x ∈ xs, long x) false (∀ x ∈ xs, p x) := by
  induction xs with
  | nil => exact tells_of_ok rfl (by simp)
  | cons x xs ih =>
    obtain ⟨hx, hxs⟩ := List.forall_mem_cons.mp h
    rw [List.map_cons, List.exists_mem_cons_iff, List.forall_mem_cons]
    constructor
    · intro k hk
      obtain ⟨known, hknown, ⟨rfl, rfl⟩ | ⟨rest, hrest, rfl⟩⟩ := ok_of_holdsAny_cons hk
      · simp [← hx.iff _ hknown]
      · rw [either_eq_false, hx.iff known hknown, (ih hxs).iff rest hrest]
    · intro e he
      rcases error_of_holdsAny_cons he with he | he
      · exact (hx.fails e he).imp_right .inl
      · exact ((ih hxs).fails e he).imp_right .inr

theorem Tells.cons_all {long longs p ps : Prop} (h : Tells (holds r c) long true p)
    (hs : Tells (holdsAll r cs) longs true ps) :
    Tells (holdsAll r (c :: cs)) (long ∨ longs) true (p ∧ ps) := by
  constructor
  · intro k hk
    obtain ⟨known, hknown, ⟨hnot, hk⟩ | ⟨htrue, hk⟩⟩ := ok_of_holdsAll_cons hk
    · simp [hk, ← h.iff known hknown, hnot]
    · simp [hs.iff k hk, ← h.iff known hknown, htrue]
  · intro e he
    rcases error_of_holdsAll_cons he with he | he
    · exact (h.fails e he).imp_right .inl
    · exact (hs.fails e he).imp_right .inr

theorem tells_all (h : ∀ x ∈ xs, Tells (holds r (f x)) (long x) true (p x)) :
    Tells (holdsAll r (xs.map f)) (∃ x ∈ xs, long x) true (∀ x ∈ xs, p x) := by
  induction xs with
  | nil => exact tells_of_ok rfl (by simp)
  | cons x xs ih =>
    obtain ⟨hx, hxs⟩ := List.forall_mem_cons.mp h
    rw [List.map_cons, List.exists_mem_cons_iff, List.forall_mem_cons]
    exact hx.cons_all (ih hxs)

end Lists

/-! Without constants among its parts a connective is the connective of all of them. -/

theorem holds_disjunction (h : ∀ b, constant b ∉ cs) :
    (disjunction cs).holds r = holdsAny r cs := by
  unfold disjunction
  rw [if_neg (mt constant_mem_iff.mp (h true)), filter_constant_eq_self (h false)]
  cases cs with
  | nil => rfl
  | cons c rest =>
    cases rest with
    | nil =>
      dsimp only
      rw [holdsAny, holdsAny]
      cases holds r c with
      | error e => rfl
      | ok known => rcases known with _ | _ | _ <;> rfl
    | cons d rest => rfl

end DocGrid.Condition

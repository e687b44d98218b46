import DocGrid.Pattern.Grammar
import Mathlib.Data.List.Infix

/-! Readings of the tokens of a pattern. A reading stays within the tokens, and what is said of its
result and of the reason for its problem is composed along the reading. -/

namespace DocGrid.Pattern

def IsDigitRun (ts : List Token) (digits : List Char) : Prop :=
  digits.map .plain <:+: ts ∧ ∀ d ∈ digits, isAsciiDigit d = true

/-- What must stand in the tokens for a problem to come up while they are read. -/
def Explains (ts : List Token) : Problem → Prop
  | .malformed => True
  | .countTooLarge => ∃ digits, IsDigitRun ts digits ∧ 0xFFFFFFFF ≤ numberOf 10 digits
  | .countUnreadable => ∃ digits, IsDigitRun ts digits ∧ Reading.maxDigits < digits.length
  | .flagConflict => .plain ')' ∈ ts

/-- A reader within the tokens of a pattern. It has flags for the whole pattern only after a
parenthesis was closed. -/
structure Reader.Within (ts : List Token) (r : Reader) : Prop where
  rest : r.rest <:+ ts
  whole : r.whole = [] ∨ .plain ')' ∈ ts

/-- A reading that stays within the tokens, with what holds of its result and the reason of its
problem. -/
def Reads {α : Type} (ts : List Token) (m : Parse α) (Q : α → Prop) : Prop :=
  ∀ r, r.Within ts → (∀ a r', m r = .ok (a, r') → r'.Within ts ∧ Q a) ∧
    ∀ problem, m r = .error problem → Explains ts problem

section Rules

variable {α β : Type} {ts : List Token} {m n : Parse α} {Q Q' : α → Prop}

theorem Reads.mono (h : Reads ts m Q) (hq : ∀ a, Q a → Q' a) : Reads ts m Q' := by
  refine fun r hr => ⟨fun a r' ha => ?_, (h r hr).2⟩
  obtain ⟨hr', hqa⟩ := (h r hr).1 a r' ha
  exact ⟨hr', hq a hqa⟩

theorem reads_pure {a : α} (h : Q a) : Reads ts (pure a) Q := by
  refine fun r hr => ⟨fun b r' hb => ?_, fun problem hb => ?_⟩
  · cases hb
    exact ⟨hr, h⟩
  · cases hb

theorem reads_throw {problem : Problem} (h : Explains ts problem) :
    Reads ts (throw problem : Parse α) Q := by
  refine fun r hr => ⟨fun b r' hb => ?_, fun other hb => ?_⟩
  · cases hb
  · cases hb
    exact h

theorem reads_fail : Reads ts (Parse.fail : Parse α) Q :=
  reads_throw trivial

theorem reads_get : Reads ts (get : Parse Reader) fun r => r.Within ts := by
  refine fun r hr => ⟨fun b r' hb => ?_, fun problem hb => ?_⟩
  · cases hb
    exact ⟨hr, hr⟩
  · cases hb

theorem reads_set {r : Reader} (h : r.Within ts) :
    Reads ts (set r : Parse PUnit) fun _ => True := by
  refine fun r hr => ⟨fun b r' hb => ?_, fun problem hb => ?_⟩
  · cases hb
    exact ⟨h, trivial⟩
  · cases hb

theorem reads_modify {f : Reader → Reader} (h : ∀ r, r.Within ts → (f r).Within ts) :
    Reads ts (modify f : Parse PUnit) fun _ => True := by
  refine fun r hr => ⟨fun b r' hb => ?_, fun problem hb => ?_⟩
  · cases hb
    exact ⟨h r hr, trivial⟩
  · cases hb

theorem Reads.bind {f : α → Parse β} {R : β → Prop} (hm : Reads ts m Q)
    (hf : ∀ a, Q a → Reads ts (f a) R) : Reads ts (m >>= f) R := by
  intro r hr
  have hb : (m >>= f) r = (m r).bind fun p => f p.1 p.2 := rfl
  rw [hb]
  cases h : m r with
  | error problem =>
    refine ⟨fun b r' he => ?_, fun other he => ?_⟩
    · cases he
    · cases he
      exact (hm r hr).2 problem h
  | ok p =>
    obtain ⟨hr', ha⟩ := (hm r hr).1 p.1 p.2 h
    exact hf p.1 ha p.2 hr'

theorem reads_throw_bind {problem : Problem} {f : α → Parse β} {R : β → Prop}
    (h : Explains ts problem) : Reads ts (throw problem >>= f) R :=
  Reads.bind (reads_throw (Q := fun _ => False) h) fun _ hf => hf.elim

theorem Reads.map {f : α → β} {R : β → Prop} (hm : Reads ts m Q) (hf : ∀ a, Q a → R (f a)) :
    Reads ts (f <$> m) R := by
  have h : f <$> m = m >>= fun a => pure (f a) := (bind_pure_comp f m).symm
  rw [h]
  exact hm.bind fun a ha => reads_pure (hf a ha)

theorem Reads.discard (hm : Reads ts m Q) : Reads ts (discard m) fun _ => True :=
  hm.map fun _ _ => trivial

theorem Reads.ite {c : Prop} [Decidable c] (hm : c → Reads ts m Q) (hn : ¬c → Reads ts n Q) :
    Reads ts (if c then m else n) Q := by
  by_cases h : c
  · simpa [h] using hm h
  · simpa [h] using hn h

end Rules

section Tokens

variable {ts : List Token}

theorem Reader.Within.ofRest {r r' : Reader} (h : r.Within ts) (hr : r'.rest <:+ r.rest)
    (hw : r'.whole = r.whole) : r'.Within ts :=
  ⟨hr.trans h.rest, hw ▸ h.whole⟩

theorem Reader.Within.mem {r : Reader} (h : r.Within ts) {t : Token} (ht : t ∈ r.rest) : t ∈ ts :=
  h.rest.subset ht

theorem reads_peek : Reads ts Parse.peek fun t? => ∀ t, t? = some t → t ∈ ts :=
  reads_get.bind fun _ hr => reads_pure fun _ ht => hr.mem (List.mem_of_mem_head? ht)

theorem reads_next : Reads ts Parse.next fun t? => ∀ t, t? = some t → t ∈ ts := by
  refine reads_get.bind fun r hr => ?_
  split
  · exact reads_pure fun t ht => by cases ht
  · next t rest heq =>
    refine .ite (fun _ => reads_fail) fun _ => ?_
    have hrest : rest <:+ r.rest := heq ▸ List.suffix_cons t rest
    have hr' : Reader.Within ts { r with rest := rest } := hr.ofRest hrest rfl
    refine (reads_set hr').bind fun _ _ => reads_pure ?_
    intro u hu
    cases hu
    exact hr.mem (by simp [heq])

theorem reads_accept (c : Char) : Reads ts (Parse.accept c) fun _ => True := by
  refine reads_peek.bind fun t _ => .ite (fun _ => ?_) fun _ => reads_pure trivial
  exact reads_next.discard.bind fun _ _ => reads_pure trivial

theorem reads_expect (c : Char) : Reads ts (Parse.expect c) fun _ => True :=
  (reads_accept c).bind fun _ _ => .ite (fun _ => reads_fail) fun _ => reads_pure trivial

@[simp] theorem run_bind {α β : Type} (m : Parse α) (f : α → Parse β) (r : Reader) :
    (m >>= f) r = (m r).bind fun p => f p.1 p.2 := rfl

@[simp] theorem run_pure {α : Type} (a : α) (r : Reader) : (pure a : Parse α) r = .ok (a, r) := rfl

@[simp] theorem run_discard {α : Type} (m : Parse α) (r : Reader) :
    (discard m : Parse PUnit) r = (m r).map fun p => ((), p.2) := rfl

@[simp] theorem run_peek (r : Reader) : Parse.peek r = .ok (r.rest.head?, r) := rfl

@[simp] theorem run_next (r : Reader) : Parse.next r = match r.rest with
    | [] => .ok (none, r)
    | t :: rest => if rest.head? = some .broken then .error .malformed
      else .ok (some t, { r with rest := rest }) := by
  have h : Parse.next r = (match r.rest with
    | [] => pure none
    | t :: rest =>
      if rest.head? = some .broken then Parse.fail
      else do
        set { r with rest := rest }
        return some t : Parse (Option Token)) r := rfl
  rw [h]
  cases r.rest with
  | nil => rfl
  | cons t rest => by_cases hb : rest.head? = some .broken <;> simp only [hb] <;> rfl

theorem takeUpTo_eq_ok {test : Char → Bool} {count : Nat} {r r' : Reader} {cs : List Char}
    (h : Parse.takeUpTo test count r = .ok (cs, r')) :
    r.rest = cs.map .plain ++ r'.rest ∧ (∀ c ∈ cs, test c = true) ∧ r'.whole = r.whole := by
  induction count generalizing r cs with
  | zero =>
    cases h
    simp
  | succ count ih =>
    simp only [Parse.takeUpTo, run_bind, run_peek, Except.bind] at h
    cases hr : r.rest with
    | nil =>
      simp only [hr, List.head?_nil, run_pure] at h
      cases h
      simp [hr]
    | cons t rest =>
      simp only [hr, List.head?_cons] at h
      cases t with
      | plain c =>
        -- Only a plain character is taken; anything else ends the run.
        by_cases hc : test c = true
        · simp only [hc, if_true, run_bind, run_discard, run_next, hr] at h
          by_cases hb : rest.head? = some .broken
          · simp only [hb, if_true] at h
            cases h
          · simp only [hb, if_false] at h
            cases hm : Parse.takeUpTo test count { r with rest := rest } with
            | error problem =>
              simp only [Except.map, Except.bind, hm] at h
              cases h
            | ok p =>
              obtain ⟨ds, s⟩ := p
              simp only [Except.map, Except.bind, hm] at h
              cases h
              obtain ⟨hrest, htest, hwhole⟩ := ih hm
              refine ⟨?_, ?_, hwhole⟩
              · simpa using hrest
              · exact List.forall_mem_cons.mpr ⟨hc, htest⟩
        · simp only [hc] at h
          cases h
          simp [hr]
      | escaped c =>
        cases h
        simp [hr]
      | broken =>
        cases h
        simp [hr]

theorem takeUpTo_within {test : Char → Bool} (count : Nat) :
    Reads ts (Parse.takeUpTo test count) fun _ => True := by
  induction count with
  | zero => exact reads_pure trivial
  | succ count ih =>
    refine reads_peek.bind fun t? _ => ?_
    split
    · refine .ite (fun _ => ?_) fun _ => reads_pure trivial
      exact reads_next.discard.bind fun _ _ => ih.bind fun _ _ => reads_pure trivial
    · exact reads_pure trivial

theorem reads_takeUpTo {test : Char → Bool} (count : Nat) :
    Reads ts (Parse.takeUpTo test count) fun cs =>
      cs.map .plain <:+: ts ∧ ∀ c ∈ cs, test c = true := by
  refine fun r hr => ⟨fun cs r' h => ?_, fun problem h => ?_⟩
  · obtain ⟨hrest, htest, hwhole⟩ := takeUpTo_eq_ok h
    have hs : r'.rest <:+ r.rest := hrest ▸ List.suffix_append _ _
    have hp : cs.map .plain <+: r.rest := hrest ▸ List.prefix_append _ _
    exact ⟨hr.ofRest hs hwhole, hp.isInfix.trans hr.rest.isInfix, htest⟩
  · exact (takeUpTo_within count r hr).2 problem h

theorem reads_takeName (close : Char) (fuel : Nat) (found : List Char) :
    Reads ts (Parse.takeName close fuel found) fun _ => True := by
  induction fuel generalizing found with
  | zero => exact reads_fail
  | succ fuel ih =>
    refine reads_next.bind fun t? _ => ?_
    cases t? with
    | none => exact reads_fail
    | some t =>
      refine .ite (fun _ => ?_) fun _ => ih _
      exact .ite (fun _ => reads_fail) fun _ => reads_pure trivial

theorem reads_skipPast (stop : Char) (mustStop : Bool) (fuel : Nat) :
    Reads ts (Parse.skipPast stop mustStop fuel) fun _ => True := by
  induction fuel with
  | zero => exact reads_fail
  | succ fuel ih =>
    refine reads_next.bind fun t? _ => ?_
    cases t? with
    | none => exact .ite (fun _ => reads_fail) fun _ => reads_pure trivial
    | some t => exact .ite (fun _ => ih) fun _ => reads_pure trivial

end Tokens

end DocGrid.Pattern

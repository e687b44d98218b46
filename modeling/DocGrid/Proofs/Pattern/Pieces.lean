import DocGrid.Proofs.Pattern.Readings

/-! The pieces of a pattern: repeats, escapes, sets, references and the openings of groups. Only a
repeat refuses a count. -/

namespace DocGrid.Pattern

variable {ts : List Token}

theorem reads_digits (count : Nat) :
    Reads ts (Parse.takeUpTo isAsciiDigit count) (IsDigitRun ts) :=
  reads_takeUpTo count

/-- The only reading that refuses a count: both bounds of a repeat are runs of digits. -/
theorem reads_bounds : Reads ts bounds? fun _ => True := by
  refine reads_get.bind fun here hhere => reads_peek.bind fun _ _ => ?_
  refine .ite (fun _ => reads_pure trivial) fun _ => ?_
  refine (reads_digits _).bind fun low hlow => (reads_accept ',').bind fun comma _ => ?_
  refine .ite (fun _ => (reads_digits _).bind fun high hhigh => ?_) fun _ =>
    (reads_pure hlow).bind fun high hhigh => ?_
  -- With a comma or without, what follows treats its two runs of digits alike.
  all_goals
    refine (reads_accept '}').bind fun _ _ => .ite (fun _ => ?_) fun _ =>
      (reads_set hhere).bind fun _ _ => reads_pure trivial
    refine .ite (fun hl => reads_throw_bind ⟨low, hlow, hl⟩) fun _ => ?_
    refine .ite (fun hl => reads_throw_bind ⟨low, hlow, hl⟩) fun _ => ?_
    refine .ite (fun _ => reads_pure trivial) fun _ => ?_
    refine .ite (fun hl => reads_throw_bind ⟨high, hhigh, hl⟩) fun _ => ?_
    refine .ite (fun hl => reads_throw_bind ⟨high, hhigh, hl⟩) fun _ => ?_
    exact .ite (fun _ => reads_throw_bind trivial) fun _ => reads_pure trivial

theorem reads_repeat (c : Char) : Reads ts (repeat? c) fun _ => True := by
  unfold repeat?
  split
  · exact reads_pure trivial
  · exact reads_pure trivial
  · exact reads_pure trivial
  · exact reads_bounds
  · exact reads_pure trivial

theorem reads_greed : Reads ts greed fun _ => True := by
  refine (reads_accept '?').bind fun _ _ => .ite (fun _ => reads_pure trivial) fun _ => ?_
  exact (reads_accept '+').bind fun _ _ =>
    .ite (fun _ => reads_pure trivial) fun _ => reads_pure trivial

theorem reads_repeatLast (least : Nat) (most : Option Nat) (found : List Node) :
    Reads ts (repeatLast least most found) fun _ => True := by
  cases found with
  | nil => exact reads_fail
  | cons last found =>
    refine .ite (fun _ => reads_fail) fun _ => ?_
    exact reads_greed.bind fun _ _ => reads_pure trivial

theorem reads_hexCode (count : Nat) : Reads ts (hexCode count) fun _ => True :=
  (reads_takeUpTo count).bind fun _ _ => .ite (fun _ => reads_pure trivial) fun _ => reads_fail

theorem reads_octalCode (first : Char) : Reads ts (octalCode first) fun _ => True :=
  (reads_takeUpTo 2).bind fun _ _ => .ite (fun _ => reads_pure trivial) fun _ => reads_fail

theorem reads_namedCode : Reads ts namedCode fun _ => True := by
  refine (reads_expect _).bind fun _ _ => reads_get.bind fun _ _ => ?_
  refine (reads_takeName _ _ _).bind fun name _ => ?_
  split
  · exact reads_pure trivial
  · exact reads_fail

theorem reads_escapedCode (c : Char) : Reads ts (escapedCode c) fun _ => True := by
  unfold escapedCode
  split
  · exact reads_hexCode 2
  · exact reads_hexCode 4
  · exact reads_hexCode 8
  · exact reads_namedCode
  · exact .ite (fun _ => reads_fail) fun _ => reads_pure trivial

theorem reads_memberOfToken (t : Token) : Reads ts (memberOfToken t) fun _ => True := by
  cases t with
  | plain c => exact reads_pure trivial
  | broken => exact reads_fail
  | escaped c =>
    change Reads ts (memberOfEscape c) fun _ => True
    unfold memberOfEscape
    split
    · exact reads_pure trivial
    · exact reads_pure trivial
    · refine .map (Q := fun _ => True) (.ite (fun _ => ?_) fun _ => ?_) fun _ _ => trivial
      · exact reads_octalCode c
      · exact reads_escapedCode c

theorem reads_setMembers (fuel : Nat) (found : List Member) :
    Reads ts (setMembers fuel found) fun _ => True := by
  induction fuel generalizing found with
  | zero => exact reads_fail
  | succ fuel ih =>
    refine reads_next.bind fun t? _ => ?_
    cases t? with
    | none => exact reads_fail
    | some t =>
      refine .ite (fun _ => reads_pure trivial) fun _ => ?_
      refine (reads_memberOfToken t).bind fun low _ => (reads_accept '-').bind fun _ _ => ?_
      refine .ite (fun _ => reads_next.bind fun t'? _ => ?_) fun _ => ih _
      cases t'? with
      | none => exact reads_fail
      | some t' =>
        refine .ite (fun _ => reads_pure trivial) fun _ => ?_
        refine (reads_memberOfToken t').bind fun high _ => ?_
        split
        · exact .ite (fun _ => reads_fail) fun _ => ih _
        · exact reads_fail

theorem reads_checkReference (number : Nat) : Reads ts (checkReference number) fun _ => True := by
  refine reads_get.bind fun r _ => ?_
  split
  · exact .ite (fun _ => reads_fail) fun _ => reads_pure trivial
  · exact reads_fail

theorem reads_checkCondition (number : Nat) : Reads ts (checkCondition number) fun _ => True :=
  reads_get.bind fun _ _ =>
    .ite (fun _ => (reads_checkReference number).discard) fun _ => reads_pure trivial

theorem reads_referenceNode (f : Flags) (number : Nat) :
    Reads ts (referenceNode f number) fun _ => True :=
  (reads_checkReference number).bind fun _ _ => reads_pure trivial

theorem reads_digitEscape (f : Flags) (c : Char) : Reads ts (digitEscape f c) fun _ => True := by
  refine .ite (fun _ => (reads_takeUpTo 2).bind fun _ _ => reads_pure trivial) fun _ => ?_
  refine (reads_takeUpTo 1).bind fun digits _ => ?_
  split
  · refine reads_peek.bind fun t? _ => .ite (fun _ => ?_) fun _ => reads_referenceNode f _
    exact (reads_takeUpTo 1).bind fun _ _ =>
      .ite (fun _ => reads_pure trivial) fun _ => reads_fail
  · exact reads_referenceNode f _

theorem reads_escapeNode (f : Flags) (c : Char) : Reads ts (escapeNode f c) fun _ => True := by
  unfold escapeNode
  split
  · exact reads_pure trivial
  · exact reads_pure trivial
  · exact reads_pure trivial
  · exact reads_pure trivial
  · exact reads_pure trivial
  · exact reads_pure trivial
  · refine .ite (fun _ => reads_digitEscape f _) fun _ => ?_
    exact (reads_escapedCode _).bind fun _ _ => reads_pure trivial

theorem reads_groupName (close : Char) : Reads ts (groupName close) fun _ => True :=
  reads_get.bind fun _ _ => (reads_takeName _ _ _).bind fun _ _ =>
    .ite (fun _ => reads_pure trivial) fun _ => reads_fail

theorem reads_numberOfName (name : String) : Reads ts (numberOfName name) fun _ => True := by
  refine reads_get.bind fun r _ => ?_
  split
  · exact reads_pure trivial
  · exact reads_fail

theorem reads_openGroup (name : Option String) : Reads ts (openGroup name) fun _ => True := by
  refine reads_get.bind fun r hr => ?_
  cases name with
  | none =>
    refine (reads_set ?_).bind fun _ _ => reads_pure trivial
    exact hr.ofRest (List.suffix_refl _) rfl
  | some s =>
    refine .ite (fun _ => reads_throw_bind trivial) fun _ => ?_
    refine (reads_set ?_).bind fun _ _ => reads_pure trivial
    exact hr.ofRest (List.suffix_refl _) rfl

theorem reads_closeGroup (number : Nat) (width : Width) :
    Reads ts (closeGroup number width) fun _ => True :=
  reads_modify fun _ hr => hr.ofRest (List.suffix_refl _) rfl

theorem reads_conditionGroup : Reads ts conditionGroup fun _ => True := by
  refine reads_get.bind fun _ _ => (reads_takeName _ _ _).bind fun name _ => ?_
  refine .ite (fun _ => reads_numberOfName _) fun _ => ?_
  split
  · refine .ite (fun _ => reads_fail) fun _ => (reads_modify ?_).bind fun _ _ => reads_pure trivial
    exact fun _ hr => hr.ofRest (List.suffix_refl _) rfl
  · exact reads_fail

theorem reads_flagLetters (close : List Char) (allowed : Char → Bool) (fuel : Nat) (c : Char)
    (found : List Char) :
    Reads ts (flagLetters close allowed fuel c found) fun flags => .plain flags.2 ∈ ts := by
  induction fuel generalizing c found with
  | zero => exact reads_fail
  | succ fuel ih =>
    refine .ite (fun _ => reads_fail) fun _ => reads_next.bind fun t? ht => ?_
    split
    · next d => exact .ite (fun _ => reads_pure (ht _ rfl)) fun _ => ih _ _
    · exact reads_fail

theorem reads_flagChange (c : Char) : Reads ts (flagChange? c) fun _ => True := by
  refine reads_get.bind fun r _ => ?_
  have hletters := @reads_flagLetters ts [')', '-', ':'] (· ≠ 'L') (r.rest.length + 1) c []
  have hclose : ∀ flags : List Char × Char, .plain flags.2 ∈ ts → flags.2 = ')' →
      .plain ')' ∈ ts := fun flags h he => he ▸ h
  refine .ite (fun _ => (reads_pure (Q := fun flags => flags.2 = ')' → .plain ')' ∈ ts) ?_).bind
    fun flags hflags => ?_) fun hc => (hletters.mono hclose).bind fun flags hflags => ?_
  · intro h
    cases h
  all_goals
    refine .ite (fun _ => reads_fail) fun _ => .ite (fun hparen => ?_) fun _ => ?_
    · refine (reads_modify fun s hs => ?_).bind fun _ _ => reads_pure trivial
      exact ⟨hs.rest, .inr (hflags hparen)⟩
    refine .ite (fun _ => reads_fail) fun _ => .ite (fun _ => ?_) fun _ => ?_
    · exact (reads_pure (Q := fun _ => True) trivial).bind fun _ _ =>
        .ite (fun _ => reads_fail) fun _ => reads_pure trivial
    refine reads_next.bind fun t? _ => ?_
    split
    · refine ((reads_flagLetters _ _ _ _ _).map (R := fun _ => True) fun _ _ => trivial).bind
        fun _ _ => ?_
      exact .ite (fun _ => reads_fail) fun _ => reads_pure trivial
    · exact reads_throw_bind trivial

theorem reads_opening : Reads ts opening fun _ => True := by
  refine (reads_accept '?').bind fun _ _ => .ite (fun _ => reads_pure trivial) fun _ => ?_
  refine reads_next.bind fun t? _ => ?_
  split
  · next c _ =>
    refine .ite (fun _ => ?_) fun _ => ?_
    · refine (reads_accept '<').bind fun _ _ => .ite (fun _ => ?_) fun _ => ?_
      · exact (reads_groupName _).bind fun _ _ => reads_pure trivial
      · refine (reads_accept '=').bind fun _ _ => .ite (fun _ => ?_) fun _ => reads_fail
        exact (reads_groupName _).bind fun _ _ =>
          (reads_numberOfName _).bind fun _ _ => reads_pure trivial
    refine .ite (fun _ => reads_pure trivial) fun _ => .ite (fun _ => ?_) fun _ => ?_
    · exact reads_get.bind fun _ _ =>
        (reads_skipPast _ _ _).bind fun _ _ => reads_pure trivial
    refine .ite (fun _ => reads_pure trivial) fun _ => ?_
    refine .ite (fun _ => reads_pure trivial) fun _ => ?_
    refine .ite (fun _ => ?_) fun _ => ?_
    · refine (reads_accept '=').bind fun _ _ => .ite (fun _ => reads_pure trivial) fun _ => ?_
      exact (reads_accept '!').bind fun _ _ =>
        .ite (fun _ => reads_pure trivial) fun _ => reads_fail
    refine .ite (fun _ => reads_conditionGroup.bind fun _ _ => reads_pure trivial) fun _ => ?_
    refine .ite (fun _ => reads_pure trivial) fun _ => .ite (fun _ => ?_) fun _ => reads_fail
    refine (reads_flagChange c).bind fun change _ => ?_
    split
    · exact reads_pure trivial
    · exact reads_pure trivial
  · exact reads_fail

end DocGrid.Pattern

import DocGrid.Proofs.Pattern.Pieces

/-! Why a text is refused as a pattern: it is malformed, except where a run of digits is too large
or too long for a repeat count, or where flags for the whole pattern contradict each other, which
takes a closing parenthesis. -/

namespace DocGrid.Pattern

section Levels

variable {ts : List Token} {fuel : Nat}

theorem reads_groupBody_succ
    (ihAlternatives : ∀ f outermost, Reads ts (alternatives f outermost fuel) fun _ => True)
    (ihSequence : ∀ f outermost first found,
      Reads ts (sequence f outermost first fuel found) fun _ => True)
    (f : Flags) (opened : Opening) : Reads ts (groupBody f (fuel + 1) opened) fun _ => True := by
  cases opened with
  | group name =>
    rw [groupBody]
    refine (reads_openGroup name).bind fun number _ => (ihAlternatives _ _).bind fun body _ => ?_
    refine (reads_expect ')').bind fun _ _ => ?_
    exact (reads_closeGroup _ _).bind fun _ _ => reads_pure trivial
  | plainGroup change =>
    rw [groupBody]
    exact (ihAlternatives _ _).bind fun _ _ =>
      (reads_expect ')').bind fun _ _ => reads_pure trivial
  | atomic =>
    rw [groupBody]
    exact (ihAlternatives _ _).bind fun _ _ =>
      (reads_expect ')').bind fun _ _ => reads_pure trivial
  | ahead negated =>
    rw [groupBody]
    exact (ihAlternatives _ _).bind fun _ _ =>
      (reads_expect ')').bind fun _ _ => reads_pure trivial
  | behind negated =>
    have hide : ∀ g : Reader → Option Nat,
        Reads ts (modify fun r => { r with hidden := g r } : Parse PUnit) fun _ => True :=
      fun g => reads_modify fun _ hr => hr.ofRest (List.suffix_refl _) rfl
    rw [groupBody]
    refine reads_get.bind fun r _ => (hide _).bind fun _ _ => ?_
    refine (ihAlternatives _ _).bind fun _ _ => ?_
    exact (hide _).bind fun _ _ => (reads_expect ')').bind fun _ _ => reads_pure trivial
  | conditional number =>
    rw [groupBody]
    refine (reads_checkCondition number).bind fun _ _ => (ihSequence _ _ _ _).bind fun _ _ => ?_
    refine (reads_accept '|').bind fun _ _ => .ite (fun _ => ?_) fun _ => ?_
    · exact (ihSequence _ _ _ _).bind fun _ _ =>
        (reads_expect ')').bind fun _ _ => reads_pure trivial
    · exact (reads_expect ')').bind fun _ _ => reads_pure trivial
  | _ => exact reads_fail

theorem reads_sequence_succ
    (ihSequence : ∀ f outermost first found,
      Reads ts (sequence f outermost first fuel found) fun _ => True)
    (ihBody : ∀ f opened, Reads ts (groupBody f fuel opened) fun _ => True)
    (f : Flags) (outermost first : Bool) (found : List Node) :
    Reads ts (sequence f outermost first (fuel + 1) found) fun _ => True := by
  rw [sequence]
  refine reads_peek.bind fun t? _ => ?_
  cases t? with
  | none => exact reads_pure trivial
  | some t =>
    refine .ite (fun _ => reads_pure trivial) fun _ => reads_next.discard.bind fun _ _ => ?_
    refine .ite (fun _ => ihSequence _ _ _ _) fun _ => .ite (fun _ => ?_) fun _ => ?_
    · exact reads_get.bind fun _ _ => (reads_skipPast _ _ _).bind fun _ _ => ihSequence _ _ _ _
    split
    · exact reads_fail
    · exact (reads_escapeNode _ _).bind fun _ _ => ihSequence _ _ _ _
    · refine (reads_accept '^').bind fun _ _ => reads_get.bind fun _ _ => ?_
      exact (reads_setMembers _ _).bind fun _ _ => ihSequence _ _ _ _
    · exact ihSequence _ _ _ _
    · exact ihSequence _ _ _ _
    · exact ihSequence _ _ _ _
    · refine reads_opening.bind fun opened _ => ?_
      split
      · exact ihSequence _ _ _ _
      · exact .ite (fun _ => reads_get.bind fun _ _ => ihSequence _ _ _ _) fun _ => reads_fail
      · exact (reads_referenceNode _ _).bind fun _ _ => ihSequence _ _ _ _
      · exact (ihBody _ _).bind fun _ _ => ihSequence _ _ _ _
    · refine (reads_repeat _).bind fun bounds _ => ?_
      split
      · exact (reads_repeatLast _ _ _).bind fun _ _ => ihSequence _ _ _ _
      · exact ihSequence _ _ _ _

/-- The fuel bounds the depth of the tree, so the readings of its levels follow together. -/
theorem reads_levels (fuel : Nat) :
    (∀ f outermost, Reads ts (alternatives f outermost fuel) fun _ => True) ∧
    (∀ f outermost, Reads ts (furtherAlternatives f outermost fuel) fun _ => True) ∧
    (∀ f outermost first found, Reads ts (sequence f outermost first fuel found) fun _ => True) ∧
    ∀ f opened, Reads ts (groupBody f fuel opened) fun _ => True := by
  induction fuel with
  | zero =>
    simp only [alternatives, furtherAlternatives, sequence, groupBody]
    exact ⟨fun _ _ => reads_fail, fun _ _ => reads_fail, fun _ _ _ _ => reads_fail,
      fun _ _ => reads_fail⟩
  | succ fuel ih =>
    obtain ⟨ihAlternatives, ihFurther, ihSequence, ihBody⟩ := ih
    refine ⟨fun f outermost => ?_, fun f outermost => ?_, reads_sequence_succ ihSequence ihBody,
      reads_groupBody_succ ihAlternatives ihSequence⟩
    · rw [alternatives]
      refine (ihSequence _ _ _ _).bind fun _ _ => (reads_accept '|').bind fun _ _ => ?_
      refine .ite (fun _ => reads_get.bind fun _ _ => ?_) fun _ => reads_pure trivial
      exact (ihFurther _ _).bind fun _ _ => reads_pure trivial
    · rw [furtherAlternatives]
      refine (ihSequence _ _ _ _).bind fun _ _ => (reads_accept '|').bind fun _ _ => ?_
      refine .ite (fun _ => ?_) fun _ => reads_pure trivial
      exact (ihFurther _ _).bind fun _ _ => reads_pure trivial

/-- Flags contradict each other at the end only if some were set for the whole pattern. -/
theorem reads_pattern (fuel : Nat) : Reads ts (pattern fuel) fun _ => True := by
  refine ((reads_levels fuel).1 _ _).bind fun n _ => reads_get.bind fun r hr => ?_
  refine .ite (fun hc => reads_throw ?_) fun _ => ?_
  · rcases hr.whole with hw | hw
    · simp [hw] at hc
    · exact hw
  refine .ite (fun _ => reads_fail) fun _ => .ite (fun _ => reads_fail) fun _ => ?_
  refine .ite (fun _ => reads_fail) fun _ => .ite (fun _ => reads_fail) fun _ => ?_
  exact reads_pure trivial

end Levels

theorem explains_of_ofText {cs : List Char} {problem : Problem}
    (h : Node.ofText? cs = .error problem) : Explains (tokens cs) problem := by
  have hstart : Reader.Within (tokens cs) ⟨tokens cs, [], [], none, [], []⟩ :=
    ⟨List.suffix_refl _, .inl rfl⟩
  simp only [Node.ofText?] at h
  split at h
  · cases h
    trivial
  · cases hp : (pattern (4 * cs.length + 8)).run ⟨tokens cs, [], [], none, [], []⟩ with
    | error other =>
      rw [hp] at h
      cases h
      exact (reads_pattern _ _ hstart).2 problem hp
    | ok p =>
      rw [hp] at h
      cases h

@[simp] theorem flatMap_text_tokens (cs : List Char) : (tokens cs).flatMap Token.text = cs := by
  fun_induction tokens cs with
  | case1 => rfl
  | case2 => rfl
  | case3 c rest ih => simp [Token.text, ih]
  | case4 c rest _ _ ih => simp [Token.text, ih]

theorem infix_of_plain {cs run : List Char} (h : run.map .plain <:+: tokens cs) :
    run <:+: cs := by
  have ht : (run.map Token.plain).flatMap Token.text = run := by
    simp [List.flatMap_map, Token.text]
  obtain ⟨before, after, he⟩ := h
  refine ⟨before.flatMap Token.text, after.flatMap Token.text, ?_⟩
  have hf := congrArg (List.flatMap Token.text) he
  simpa only [List.flatMap_append, ht, flatMap_text_tokens] using hf

structure IsLongCount (cs digits : List Char) (problem : Problem) : Prop where
  run : digits <:+: cs
  isDigit : ∀ d ∈ digits, isAsciiDigit d = true
  size : problem = .countTooLarge ∧ 0xFFFFFFFF ≤ numberOf 10 digits ∨
    problem = .countUnreadable ∧ Reading.maxDigits < digits.length

/-- A text without a closing parenthesis that is not read as a pattern is malformed, or has a run
of digits too large or too long to be a count. -/
theorem problem_of_ofText {cs : List Char} {problem : Problem} (hp : ')' ∉ cs)
    (h : Node.ofText? cs = .error problem) :
    problem = .malformed ∨ ∃ digits, IsLongCount cs digits problem := by
  have he := explains_of_ofText h
  cases problem with
  | malformed => exact .inl rfl
  | countTooLarge =>
    obtain ⟨digits, hd, hn⟩ := he
    exact .inr ⟨digits, infix_of_plain hd.1, hd.2, .inl ⟨rfl, hn⟩⟩
  | countUnreadable =>
    obtain ⟨digits, hd, hn⟩ := he
    exact .inr ⟨digits, infix_of_plain hd.1, hd.2, .inr ⟨rfl, hn⟩⟩
  | flagConflict =>
    have hin : [')'].map Token.plain <:+: tokens cs := (List.singleton_infix_iff _ _).mpr he
    exact absurd ((infix_of_plain hin).subset (List.mem_singleton_self _)) hp

end DocGrid.Pattern

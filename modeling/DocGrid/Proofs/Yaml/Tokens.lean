import DocGrid.Proofs.Yaml.Lexemes
import DocGrid.Yaml.Lexer

/-! The last token of a YAML text that cannot be read to its end says why, and what it says is the
failure of a lexeme. -/

namespace DocGrid.Yaml

/-- Why the text cannot be read further, if the token says so. -/
def Token.reason? : Token → Option Failure
  | .broken f => some f
  | _ => none

namespace Lexer

/-- Everything has been read so far. -/
def Whole (s : Lexer) : Prop :=
  ∀ t ∈ s.tokens, t.reason? = none

abbrev Steps (r : Result Lexer) : Prop :=
  Result.Holds Whole IsLexical r

variable {s : Lexer}

theorem Whole.push (h : s.Whole) {t : Token} (ht : t.reason? = none) : (s.push t).Whole := by
  intro u hu
  rcases List.mem_append.mp hu with hu | hu
  · exact h u hu
  · rwa [List.mem_singleton.mp hu]

theorem Whole.pushAt (h : s.Whole) (number : Nat) {t : Token} (ht : t.reason? = none) :
    (s.pushAt number t).Whole := by
  intro u hu
  rcases List.mem_append.mp hu with hu | hu
  · exact h u (List.mem_of_mem_take hu)
  · rcases List.mem_cons.mp hu with rfl | hu
    · exact ht
    · exact h u (List.mem_of_mem_drop hu)

theorem Whole.take (h : s.Whole) (n : Nat) {t : Token} (ht : t.reason? = none) :
    (s.take n t).Whole :=
  h.push ht

theorem Whole.unwind (column : Int) (indents : List Int) (h : s.Whole) :
    (Lexer.unwind column indents s).Whole := by
  induction indents generalizing s with
  | nil => exact h
  | cons outer rest ih =>
    unfold Lexer.unwind
    split
    · exact ih (h.push rfl)
    · exact h

theorem Whole.indentTo (h : s.Whole) (column : Int) (number : Nat) {t : Token}
    (ht : t.reason? = none) : (s.indentTo column number t).Whole := by
  unfold Lexer.indentTo
  split
  · exact h.pushAt number ht
  · exact h

@[simp] theorem tokens_skipGap (fuel : Nat) (s : Lexer) : (skipGap fuel s).tokens = s.tokens := by
  induction fuel generalizing s with
  | zero => rfl
  | succ fuel ih =>
    unfold skipGap
    dsimp only
    split
    · rfl
    · exact ih _

theorem Whole.toNext (h : s.Whole) : s.toNext.Whole := by
  have htokens : s.toNext.tokens = s.tokens := by
    unfold Lexer.toNext
    dsimp only
    rw [tokens_skipGap]
    split <;> rfl
  unfold Whole
  rwa [htokens]

variable (h : s.Whole)

include h

theorem steps_dropKeys (drop : PossibleKey → Bool) : Steps (s.dropKeys drop) :=
  .ite .broken h

theorem steps_saveKey : Steps s.saveKey :=
  .ite (.bind (steps_dropKeys h _) fun _ hs => hs) h

theorem steps_closeAll : Steps s.closeAll :=
  .bind (steps_dropKeys (h.unwind _ _) _) fun _ hs => hs

theorem steps_streamEnd : Steps s.streamEnd :=
  .bind (steps_closeAll h) fun _ hs => hs.push rfl

theorem steps_directive : Steps s.directive :=
  .bind (steps_closeAll h) fun _ hs =>
    .bind (Lexeme.lexes_directive _) fun _ _ => hs.push rfl

theorem steps_documentMark {t : Token} (ht : t.reason? = none) : Steps (s.documentMark t) :=
  .bind (steps_closeAll h) fun _ hs => hs.take 3 ht

theorem steps_flowStart {t : Token} (ht : t.reason? = none) : Steps (s.flowStart t) :=
  .bind (steps_saveKey h) fun _ hs => hs.take 1 ht

theorem steps_flowEnd {t : Token} (ht : t.reason? = none) : Steps (s.flowEnd t) :=
  .bind (steps_dropKeys h _) fun _ hs => hs.take 1 ht

theorem steps_flowEntry : Steps s.flowEntry :=
  .bind (steps_dropKeys h _) fun _ hs => hs.take 1 rfl

theorem steps_blockItem {block item : Token} (hblock : block.reason? = none)
    (hitem : item.reason? = none) (allowKey : Bool) : Steps (s.blockItem block item allowKey) := by
  have hend {s : Lexer} (hs : s.Whole) :
      Steps (do return (← { s with allowKey := allowKey }.dropHere).take 1 item) :=
    .bind (steps_dropKeys (s := { s with allowKey := allowKey }) hs _) fun _ hs => hs.take 1 hitem
  exact .ite (hend h) (.ite (hend (h.indentTo _ _ hblock)) (.bind .broken fun _ hs => hend hs))

theorem steps_value : Steps s.value := by
  unfold value
  split
  · next k hk =>
    have hkey : ({ s with keys := s.keys.filter fun k => k.flow != s.flow, allowKey := false }.pushAt
        k.number .key).Whole :=
      Whole.pushAt (s := { s with keys := _, allowKey := false }) h _ rfl
    dsimp only
    refine Whole.take ?_ 1 rfl
    split
    · exact hkey
    · exact hkey.indentTo _ _ rfl
  · exact steps_blockItem h rfl rfl _

theorem steps_node {scan : Cursor → Result (Token × Cursor)}
    (hscan : ∀ c, Result.Holds (fun p => p.1.reason? = none) IsLexical (scan c)) :
    Steps (s.node scan) :=
  .bind (steps_saveKey h) fun _ hs => .bind (hscan _) fun _ ht => hs.push ht

theorem steps_block (folded : Bool) : Steps (s.block folded) :=
  .bind (steps_dropKeys (s := { s with allowKey := true }) h _) fun _ hs =>
    .bind (Block.lexes_scan _ _ _) fun _ _ => hs.push rfl

theorem steps_plain : Steps s.plain :=
  .bind (steps_saveKey h) fun _ hs => hs.push rfl

omit h in
theorem holds_named {make : String → Token} (hmake : ∀ name, (make name).reason? = none)
    (c : Cursor) : Result.Holds (fun p => p.1.reason? = none) IsLexical (named make c) :=
  .bind (Lexeme.lexes_anchorName c) fun _ _ => hmake _

theorem steps_token : Steps s.token := by
  unfold token
  dsimp only
  refine .ite (steps_streamEnd h) (.ite (steps_directive h) (.ite (steps_documentMark h ?_)
    (.ite (steps_flowStart h rfl) (.ite (steps_flowStart h rfl) (.ite (steps_flowEnd h rfl)
    (.ite (steps_flowEnd h rfl) (.ite (steps_flowEntry h) (.ite (steps_blockItem h rfl rfl _)
    (.ite (steps_blockItem h rfl rfl _) (.ite (steps_value h)
    (.ite (steps_node h (holds_named fun _ => rfl)) (.ite (steps_node h (holds_named fun _ => rfl))
    (.ite (steps_node h fun c => ?_) (.ite (steps_block h _) (.ite (steps_block h _)
    (.ite (steps_node h fun c => ?_) (.ite (steps_node h fun c => ?_)
    (.ite (steps_plain h) .broken))))))))))))))))))
  · split <;> rfl
  · exact .bind (Lexeme.lexes_tag c) fun _ _ => rfl
  · exact .bind (Quoted.lexes_scan _ c) fun _ _ => rfl
  · exact .bind (Quoted.lexes_scan _ c) fun _ _ => rfl

theorem steps_step : Steps s.step :=
  .bind (steps_dropKeys h.toNext _) fun _ hs => steps_token (hs.unwind _ _)

theorem reason_giveUp {known : Nat} {f : Failure} (hf : IsLexical f) :
    ∀ t ∈ s.giveUp known f, ∀ e ∈ t.reason?, IsLexical e := by
  intro t ht e he
  rcases List.mem_append.mp ht with ht | ht
  · rw [h t (List.mem_of_mem_take ht)] at he
    cases he
  · obtain rfl := List.mem_singleton.mp ht
    obtain rfl := Option.some.inj he
    exact hf

theorem reason_run (fuel known : Nat) :
    ∀ t ∈ run fuel known s, ∀ e ∈ t.reason?, IsLexical e := by
  induction fuel generalizing s known with
  | zero => exact reason_giveUp h .broken
  | succ fuel ih =>
    unfold run
    split
    · next f hf => exact reason_giveUp h ((steps_dropKeys h _).failure hf)
    · next s' hs' =>
      have hkept : s'.Whole := (steps_dropKeys h _).answer hs'
      split
      · next f hf => exact reason_giveUp hkept ((steps_step hkept).failure hf)
      · next s'' hs'' =>
        have hstep : s''.Whole := (steps_step hkept).answer hs''
        split
        · intro t ht e he
          rw [hstep t ht] at he
          cases he
        · exact ih hstep _

end Lexer

theorem Token.isLexical_of_broken {cs : List Char} {f : Failure}
    (h : .broken f ∈ Token.ofText cs) : IsLexical f :=
  Lexer.reason_run (s := .start cs) (by simp [Lexer.Whole, Lexer.start]) _ _ _ h f rfl

end DocGrid.Yaml

import DocGrid.Proofs.Results
import DocGrid.Yaml.Token

/-! Why a lexeme of a YAML text cannot be read: the text is malformed, or a number or a code point
in it is out of range. -/

namespace DocGrid.Yaml

/-- A fault of the text, or a number of too many digits, or no code point. -/
inductive IsLexical : Failure → Prop where
  | fault (p : MarkupProblem) : IsLexical (.markup p)
  | badValue : IsLexical .badValue
  | tooLarge : IsLexical .tooLarge

theorem IsLexical.broken : IsLexical (.markup .token) := .fault .token

abbrev Lexes {α : Type} (r : Result α) : Prop :=
  Result.Fails IsLexical r

theorem Cursor.lexes_endLine (c : Cursor) : Lexes c.endLine :=
  .ite (.ok _) (.fault _)

namespace Quoted

theorem lexes_charOf (n : Nat) : Lexes (charOf n) :=
  .ite .tooLarge (.ite .badValue (.ite (.ok _) (.ok _)))

theorem lexes_breaks (fuel : Nat) (c : Cursor) : Lexes (breaks fuel c) := by
  induction fuel generalizing c with
  | zero => exact .ok _
  | succ fuel ih =>
    refine .ite (.fault _) ?_
    dsimp only
    split
    · exact .ok _
    · exact .bind (ih _) fun _ => .ok _

theorem lexes_spaces (c : Cursor) : Lexes (spaces c) := by
  unfold spaces
  dsimp only
  split
  · exact .fault .token
  · split
    · exact .ok _
    · exact .bind (lexes_breaks _ _) fun _ => .ite (.ok _) (.ite (.ok _) (.ok _))

theorem lexes_escape (c : Cursor) : Lexes (escape c) := by
  unfold escape
  split
  · exact .ok _
  · split
    · dsimp only
      split
      · exact .ite (.bind (lexes_charOf _) fun _ => .ok _) (.fault _)
      · exact .fault _
    · split
      · exact .fault _
      · exact lexes_breaks _ _

theorem lexes_word (double : Bool) (fuel : Nat) (c : Cursor) : Lexes (word double fuel c) := by
  induction fuel generalizing c with
  | zero => exact .ok _
  | succ fuel ih =>
    have hgo (plain found : List Char) (c : Cursor) :
        Lexes (word double fuel c >>= fun p => .ok (plain ++ found ++ p.1, p.2)) :=
      .bind (ih _) fun _ => .ok _
    unfold word
    dsimp only
    exact .ite (hgo _ _ _) (.ite (hgo _ _ _) (.ite (.bind (lexes_escape _) fun _ => hgo _ _ _) (.ok _)))

theorem lexes_body (double : Bool) (fuel : Nat) (c : Cursor) : Lexes (body double fuel c) := by
  induction fuel generalizing c with
  | zero => exact .fault _
  | succ fuel ih =>
    exact .ite (.ok _) (.bind (lexes_spaces _) fun _ => .bind (lexes_word _ _ _) fun _ =>
      .bind (ih _) fun _ => .ok _)

theorem lexes_scan (double : Bool) (c : Cursor) : Lexes (scan double c) :=
  .bind (lexes_word _ _ _) fun _ => .bind (lexes_body _ _ _) fun _ => .ok _

end Quoted

namespace Block

theorem lexes_indentation (c : Cursor) : Lexes (indentation c) :=
  .ite (.ite (.fault _) (.ok _)) (.ok _)

theorem lexes_header (c : Cursor) : Lexes (header c) := by
  have hend (h : Header) (c : Cursor) : Lexes
      (if c.atGap then .ok (h, c) else .error (.markup .token) : Result (Header × Cursor)) :=
    .ite (.ok _) (.fault _)
  unfold header
  split
  · exact .bind (lexes_indentation _) fun _ => hend _ _
  · refine .bind (lexes_indentation _) fun _ => ?_
    dsimp only
    split
    · exact hend _ _
    · exact hend _ _

theorem lexes_scan (folded : Bool) (parent : Int) (c : Cursor) :
    Lexes (scan folded parent c) := by
  refine .bind (lexes_header _) fun _ => .bind (Cursor.lexes_endLine _) fun _ => ?_
  dsimp only
  split
  · exact .ite (.ok _) (.ok _)
  · exact .ite (.ok _) (.ok _)

end Block

namespace Lexeme

theorem lexes_name (c : Cursor) : Lexes (name c) :=
  .ite .broken (.ok _)

theorem lexes_anchorName (c : Cursor) : Lexes (anchorName c) :=
  .bind (lexes_name _) fun _ => .ite (.ok _) .broken

theorem lexes_octets (fuel : Nat) (c : Cursor) : Lexes (octets fuel c) := by
  induction fuel generalizing c with
  | zero => exact .ok _
  | succ fuel ih =>
    unfold octets
    refine .ite ?_ (.ok _)
    dsimp only
    split
    · exact .ite (.bind (ih _) fun _ => .ok _) .broken
    · exact .broken

theorem lexes_uriPieces (fuel : Nat) (c : Cursor) : Lexes (uriPieces fuel c) := by
  induction fuel generalizing c with
  | zero => exact .ok _
  | succ fuel ih =>
    refine .ite (.bind (lexes_octets _ _) fun _ => ?_) (.ok _)
    dsimp only
    split
    · exact .bind (ih _) fun _ => .ok _
    · exact .broken

theorem lexes_uri (c : Cursor) : Lexes (uri c) :=
  .bind (lexes_uriPieces _ _) fun _ => .ite .broken (.ok _)

theorem lexes_handle (c : Cursor) : Lexes (handle c) :=
  .ite .broken (.ite (.ok _) (.ite (.ok _) .broken))

theorem lexes_tag (c : Cursor) : Lexes (tag c) := by
  have hend (h : Option String) (s : String) (c : Cursor) : Lexes
      (if c.atGap then .ok (h, s, c) else broken : Result (Option String × String × Cursor)) :=
    .ite (.ok _) .broken
  have hlead (h : String) (c : Cursor) : Lexes (uri c >>= fun p =>
      if p.2.atGap then .ok (some h, p.1, p.2) else broken) :=
    .bind (lexes_uri _) fun _ => hend _ _ _
  exact .ite (.bind (lexes_uri _) fun _ => .ite (hend _ _ _) (.bind .broken fun _ => hend _ _ _))
    (.ite (hend _ _ _) (.ite (.bind (lexes_handle _) fun _ => hlead _ _) (hlead _ _)))

theorem lexes_number (c : Cursor) : Lexes (number c) :=
  .ite .broken (.ite .badValue (.ok _))

theorem lexes_version (c : Cursor) : Lexes (version c) :=
  .bind (lexes_number _) fun _ => .guard .broken fun _ =>
    .bind (lexes_number _) fun _ => .ite (.ok _) .broken

theorem lexes_tagDirective (c : Cursor) : Lexes (tagDirective c) :=
  .bind (lexes_handle _) fun _ => .guard .broken fun _ =>
    .bind (lexes_uri _) fun _ => .ite (.ok _) .broken

theorem lexes_directive (c : Cursor) : Lexes (directive c) := by
  have hend (d : Directive) (c : Cursor) : Lexes (do return (d, ← c.endLine)) :=
    .bind (Cursor.lexes_endLine _) fun _ => .ok _
  refine .bind (lexes_name _) fun _ => .guard .broken fun _ => .ite ?_ (.ite ?_ ?_)
  · exact .bind (lexes_version _) fun _ => hend _ _
  · exact .bind (lexes_tagDirective _) fun _ => hend _ _
  · exact hend _ _

end Lexeme

end DocGrid.Yaml

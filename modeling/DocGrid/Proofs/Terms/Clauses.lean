import DocGrid.Proofs.Terms.Tokens
import DocGrid.Proofs.Text.Split
import DocGrid.Proofs.Text.Trim
import DocGrid.Terms.Clause

/-! The clauses of a clause token: their field, the shape of their arguments, and where the texts
of the arguments come from. -/

namespace DocGrid

structure IsFieldName (field : String) : Prop where
  ne_empty : field ≠ ""
  stripped : Text.stripped field = field
  plain : ∀ c ∈ field.toList, Token.isParenthesis c = false

structure IsPiece (piece : String) : Prop where
  stripped : Text.stripped piece = piece
  noComma : ',' ∉ piece.toList
  noColon : ':' ∉ piece.toList

namespace Clause

theorem isBlank_open : Text.isBlank '(' = false := by decide

theorem isBlank_close : Text.isBlank ')' = false := by decide

theorem shape?_clauseText {name : List Char} (h : ∀ c ∈ name, Token.isParenthesis c = false)
    (inner : List Char) :
    shape? (Token.clauseText name inner) =
      if (Text.trim name).isEmpty then none else some (Text.trim name, inner) := by
  have htrim : Text.trim (Token.clauseText name inner) =
      Text.trimStart name ++ '(' :: (inner ++ [')']) := by
    have ht := Text.trim_append_concat isBlank_open isBlank_close name inner
    simpa [Token.clauseText] using ht
  have hplain : ∀ c ∈ Text.trimStart name, Token.isParenthesis c = false :=
    fun c hc => h c ((Text.trimStart_suffix name).subset hc)
  have hname : Text.trim (Text.trimStart name) = Text.trim name := by
    simp only [Text.trim, Text.trimStart, List.dropWhile_idempotent]
  simp only [shape?, htrim, Token.takeWhile_name hplain, Token.dropWhile_name hplain, hname]
  simp

theorem shape?_eq_some {token field arguments : List Char}
    (h : shape? token = some (field, arguments)) :
    IsFieldName (String.ofList field) ∧ arguments <:+: token := by
  have hcs := List.takeWhile_append_dropWhile (p := fun c => !Token.isParenthesis c)
    (l := Text.trim token)
  have hplain : ∀ c ∈ (Text.trim token).takeWhile (fun c => !Token.isParenthesis c),
      Token.isParenthesis c = false := fun c hc => by simpa using List.mem_takeWhile_imp hc
  simp only [shape?] at h
  generalize (Text.trim token).takeWhile (fun c => !Token.isParenthesis c) = name at h hcs hplain
  generalize (Text.trim token).dropWhile (fun c => !Token.isParenthesis c) = after at h hcs
  split at h
  · next rest =>
    split at h
    · split at h
      · cases h
      · next hne =>
        obtain ⟨rfl, rfl⟩ := Prod.mk.inj (Option.some.inj h)
        refine ⟨⟨?_, ?_, ?_⟩, ?_⟩
        · intro he
          have hnil := congrArg String.toList he
          simp_all
        · rw [Text.stripped_eq_self_iff]
          simp
        · intro c hc
          exact hplain c (Text.mem_of_mem_trim (by simpa using hc))
        · have hrest : rest <:+: Text.trim token :=
            hcs ▸ (List.suffix_append_of_suffix (List.suffix_cons '(' rest)).isInfix
          exact (List.dropLast_prefix rest).isInfix.trans (hrest.trans (Text.infix_trim token))
    · cases h
  · cases h

/-- A match or a pattern has one argument, a comparison has some and no flag. -/
def Shape (c : Clause) : Prop :=
  if c.operation.isComparison then c.args ≠ [] ∧ c.flags = none else ∃ a, c.args = [a]

structure Regular (field : String) (kind : String → Prop) (c : Clause) : Prop where
  field_eq : c.field = field
  args : ∀ a ∈ c.args, kind a
  shape : c.Shape

variable {field : String} {kind : String → Prop}

theorem ofPieces?_regular {name : String} {params : List String} {c : Clause}
    (hne : params ≠ []) (hp : ∀ p ∈ params, kind p) (h : ofPieces? field name params = some c) :
    c.Regular field kind := by
  unfold ofPieces? at h
  cases ho : Operation.ofName? name with
  | none => simp [ho] at h
  | some operation =>
    cases operation with
    | compare op =>
      simp only [ho, Option.some.injEq] at h
      subst h
      exact ⟨rfl, hp, by simp [Shape, Operation.isComparison, hne]⟩
    | _ =>
      obtain ⟨p, more, rfl⟩ := List.exists_cons_of_ne_nil hne
      simp only [ho, Option.some.injEq] at h
      subst h
      exact ⟨rfl, by simpa using hp p (by simp), by simp [Shape, Operation.isComparison]⟩

theorem ofArgument?_regular {pieces : List String} {c : Clause} (hp : ∀ p ∈ pieces, kind p)
    (h : ofArgument? field pieces = some c) : c.Regular field kind := by
  match pieces with
  | [] => cases h
  | [piece] =>
    simp only [ofArgument?] at h
    exact ofPieces?_regular (by simp) hp h
  | name :: p :: params =>
    simp only [ofArgument?] at h
    exact ofPieces?_regular (by simp) (fun x hx => hp x (List.mem_cons_of_mem _ hx)) h

theorem flagged?_regular {previous c : Clause} {pieces : List String}
    (hr : previous.Regular field kind) (h : flagged? (some previous) pieces = some c) :
    c.Regular field kind := by
  unfold flagged? at h
  split at h
  · next d piece hd =>
    obtain rfl := Option.some.inj hd
    split at h
    · next hc =>
      obtain rfl := Option.some.inj h
      have hcomp : previous.operation.isComparison = false := by
        simp only [takesFlag, Bool.and_eq_true, Bool.not_eq_true'] at hc
        exact hc.1.1
      refine ⟨hr.field_eq, hr.args, ?_⟩
      have hs := hr.shape
      simp only [Shape, hcomp, Bool.false_eq_true, if_false] at hs ⊢
      exact hs
    · cases h
  · cases h

theorem ofArguments_regular {previous : Option Clause} {arguments : List (List String)}
    (hprev : ∀ c ∈ previous, c.Regular field kind)
    (ha : ∀ pieces ∈ arguments, ∀ p ∈ pieces, kind p) :
    ∀ c ∈ ofArguments field previous arguments, c.Regular field kind := by
  induction arguments generalizing previous with
  | nil => simpa [ofArguments] using hprev
  | cons pieces rest ih =>
    have hrest : ∀ ps ∈ rest, ∀ p ∈ ps, kind p := fun ps hps => ha ps (List.mem_cons_of_mem _ hps)
    intro c hc
    simp only [ofArguments] at hc
    split at hc
    · next d hd =>
      rcases List.mem_cons.mp hc with rfl | hc
      · cases previous with
        | none => cases hd
        | some previous => exact flagged?_regular (hprev previous rfl) hd
      · exact ih (by simp) hrest c hc
    · rcases List.mem_append.mp hc with hc | hc
      · exact hprev c (by simpa using hc)
      · exact ih (fun d hd => ofArgument?_regular (ha pieces (by simp)) hd) hrest c hc

theorem mem_pieces {argument : List Char} (hcomma : ',' ∉ argument) {p : String}
    (h : p ∈ pieces argument) : IsPiece p ∧ p.toList <:+: argument := by
  obtain ⟨piece, hp, rfl⟩ := List.mem_map.mp h
  have hin : Text.trim piece <:+: argument :=
    (Text.infix_trim piece).trans (Text.infix_of_mem_split hp)
  refine ⟨⟨?_, ?_, ?_⟩, by simpa using hin⟩
  · rw [Text.stripped_eq_self_iff]
    simp
  · simpa using fun hc => hcomma (hin.subset hc)
  · simpa using fun hc => Text.not_mem_of_mem_split hp (Text.mem_of_mem_trim hc)

/-- The clauses of a token are all on its field, and their arguments are pieces of its
argument list. -/
theorem ofToken_regular {token name arguments : List Char}
    (h : shape? token = some (name, arguments)) :
    ∀ c ∈ ofToken token,
      c.Regular (String.ofList name) (fun a => IsPiece a ∧ a.toList <:+: arguments) := by
  simp only [ofToken, h]
  apply ofArguments_regular (by simp)
  intro ps hps p hp
  obtain ⟨argument, harg, rfl⟩ := List.mem_map.mp hps
  obtain ⟨hpiece, hin⟩ := mem_pieces (Text.not_mem_of_mem_split harg) hp
  exact ⟨hpiece, hin.trans (Text.infix_of_mem_split harg)⟩

end Clause

end DocGrid

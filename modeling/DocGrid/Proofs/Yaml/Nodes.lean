import DocGrid.Proofs.Yaml.Tokens
import DocGrid.Yaml.Node

/-! A text whose tokens do not make a document is malformed, unless a token says otherwise. -/

namespace DocGrid.Yaml

namespace NodeReader

/-- Reading goes on inside of the tokens, and fails because of their arrangement or because of one
of them. -/
def Reads (tokens : List Token) {α : Type} (m : NodeReader α) : Prop :=
  ∀ r : NodeState, r.tokens ⊆ tokens →
    Result.Holds (fun p => p.2.tokens ⊆ tokens)
      (fun e => (∃ p, e = .markup p) ∨ .broken e ∈ tokens) (m.run r)

variable {tokens : List Token} {α β : Type}

namespace Reads

theorem pure (a : α) : Reads tokens (pure a) := fun _ hr => hr

theorem fail (p : MarkupProblem) : Reads tokens (NodeReader.fail p : NodeReader α) :=
  fun _ _ => .inl ⟨p, rfl⟩

theorem bind {m : NodeReader α} {f : α → NodeReader β} (h : Reads tokens m)
    (hf : ∀ a, Reads tokens (f a)) : Reads tokens (m >>= f) :=
  fun r hr => Result.Holds.bind (h r hr) fun p hp => hf p.1 p.2 hp

theorem get : Reads tokens get := fun _ hr => hr

theorem modify {f : NodeState → NodeState} (hf : ∀ r, (f r).tokens = r.tokens) :
    Reads tokens (modify f) := by
  intro r hr
  change (f r).tokens ⊆ tokens
  rwa [hf]

theorem ite {c : Prop} [Decidable c] {x y : NodeReader α} (hx : Reads tokens x)
    (hy : Reads tokens y) : Reads tokens (if c then x else y) := by
  split
  · exact hx
  · exact hy

end Reads

theorem Reads.guard {c : Prop} [Decidable c] {p : MarkupProblem} {f : Unit → NodeReader α}
    (hf : ∀ a, Reads tokens (f a)) :
    Reads tokens (if c then NodeReader.fail p >>= f else f ()) :=
  .ite (.bind (.fail p) hf) (hf ())

theorem Reads.failure {m : NodeReader α} (h : Reads tokens m) {anchors : List (String × Node)}
    {handles : List (String × String)} {e : Failure}
    (he : m.run ⟨tokens, anchors, handles⟩ = .error e) :
    (∃ p, e = .markup p) ∨ .broken e ∈ tokens :=
  Result.Holds.failure (h ⟨tokens, anchors, handles⟩ (List.Subset.refl tokens)) he

theorem reads_peek : Reads tokens peek := by
  rintro ⟨_ | ⟨t, ts⟩, anchors, handles⟩ hr
  · exact hr
  · cases t with
    | broken f => exact .inr (hr List.mem_cons_self)
    | _ => exact hr

theorem reads_skip : Reads tokens skip :=
  fun _ hr _ ht => hr (List.mem_of_mem_tail ht)

/-- What comes after the next token. -/
theorem Reads.after {f : Unit → NodeReader α} (hf : ∀ a, Reads tokens (f a)) :
    Reads tokens (skip >>= f) :=
  .bind reads_skip hf

theorem reads_properties : Reads tokens properties := by
  refine .bind reads_peek fun t => ?_
  split
  · refine .after fun _ => .bind reads_peek fun t => ?_
    split
    · exact .after fun _ => .pure _
    · exact .pure _
  · refine .after fun _ => .bind reads_peek fun t => ?_
    split
    · exact .after fun _ => .pure _
    · exact .pure _
  · exact .pure _

theorem reads_tagText (p : Properties) : Reads tokens (tagText p) := by
  unfold tagText
  split
  · exact .pure _
  · exact .pure _
  · refine .bind .get fun r => ?_
    split
    · exact .pure _
    · exact .fail _

theorem reads_claim (anchor : Option String) : Reads tokens (claim anchor) := by
  unfold claim
  split
  · exact .bind .get fun _ => .ite (.fail _) (.pure _)
  · exact .pure _

theorem reads_remember (anchor : Option String) (n : Node) : Reads tokens (remember anchor n) := by
  unfold remember
  split
  · exact .modify fun _ => rfl
  · exact .pure _

theorem reads_aliased (name : String) : Reads tokens (aliased name) := by
  refine .bind .get fun r => ?_
  split
  · exact .pure _
  · exact .fail _

theorem reads_leaf (anchor : Option String) (n : Node) : Reads tokens (do
    claim anchor
    remember anchor n
    return n) :=
  .bind (reads_claim _) fun _ => .bind (reads_remember _ _) fun _ => .pure _

theorem reads_bare (p : Properties) (tag : Option String) : Reads tokens (bare p tag) := by
  exact .guard fun _ => reads_leaf _ _

theorem reads_collection {make : List α → Node} {anchor : Option String}
    {parts : NodeReader (List α)} (h : Reads tokens parts) :
    Reads tokens (collection make anchor parts) :=
  .bind (reads_claim _) fun _ => .bind (reads_remember _ _) fun _ => .bind h fun _ =>
    .bind (reads_remember _ _) fun _ => .pure _

-- By induction on the fuel, which all functions of the grammar share.
mutual

theorem reads_node (block indentless : Bool) : ∀ fuel, Reads tokens (node block indentless fuel)
  | 0 => .fail _
  | fuel + 1 => by
    unfold node
    refine .bind reads_peek fun t => ?_
    split
    · exact .after fun _ => reads_aliased _
    · refine .bind reads_properties fun p => .bind (reads_tagText p) fun tag =>
        .bind reads_peek fun t => ?_
      split
      · exact .after fun _ => reads_leaf _ _
      · exact .after fun _ => reads_collection (.bind (reads_flowParts _ _ fuel) fun _ => .pure _)
      · exact .after fun _ => reads_collection (.bind (reads_flowParts _ _ fuel) fun _ => .pure _)
      · exact .ite (.after fun _ => reads_collection (reads_blockItems fuel)) (reads_bare _ _)
      · exact .ite (.after fun _ => reads_collection (reads_blockEntries fuel)) (reads_bare _ _)
      · exact .ite (reads_collection (reads_indentlessItems fuel)) (reads_bare _ _)
      · exact reads_bare _ _

theorem reads_nodeBefore (ends : Token → Bool) (block indentless : Bool) :
    ∀ fuel, Reads tokens (nodeBefore ends block indentless fuel)
  | 0 => .fail _
  | fuel + 1 => by
    unfold nodeBefore
    exact .bind reads_peek fun _ => .ite (.pure _) (reads_node _ _ fuel)

theorem reads_valueBefore (ends : Token → Bool) (block indentless : Bool) :
    ∀ fuel, Reads tokens (valueBefore ends block indentless fuel)
  | 0 => .fail _
  | fuel + 1 => by
    unfold valueBefore
    refine .bind reads_peek fun t => ?_
    split
    · exact .after fun _ => reads_nodeBefore _ _ _ fuel
    · exact .pure _

theorem reads_blockItems : ∀ fuel, Reads tokens (blockItems fuel)
  | 0 => .fail _
  | fuel + 1 => by
    unfold blockItems
    refine .bind reads_peek fun t => ?_
    split
    · exact .after fun _ => .bind (reads_nodeBefore _ _ _ fuel) fun _ =>
        .bind (reads_blockItems fuel) fun _ => .pure _
    · exact .after fun _ => .pure _
    · exact .fail _

theorem reads_indentlessItems : ∀ fuel, Reads tokens (indentlessItems fuel)
  | 0 => .fail _
  | fuel + 1 => by
    unfold indentlessItems
    refine .bind reads_peek fun t => ?_
    split
    · exact .after fun _ => .bind (reads_nodeBefore _ _ _ fuel) fun _ =>
        .bind (reads_indentlessItems fuel) fun _ => .pure _
    · exact .pure _

theorem reads_blockEntries : ∀ fuel, Reads tokens (blockEntries fuel)
  | 0 => .fail _
  | fuel + 1 => by
    unfold blockEntries
    refine .bind reads_peek fun t => ?_
    split
    · exact .after fun _ => .bind (reads_nodeBefore _ _ _ fuel) fun _ =>
        .bind (reads_valueBefore _ _ _ fuel) fun _ => .bind (reads_blockEntries fuel) fun _ =>
          .pure _
    · exact .after fun _ => .pure _
    · exact .fail _

theorem reads_flowParts (isEnd : Token → Bool) (first : Bool) :
    ∀ fuel, Reads tokens (flowParts isEnd first fuel)
  | 0 => .fail _
  | fuel + 1 => by
    unfold flowParts
    extract_lets ends rest
    have hrest (a : Unit) : Reads tokens (rest a) := by
      refine .bind reads_peek fun t => .ite (.after fun _ => .pure _) ?_
      have hmore (part : Node × Option Node) : Reads tokens (do
          return part :: (← flowParts isEnd false fuel)) :=
        .bind (reads_flowParts _ _ fuel) fun _ => .pure _
      split
      · exact .after fun _ => .bind (reads_nodeBefore _ _ _ fuel) fun _ =>
          .bind (reads_valueBefore _ _ _ fuel) fun _ => hmore _
      · exact .bind (reads_node _ _ fuel) fun _ => hmore _
    exact .ite (.bind reads_peek fun t => .ite (.after hrest) (.guard hrest)) (hrest ())

end

theorem reads_directives (fuel : Nat) (versioned : Bool) (handles : List (String × String)) :
    Reads tokens (directives fuel versioned handles) := by
  induction fuel generalizing versioned handles with
  | zero => exact .fail _
  | succ fuel ih =>
    unfold directives
    refine .bind reads_peek fun t => ?_
    split
    · exact .after fun _ => .guard fun _ => ih _ _
    · exact .after fun _ => .guard fun _ => ih _ _
    · exact .after fun _ => ih _ _
    · exact .modify fun _ => rfl

theorem reads_skipDocumentEnds (fuel : Nat) : Reads tokens (skipDocumentEnds fuel) := by
  induction fuel with
  | zero => exact .pure _
  | succ fuel ih =>
    unfold skipDocumentEnds
    refine .bind reads_peek fun t => ?_
    split
    · exact .after fun _ => ih
    · exact .pure _

theorem reads_documentStart (fuel : Nat) : Reads tokens (documentStart fuel) := by
  refine .bind (reads_directives _ _ _) fun _ => .bind reads_peek fun t => ?_
  split
  · exact reads_skip
  · exact .fail _

theorem reads_explicitDocument (fuel : Nat) : Reads tokens (explicitDocument fuel) :=
  .bind (reads_documentStart _) fun _ => .bind reads_peek fun _ => .ite (.pure _) (reads_node _ _ _)

theorem reads_document (fuel : Nat) : Reads tokens (document fuel) := by
  refine .bind reads_peek fun t => ?_
  split
  · exact .pure _
  · extract_lets explicit rest
    have hrest (n : Node) : Reads tokens (rest n) := by
      refine .bind (reads_skipDocumentEnds _) fun _ => .bind reads_peek fun t => ?_
      split
      · exact .pure _
      · exact .bind (reads_documentStart _) fun _ => .fail _
    exact .ite (.bind (reads_explicitDocument _) hrest) (.bind (reads_node _ _ _) hrest)

end NodeReader

theorem Node.failure_of_ofText {cs : List Char} {e : Failure} (h : ofText cs = .error e) :
    (∃ p, e = .markup p) ∨ .broken e ∈ Token.ofText cs := by
  unfold ofText at h
  split at h
  · rcases Result.error_of_bind h with h | ⟨found, -, h⟩
    · exact (NodeReader.reads_document _).failure h
    · cases h
  · exact .inl ⟨_, (Except.error.inj h).symm⟩

end DocGrid.Yaml

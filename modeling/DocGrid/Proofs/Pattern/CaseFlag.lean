import DocGrid.Pattern.Search
import DocGrid.Proofs.Pattern.Pieces

/-! Reading a pattern with the flag for any case set from outside. The reading takes the same steps
as the one without the flag, so that it accepts the same texts, and what it reads finds the same
places as a search that ignores case. -/

namespace DocGrid.Pattern

def CharTest.ignoringCase (t : CharTest) : CharTest :=
  { t with ignoreCase := some (t.ignoreCase.getD true) }

def Flags.ignoringCase (f : Flags) : Flags :=
  { f with ignoreCase := some (f.ignoreCase.getD true) }

/-- The node in which case does not count wherever the pattern leaves that open. -/
def Node.ignoringCase : Node → Node
  | empty => empty
  | seq a b => seq a.ignoringCase b.ignoringCase
  | alternative a b => alternative a.ignoringCase b.ignoringCase
  | char test => char test.ignoringCase
  | anchor a => anchor a
  | group number body => group number body.ignoringCase
  | atomic body => atomic body.ignoringCase
  | ahead negated body => ahead negated body.ignoringCase
  | behind negated body => behind negated body.ignoringCase
  | loop greed least most body => loop greed least most body.ignoringCase
  | reference number width ignoreCase ascii =>
    reference number width (some (ignoreCase.getD true)) ascii
  | conditional number yes no => conditional number yes.ignoringCase no.ignoringCase

def Reader.ignoringCase (r : Reader) : Reader :=
  { r with whole := 'i' :: r.whole }

/-- The whole of a pattern, with some flags set from outside. -/
def patternWith (whole : List Char) (fuel : Nat) : Parse Node := do
  let n ← alternatives (.ofWhole whole) true fuel
  let r ← get
  if r.whole.contains 'a' && r.whole.contains 'u' then throw .flagConflict
  else if !r.rest.isEmpty then Parse.fail
  else if r.asked.any (r.widths.length < ·) then Parse.fail
  else if !n.looksFixed then Parse.fail
  else if r.whole.contains 't' && n.hasLoop then Parse.fail
  else return n

def Node.ofTextWith? (whole : List Char) (cs : List Char) : Except Problem Node :=
  let ts := tokens cs
  if ts = [.broken] then .error .malformed
  else ((patternWith whole (4 * cs.length + 8)).run ⟨ts, [], [], none, [], whole⟩).map (·.1)

@[simp] theorem Node.ofTextWith?_nil (cs : List Char) : ofTextWith? [] cs = ofText? cs := rfl

/-! What the flag leaves as it is. -/

namespace Node

@[simp] theorem rawWidth_ignoringCase (n : Node) : n.ignoringCase.rawWidth = n.rawWidth := by
  induction n with
  | seq a b iha ihb => simp only [ignoringCase, rawWidth, iha, ihb]
  | alternative a b iha ihb => simp only [ignoringCase, rawWidth, iha, ihb]
  | group number body ih => simp only [ignoringCase, rawWidth, ih]
  | atomic body ih => simp only [ignoringCase, rawWidth, ih]
  | loop greed least most body ih => simp only [ignoringCase, rawWidth, ih]
  | conditional number yes no ihy ihn => simp only [ignoringCase, rawWidth, ihy, ihn]
  | _ => rfl

@[simp] theorem width_ignoringCase (n : Node) : n.ignoringCase.width = n.width := by
  simp [width]

@[simp] theorem looksFixed_ignoringCase (n : Node) : n.ignoringCase.looksFixed = n.looksFixed := by
  induction n with
  | seq a b iha ihb => simp only [ignoringCase, looksFixed, iha, ihb]
  | alternative a b iha ihb => simp only [ignoringCase, looksFixed, iha, ihb]
  | behind negated body ih => simp [ignoringCase, looksFixed, ih]
  | conditional number yes no ihy ihn => simp only [ignoringCase, looksFixed, ihy, ihn]
  | _ => simp_all only [ignoringCase, looksFixed]

@[simp] theorem hasLoop_ignoringCase (n : Node) : n.ignoringCase.hasLoop = n.hasLoop := by
  induction n with
  | seq a b iha ihb => simp only [ignoringCase, hasLoop, iha, ihb]
  | alternative a b iha ihb => simp only [ignoringCase, hasLoop, iha, ihb]
  | conditional number yes no ihy ihn => simp only [ignoringCase, hasLoop, ihy, ihn]
  | _ => simp_all only [ignoringCase, hasLoop]

@[simp] theorem isAnchor_ignoringCase (n : Node) : n.ignoringCase.isAnchor = n.isAnchor := by
  cases n <;> rfl

@[simp] theorem isLoop_ignoringCase (n : Node) : n.ignoringCase.isLoop = n.isLoop := by
  cases n <;> rfl

@[simp] theorem isEmpty_ignoringCase (n : Node) :
    (n.ignoringCase matches .empty) = (n matches .empty) := by
  cases n <;> rfl

end Node

/-- The pattern matches where a search that ignores case lets it match. -/
@[simp] theorem Node.run_ignoringCase (n : Node) (ignoring : Bool) :
    n.ignoringCase.run ignoring = n.run true := by
  induction n with
  | empty => rfl
  | seq a b iha ihb =>
    funext k p
    simp only [ignoringCase, run, iha, ihb]
  | alternative a b iha ihb =>
    funext k p
    simp only [ignoringCase, run, iha, ihb]
  | char test => rfl
  | anchor a => rfl
  | group number body ih =>
    funext k p
    cases number <;> simp only [ignoringCase, run, ih]
  | atomic body ih =>
    funext k p
    simp only [ignoringCase, run, ih]
  | ahead negated body ih =>
    funext k p
    simp only [ignoringCase, run, ih]
  | behind negated body ih =>
    funext k p
    simp [ignoringCase, run, ih]
  | loop greed least most body ih =>
    funext k p
    cases greed <;> simp only [ignoringCase, run, ih]
  | reference number width ignoreCase ascii => rfl
  | conditional number yes no ihy ihn =>
    funext k p
    simp only [ignoringCase, run, ihy, ihn]

theorem Node.searchFrom_ignoringCase (n : Node) (ignoring : Bool) (before cs : List Char) :
    n.ignoringCase.searchFrom ignoring before cs = n.searchFrom true before cs := by
  induction cs generalizing before with
  | nil => simp [searchFrom]
  | cons c rest ih => simp [searchFrom, ih]

theorem Node.search_ignoringCase (n : Node) (ignoring : Bool) (cs : List Char) :
    n.ignoringCase.search ignoring cs = n.search true cs :=
  n.searchFrom_ignoringCase ignoring [] cs

theorem Flags.ofWhole_ignoringCase (whole : List Char) :
    Flags.ofWhole ('i' :: whole) = (Flags.ofWhole whole).ignoringCase := by
  by_cases h : 'i' ∈ whole <;> simp [ofWhole, apply, ignoringCase, h]

@[simp] theorem Flags.apply_ignoringCase (f : Flags) (change : FlagChange) :
    f.ignoringCase.apply change = (f.apply change).ignoringCase := by
  by_cases hoff : 'i' ∈ change.off <;> by_cases hon : 'i' ∈ change.on <;>
    simp [apply, ignoringCase, hoff, hon]

/-! Readings that go along with each other: the second one has the flag, and does with it what the
first one does without. -/

section Rules

variable {α β γ δ : Type}

def Follows (g : α → β) (m : Parse α) (m' : Parse β) : Prop :=
  ∀ r, m' r.ignoringCase = (m r).map fun p => (g p.1, p.2.ignoringCase)

/-- A reading to which the flag makes no difference. -/
def Blind (m : Parse α) : Prop :=
  ∀ r, m r.ignoringCase = (m r).map fun p => (p.1, p.2.ignoringCase)

theorem Blind.follows {m : Parse α} (h : Blind m) : Follows id m m := h

theorem follows_pure (g : α → β) (a : α) : Follows g (pure a) (pure (g a)) :=
  fun _ => rfl

theorem follows_throw (g : α → β) (problem : Problem) :
    Follows g (throw problem) (throw problem) :=
  fun _ => rfl

theorem follows_fail (g : α → β) : Follows g Parse.fail Parse.fail :=
  fun _ => rfl

theorem Follows.bind {g : α → β} {h : γ → δ} {m : Parse α} {m' : Parse β} {k : α → Parse γ}
    {k' : β → Parse δ} (hm : Follows g m m') (hk : ∀ a, Follows h (k a) (k' (g a))) :
    Follows h (m >>= k) (m' >>= k') := by
  intro r
  rw [run_bind, run_bind, hm r]
  cases m r with
  | error problem => rfl
  | ok p => exact hk p.1 p.2

theorem Blind.bind {h : γ → δ} {m : Parse α} {k : α → Parse γ} {k' : α → Parse δ} (hm : Blind m)
    (hk : ∀ a, Follows h (k a) (k' a)) : Follows h (m >>= k) (m >>= k') :=
  hm.follows.bind hk

theorem follows_get {h : γ → δ} {k : Reader → Parse γ} {k' : Reader → Parse δ}
    (hk : ∀ r, Follows h (k r) (k' r.ignoringCase)) : Follows h (get >>= k) (get >>= k') :=
  fun r => hk r r

theorem Follows.ite {g : α → β} {c : Prop} [Decidable c] {m n : Parse α} {m' n' : Parse β}
    (hm : c → Follows g m m') (hn : ¬c → Follows g n n') :
    Follows g (if c then m else n) (if c then m' else n') := by
  by_cases h : c
  · simpa [h] using hm h
  · simpa [h] using hn h

theorem blind_pure (a : α) : Blind (pure a : Parse α) :=
  fun _ => rfl

theorem blind_fail : Blind (Parse.fail : Parse α) :=
  fun _ => rfl

theorem Blind.then {m : Parse α} {k : α → Parse β} (hm : Blind m) (hk : ∀ a, Blind (k a)) :
    Blind (m >>= k) :=
  hm.bind fun a => (hk a).follows

theorem Blind.ite {c : Prop} [Decidable c] {m n : Parse α} (hm : c → Blind m)
    (hn : ¬c → Blind n) : Blind (if c then m else n) :=
  Follows.ite (g := id) hm hn

theorem Blind.map {m : Parse α} (hm : Blind m) (f : α → β) : Blind (f <$> m) := by
  rw [← bind_pure_comp]
  exact hm.then fun a => blind_pure (f a)

theorem Blind.discard {m : Parse α} (hm : Blind m) : Blind (discard m : Parse PUnit) :=
  hm.map _

/-- What is asked of the reader does not concern the flags. -/
theorem blind_get {k : Reader → Parse α} (hk : ∀ r, k r.ignoringCase = k r)
    (h : ∀ r, Blind (k r)) : Blind (get >>= k) :=
  follows_get (h := id) fun r => hk r ▸ (h r).follows

theorem blind_modify {f : Reader → Reader}
    (h : ∀ r, f r.ignoringCase = (f r).ignoringCase) : Blind (modify f : Parse PUnit) := by
  intro r
  change Except.ok ((), f r.ignoringCase) = Except.ok ((), (f r).ignoringCase)
  rw [h]

theorem follows_set (r : Reader) :
    Follows id (set r : Parse PUnit) (set r.ignoringCase : Parse PUnit) :=
  fun _ => rfl

end Rules

/-! Readings of tokens, and of the pieces that have no flags of their own. -/

theorem blind_peek : Blind Parse.peek :=
  blind_get (fun _ => rfl) fun _ => blind_pure _

theorem blind_next : Blind Parse.next := by
  refine follows_get (h := id) fun r => ?_
  obtain ⟨rest, widths, names, hidden, asked, whole⟩ := r
  cases rest with
  | nil => exact follows_pure id none
  | cons t rest =>
    refine .ite (fun _ => follows_fail id) fun _ => ?_
    exact (follows_set ⟨rest, widths, names, hidden, asked, whole⟩).bind fun _ =>
      follows_pure id (some t)

theorem blind_accept (c : Char) : Blind (Parse.accept c) :=
  blind_peek.then fun _ => .ite
    (fun _ => blind_next.discard.then fun _ => blind_pure _) fun _ => blind_pure _

theorem blind_expect (c : Char) : Blind (Parse.expect c) :=
  (blind_accept c).then fun _ => .ite (fun _ => blind_fail) fun _ => blind_pure _

theorem blind_takeUpTo (test : Char → Bool) (count : Nat) :
    Blind (Parse.takeUpTo test count) := by
  induction count with
  | zero => exact blind_pure _
  | succ count ih =>
    refine blind_peek.then fun t? => ?_
    split
    · refine .ite (fun _ => ?_) fun _ => blind_pure _
      exact blind_next.discard.then fun _ => ih.then fun _ => blind_pure _
    · exact blind_pure _

theorem blind_takeName (close : Char) (fuel : Nat) (found : List Char) :
    Blind (Parse.takeName close fuel found) := by
  induction fuel generalizing found with
  | zero => exact blind_fail
  | succ fuel ih =>
    refine blind_next.then fun t? => ?_
    cases t? with
    | none => exact blind_fail
    | some t =>
      exact .ite (fun _ => .ite (fun _ => blind_fail) fun _ => blind_pure _) fun _ => ih _

theorem blind_skipPast (stop : Char) (mustStop : Bool) (fuel : Nat) :
    Blind (Parse.skipPast stop mustStop fuel) := by
  induction fuel with
  | zero => exact blind_fail
  | succ fuel ih =>
    refine blind_next.then fun t? => ?_
    cases t? with
    | none => exact .ite (fun _ => blind_fail) fun _ => blind_pure _
    | some t => exact .ite (fun _ => ih) fun _ => blind_pure _

theorem blind_hexCode (count : Nat) : Blind (hexCode count) :=
  (blind_takeUpTo _ _).then fun _ => .ite (fun _ => blind_pure _) fun _ => blind_fail

theorem blind_octalCode (first : Char) : Blind (octalCode first) :=
  (blind_takeUpTo _ _).then fun _ => .ite (fun _ => blind_pure _) fun _ => blind_fail

theorem blind_namedCode : Blind namedCode := by
  refine (blind_expect _).then fun _ => blind_get (fun _ => rfl) fun _ => ?_
  refine (blind_takeName _ _ _).then fun name => ?_
  split
  · exact blind_pure _
  · exact blind_fail

theorem blind_escapedCode (c : Char) : Blind (escapedCode c) := by
  unfold escapedCode
  split
  · exact blind_hexCode 2
  · exact blind_hexCode 4
  · exact blind_hexCode 8
  · exact blind_namedCode
  · exact .ite (fun _ => blind_fail) fun _ => blind_pure _

theorem blind_memberOfToken (t : Token) : Blind (memberOfToken t) := by
  cases t with
  | plain c => exact blind_pure _
  | broken => exact blind_fail
  | escaped c =>
    change Blind (memberOfEscape c)
    unfold memberOfEscape
    split
    · exact blind_pure _
    · exact blind_pure _
    · exact Blind.map (.ite (fun _ => blind_octalCode c) fun _ => blind_escapedCode c) _

theorem blind_setMembers (fuel : Nat) (found : List Member) : Blind (setMembers fuel found) := by
  induction fuel generalizing found with
  | zero => exact blind_fail
  | succ fuel ih =>
    refine blind_next.then fun t? => ?_
    cases t? with
    | none => exact blind_fail
    | some t =>
      refine .ite (fun _ => blind_pure _) fun _ => ?_
      refine (blind_memberOfToken t).then fun low => (blind_accept '-').then fun _ => ?_
      refine .ite (fun _ => blind_next.then fun t'? => ?_) fun _ => ih _
      cases t'? with
      | none => exact blind_fail
      | some t' =>
        refine .ite (fun _ => blind_pure _) fun _ => (blind_memberOfToken t').then fun high => ?_
        split
        · exact .ite (fun _ => blind_fail) fun _ => ih _
        · exact blind_fail

/-- Where the braces are no repeat, the reader goes back, and the flag with it. -/
theorem blind_bounds : Blind bounds? := by
  refine follows_get (h := id) fun here => blind_peek.bind fun _ => ?_
  refine .ite (fun _ => follows_pure id _) fun _ => ?_
  refine (blind_takeUpTo _ _).bind fun low => (blind_accept ',').bind fun comma => ?_
  refine .ite (fun _ => (blind_takeUpTo _ _).bind fun high => ?_) fun _ =>
    (blind_pure low).bind fun high => ?_
  all_goals
    refine (blind_accept '}').bind fun _ => .ite (fun _ => Blind.follows ?_) fun _ =>
      (follows_set here).bind fun _ => follows_pure id _
    refine .ite (fun _ => fun _ => rfl) fun _ => .ite (fun _ => fun _ => rfl) fun _ => ?_
    refine .ite (fun _ => blind_pure _) fun _ => ?_
    refine .ite (fun _ => fun _ => rfl) fun _ => .ite (fun _ => fun _ => rfl) fun _ => ?_
    exact .ite (fun _ => fun _ => rfl) fun _ => blind_pure _

theorem blind_repeat (c : Char) : Blind (repeat? c) := by
  unfold repeat?
  split
  · exact blind_pure _
  · exact blind_pure _
  · exact blind_pure _
  · exact blind_bounds
  · exact blind_pure _

theorem blind_greed : Blind greed :=
  (blind_accept '?').then fun _ => .ite (fun _ => blind_pure _) fun _ =>
    (blind_accept '+').then fun _ => .ite (fun _ => blind_pure _) fun _ => blind_pure _

theorem blind_checkReference (number : Nat) : Blind (checkReference number) := by
  refine blind_get (fun _ => rfl) fun r => ?_
  split
  · exact .ite (fun _ => blind_fail) fun _ => blind_pure _
  · exact blind_fail

theorem blind_checkCondition (number : Nat) : Blind (checkCondition number) :=
  blind_get (fun _ => rfl) fun _ =>
    .ite (fun _ => (blind_checkReference number).discard) fun _ => blind_pure _

theorem blind_groupName (close : Char) : Blind (groupName close) :=
  blind_get (fun _ => rfl) fun _ => (blind_takeName _ _ _).then fun _ =>
    .ite (fun _ => blind_pure _) fun _ => blind_fail

theorem blind_numberOfName (name : String) : Blind (numberOfName name) := by
  refine blind_get (fun _ => rfl) fun r => ?_
  split
  · exact blind_pure _
  · exact blind_fail

theorem blind_openGroup (name : Option String) : Blind (openGroup name) := by
  refine follows_get (h := id) fun r => ?_
  cases name with
  | none =>
    exact (follows_set { r with widths := r.widths ++ [none] }).bind fun _ => follows_pure id _
  | some s =>
    refine .ite (fun _ => fun _ => rfl) fun _ => ?_
    exact (follows_set { r with
      widths := r.widths ++ [none], names := (s, r.widths.length + 1) :: r.names }).bind
        fun _ => follows_pure id _

theorem blind_closeGroup (number : Nat) (width : Width) : Blind (closeGroup number width) :=
  blind_modify fun _ => rfl

theorem blind_conditionGroup : Blind conditionGroup := by
  refine blind_get (fun _ => rfl) fun _ => (blind_takeName _ _ _).then fun name => ?_
  refine .ite (fun _ => blind_numberOfName _) fun _ => ?_
  split
  · refine .ite (fun _ => blind_fail) fun _ => (blind_modify fun _ => ?_).then fun _ => blind_pure _
    rfl
  · exact blind_fail

theorem blind_flagLetters (close : List Char) (allowed : Char → Bool) (fuel : Nat) (c : Char)
    (found : List Char) : Blind (flagLetters close allowed fuel c found) := by
  induction fuel generalizing c found with
  | zero => exact blind_fail
  | succ fuel ih =>
    refine .ite (fun _ => blind_fail) fun _ => blind_next.then fun t? => ?_
    split
    · exact .ite (fun _ => blind_pure _) fun _ => ih _ _
    · exact blind_fail

theorem blind_flagChange (c : Char) : Blind (flagChange? c) := by
  refine blind_get (fun _ => rfl) fun r => ?_
  refine .ite (fun _ => (blind_pure _).then fun flags => ?_) fun _ =>
    (blind_flagLetters _ _ _ _ _).then fun flags => ?_
  all_goals
    refine .ite (fun _ => blind_fail) fun _ => .ite (fun _ => ?_) fun _ => ?_
    · refine (blind_modify fun _ => ?_).then fun _ => blind_pure _
      rfl
    refine .ite (fun _ => blind_fail) fun _ => .ite (fun _ => ?_) fun _ => ?_
    · exact (blind_pure _).then fun _ => .ite (fun _ => blind_fail) fun _ => blind_pure _
    refine blind_next.then fun t? => ?_
    split
    · exact ((blind_flagLetters _ _ _ _ _).map _).then fun _ =>
        .ite (fun _ => blind_fail) fun _ => blind_pure _
    · exact fun _ => rfl

theorem blind_opening : Blind opening := by
  refine (blind_accept '?').then fun _ => .ite (fun _ => blind_pure _) fun _ => ?_
  refine blind_next.then fun t? => ?_
  split
  · next c =>
    refine .ite (fun _ => ?_) fun _ => ?_
    · refine (blind_accept '<').then fun _ => .ite (fun _ => ?_) fun _ => ?_
      · exact (blind_groupName _).then fun _ => blind_pure _
      · refine (blind_accept '=').then fun _ => .ite (fun _ => ?_) fun _ => blind_fail
        exact (blind_groupName _).then fun _ => (blind_numberOfName _).then fun _ => blind_pure _
    refine .ite (fun _ => blind_pure _) fun _ => .ite (fun _ => ?_) fun _ => ?_
    · exact blind_get (fun _ => rfl) fun _ => (blind_skipPast _ _ _).then fun _ => blind_pure _
    refine .ite (fun _ => blind_pure _) fun _ => .ite (fun _ => blind_pure _) fun _ => ?_
    refine .ite (fun _ => ?_) fun _ => ?_
    · exact (blind_accept '=').then fun _ => .ite (fun _ => blind_pure _) fun _ =>
        (blind_accept '!').then fun _ => .ite (fun _ => blind_pure _) fun _ => blind_fail
    refine .ite (fun _ => blind_conditionGroup.then fun _ => blind_pure _) fun _ => ?_
    refine .ite (fun _ => blind_pure _) fun _ => .ite (fun _ => ?_) fun _ => blind_fail
    refine (blind_flagChange c).then fun change => ?_
    split
    · exact blind_pure _
    · exact blind_pure _
  · exact blind_fail

/-! The nodes: their readings take flags, and yield the nodes in which case does not count. -/

theorem follows_charNode (f : Flags) (negated : Bool) (members : List Member) :
    Follows Node.ignoringCase (pure (charNode f negated members))
      (pure (charNode f.ignoringCase negated members)) :=
  follows_pure Node.ignoringCase _

theorem follows_referenceNode (f : Flags) (number : Nat) :
    Follows Node.ignoringCase (referenceNode f number) (referenceNode f.ignoringCase number) :=
  (blind_checkReference number).bind fun _ => follows_pure Node.ignoringCase _

theorem follows_digitEscape (f : Flags) (c : Char) :
    Follows Node.ignoringCase (digitEscape f c) (digitEscape f.ignoringCase c) := by
  refine .ite (fun _ => (blind_takeUpTo _ 2).bind fun _ => follows_charNode f _ _) fun _ => ?_
  refine (blind_takeUpTo _ 1).bind fun digits => ?_
  match digits with
  | [d] =>
    refine blind_peek.bind fun t? => .ite (fun _ => ?_) fun _ => follows_referenceNode f _
    exact (blind_takeUpTo _ 1).bind fun _ =>
      .ite (fun _ => follows_charNode f _ _) fun _ => follows_fail _
  | [] => exact follows_referenceNode f _
  | _ :: _ :: _ => exact follows_referenceNode f _

theorem follows_escapeNode (f : Flags) (c : Char) :
    Follows Node.ignoringCase (escapeNode f c) (escapeNode f.ignoringCase c) := by
  unfold escapeNode
  split
  · exact follows_pure _ _
  · exact follows_pure _ _
  · exact follows_pure _ _
  · exact follows_pure _ _
  · exact follows_charNode f _ _
  · exact follows_charNode f _ _
  · refine .ite (fun _ => follows_digitEscape f _) fun _ => ?_
    exact (blind_escapedCode _).bind fun _ => follows_charNode f _ _

theorem follows_repeatLast (least : Nat) (most : Option Nat) (found : List Node) :
    Follows (List.map Node.ignoringCase) (repeatLast least most found)
      (repeatLast least most (found.map Node.ignoringCase)) := by
  cases found with
  | nil => exact follows_fail _
  | cons last found =>
    simp only [List.map_cons, repeatLast, Node.isAnchor_ignoringCase, Node.isLoop_ignoringCase]
    exact .ite (fun _ => follows_fail _) fun _ => blind_greed.bind fun _ => follows_pure _ _

theorem inRow_ignoringCase (found : List Node) :
    inRow (found.map Node.ignoringCase) = (inRow found).ignoringCase := by
  have hstep (after n : Node) :
      (if (after.ignoringCase matches .empty) then n.ignoringCase
        else .seq n.ignoringCase after.ignoringCase) =
      (if (after matches .empty) then n else .seq n after).ignoringCase := by
    rw [Node.isEmpty_ignoringCase]
    split <;> rfl
  have hfold (after : Node) :
      (found.map Node.ignoringCase).foldl
          (fun after n => if after matches .empty then n else .seq n after) after.ignoringCase =
        (found.foldl (fun after n => if after matches .empty then n else .seq n after)
          after).ignoringCase := by
    induction found generalizing after with
    | nil => rfl
    | cons n found ih => rw [List.map_cons, List.foldl_cons, hstep, ih, List.foldl_cons]
  exact hfold .empty

section Levels

variable {fuel : Nat}

theorem follows_groupBody_succ
    (ihAlternatives : ∀ f outermost, Follows Node.ignoringCase (alternatives f outermost fuel)
      (alternatives f.ignoringCase outermost fuel))
    (ihSequence : ∀ f outermost first found, Follows Node.ignoringCase
      (sequence f outermost first fuel found)
      (sequence f.ignoringCase outermost first fuel (found.map Node.ignoringCase)))
    (f : Flags) (opened : Opening) :
    Follows Node.ignoringCase (groupBody f (fuel + 1) opened)
      (groupBody f.ignoringCase (fuel + 1) opened) := by
  cases opened with
  | group name =>
    rw [groupBody, groupBody]
    refine (blind_openGroup name).bind fun number => (ihAlternatives _ _).bind fun body => ?_
    rw [Node.width_ignoringCase]
    exact (blind_expect ')').bind fun _ => (blind_closeGroup _ _).bind fun _ => follows_pure _ _
  | plainGroup change =>
    rw [groupBody, groupBody, Flags.apply_ignoringCase]
    exact (ihAlternatives _ _).bind fun _ => (blind_expect ')').bind fun _ => follows_pure _ _
  | atomic =>
    rw [groupBody, groupBody]
    exact (ihAlternatives _ _).bind fun _ => (blind_expect ')').bind fun _ => follows_pure _ _
  | ahead negated =>
    rw [groupBody, groupBody]
    exact (ihAlternatives _ _).bind fun _ => (blind_expect ')').bind fun _ => follows_pure _ _
  | behind negated =>
    have hide : ∀ g : Reader → Option Nat, (∀ r, g r.ignoringCase = g r) →
        Blind (modify fun r => { r with hidden := g r } : Parse PUnit) := by
      refine fun g hg => blind_modify fun r => ?_
      rw [hg]
      rfl
    rw [groupBody, groupBody]
    refine follows_get fun r => (hide _ fun _ => rfl).bind fun _ => ?_
    refine (ihAlternatives _ _).bind fun _ => (hide _ fun _ => rfl).bind fun _ => ?_
    exact (blind_expect ')').bind fun _ => follows_pure _ _
  | conditional number =>
    rw [groupBody, groupBody]
    refine (blind_checkCondition number).bind fun _ => (ihSequence _ _ _ []).bind fun _ => ?_
    refine (blind_accept '|').bind fun _ => .ite (fun _ => ?_) fun _ => ?_
    · exact (ihSequence _ _ _ []).bind fun _ => (blind_expect ')').bind fun _ => follows_pure _ _
    · exact (blind_expect ')').bind fun _ => follows_pure _ _
  | _ => exact follows_fail _

theorem follows_sequence_succ
    (ihSequence : ∀ f outermost first found, Follows Node.ignoringCase
      (sequence f outermost first fuel found)
      (sequence f.ignoringCase outermost first fuel (found.map Node.ignoringCase)))
    (ihBody : ∀ f opened, Follows Node.ignoringCase (groupBody f fuel opened)
      (groupBody f.ignoringCase fuel opened))
    (f : Flags) (outermost first : Bool) (found : List Node) :
    Follows Node.ignoringCase (sequence f outermost first (fuel + 1) found)
      (sequence f.ignoringCase outermost first (fuel + 1) (found.map Node.ignoringCase)) := by
  have ihNode (f : Flags) (n : Node) := ihSequence f outermost first (n :: found)
  rw [sequence, sequence]
  refine blind_peek.bind fun t? => ?_
  cases t? with
  | none => exact inRow_ignoringCase found ▸ follows_pure _ _
  | some t =>
    refine .ite (fun _ => inRow_ignoringCase found ▸ follows_pure _ _) fun _ => ?_
    refine blind_next.discard.bind fun _ => .ite (fun _ => ihSequence _ _ _ _) fun _ => ?_
    refine .ite (fun _ => ?_) fun _ => ?_
    · exact follows_get fun _ => (blind_skipPast _ _ _).bind fun _ => ihSequence _ _ _ _
    split
    · exact follows_fail _
    · exact (follows_escapeNode f _).bind fun n => ihNode f n
    · refine (blind_accept '^').bind fun _ => follows_get fun _ => ?_
      exact (blind_setMembers _ _).bind fun _ => ihNode f _
    · exact ihNode f _
    · exact ihNode f _
    · exact ihNode f _
    · refine blind_opening.bind fun opened => ?_
      cases opened with
      | nothing => exact ihSequence _ _ _ _
      | wholeFlags =>
        simp only [List.isEmpty_map]
        refine .ite (fun _ => follows_get fun r => ?_) fun _ => follows_fail _
        exact Flags.ofWhole_ignoringCase r.whole ▸ ihSequence _ _ _ _
      | reference number => exact (follows_referenceNode f _).bind fun n => ihNode f n
      | _ => exact (ihBody f _).bind fun n => ihNode f n
    · refine (blind_repeat _).bind fun bounds => ?_
      cases bounds with
      | some bounds => exact (follows_repeatLast _ _ found).bind fun found => ihSequence _ _ _ found
      | none => exact ihNode f _

theorem follows_levels (fuel : Nat) :
    (∀ f outermost, Follows Node.ignoringCase (alternatives f outermost fuel)
      (alternatives f.ignoringCase outermost fuel)) ∧
    (∀ f outermost, Follows Node.ignoringCase (furtherAlternatives f outermost fuel)
      (furtherAlternatives f.ignoringCase outermost fuel)) ∧
    (∀ f outermost first found, Follows Node.ignoringCase
      (sequence f outermost first fuel found)
      (sequence f.ignoringCase outermost first fuel (found.map Node.ignoringCase))) ∧
    ∀ f opened, Follows Node.ignoringCase (groupBody f fuel opened)
      (groupBody f.ignoringCase fuel opened) := by
  -- By induction on the fuel, which the four functions share.
  induction fuel with
  | zero =>
    simp only [alternatives, furtherAlternatives, sequence, groupBody]
    exact ⟨fun _ _ => follows_fail _, fun _ _ => follows_fail _, fun _ _ _ _ => follows_fail _,
      fun _ _ => follows_fail _⟩
  | succ fuel ih =>
    obtain ⟨ihAlternatives, ihFurther, ihSequence, ihBody⟩ := ih
    refine ⟨fun f outermost => ?_, fun f outermost => ?_,
      follows_sequence_succ ihSequence ihBody, follows_groupBody_succ ihAlternatives ihSequence⟩
    · rw [alternatives, alternatives]
      refine (ihSequence f outermost outermost []).bind fun _ => (blind_accept '|').bind fun _ => ?_
      refine .ite (fun _ => follows_get fun r => ?_) fun _ => follows_pure _ _
      have hflags : (if outermost then Flags.ofWhole r.ignoringCase.whole else f.ignoringCase) =
          (if outermost then Flags.ofWhole r.whole else f).ignoringCase := by
        cases outermost
        · rfl
        · exact Flags.ofWhole_ignoringCase r.whole
      simp only [hflags]
      exact (ihFurther _ _).bind fun _ => follows_pure _ _
    · rw [furtherAlternatives, furtherAlternatives]
      refine (ihSequence f outermost false []).bind fun _ => (blind_accept '|').bind fun _ => ?_
      refine .ite (fun _ => ?_) fun _ => follows_pure _ _
      exact (ihFurther _ _).bind fun _ => follows_pure _ _

theorem follows_patternWith (fuel : Nat) :
    Follows Node.ignoringCase (patternWith [] fuel) (patternWith ['i'] fuel) := by
  have hcontains (r : Reader) {c : Char} (h : c ≠ 'i') :
      r.ignoringCase.whole.contains c = r.whole.contains c := by
    simp [Reader.ignoringCase, h]
  refine ((follows_levels fuel).1 (.ofWhole []) true).bind fun n => follows_get fun r => ?_
  rw [hcontains r (c := 'a') (by decide), hcontains r (c := 'u') (by decide),
    hcontains r (c := 't') (by decide), Node.looksFixed_ignoringCase, Node.hasLoop_ignoringCase]
  refine .ite (fun _ => follows_throw _ _) fun _ => .ite (fun _ => follows_fail _) fun _ => ?_
  refine .ite (fun _ => follows_fail _) fun _ => .ite (fun _ => follows_fail _) fun _ => ?_
  exact .ite (fun _ => follows_fail _) fun _ => follows_pure _ _

end Levels

/-- The flag for any case makes no difference to which texts are patterns, and what is read with it
is the same pattern with case ignored. -/
theorem Node.ofTextWith?_ignoreCase (cs : List Char) :
    ofTextWith? ['i'] cs = (ofText? cs).map ignoringCase := by
  have hrun := follows_patternWith (4 * cs.length + 8) ⟨tokens cs, [], [], none, [], []⟩
  rw [← ofTextWith?_nil]
  by_cases hbroken : tokens cs = [.broken]
  · simp only [ofTextWith?, hbroken, if_true]
    rfl
  · simp only [ofTextWith?, hbroken, if_false]
    refine (congrArg (Except.map Prod.fst) hrun).trans ?_
    change _ = Except.map _ (Except.map _ (patternWith [] _ _))
    cases patternWith [] (4 * cs.length + 8) ⟨tokens cs, [], [], none, [], []⟩ <;> rfl

end DocGrid.Pattern

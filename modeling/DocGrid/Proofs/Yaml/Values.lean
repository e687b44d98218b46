import DocGrid.Proofs.Yaml.Nodes
import DocGrid.Yaml.Data

/-! A document has a value unless one of its scalars has none, or its nodes do not fit together. -/

namespace DocGrid.Yaml

/-- What a scalar of this kind may lack, or have wrong. -/
inductive Tag.Refuses : Tag → Failure → Prop where
  | word : Refuses .bool .missingKey
  | emptyInt : Refuses .int .missingArgument
  | int : Refuses .int .badValue
  | emptyFloat : Refuses .float .missingArgument
  | float : Refuses .float .badValue
  | instant : Refuses .timestamp .missingMember
  | calendar : Refuses .timestamp .badValue

namespace Scalar

open Result (Fails)

theorem fails_signed {Q : Failure → Prop} (h : Q .missingArgument) (cs : List Char) :
    Fails Q (signed cs) := by
  unfold signed
  split
  · exact h
  all_goals trivial

theorem fails_int (cs : List Char) : Fails (Tag.Refuses .int) (int cs) := by
  refine .bind (fails_signed .emptyInt _) fun p => .guard .emptyInt fun _ => ?_
  split
  · trivial
  · exact .int

theorem fails_float (cs : List Char) : Fails (Tag.Refuses .float) (float cs) := by
  refine .bind (fails_signed .emptyFloat _) fun p => ?_
  dsimp only
  split
  · trivial
  · exact .float

theorem fails_bool (cs : List Char) : Fails (Tag.Refuses .bool) (bool cs) := by
  unfold bool
  split
  · trivial
  · exact .word

theorem fails_timestamp (cs : List Char) : Fails (Tag.Refuses .timestamp) (timestamp cs) := by
  unfold timestamp
  split
  · exact .instant
  · next t ht =>
    cases t.value? with
    | none => exact .calendar
    | some v => trivial

theorem fails_binary (cs : List Char) : Fails (fun e => ∃ p, e = .markup p) (binary cs) := by
  unfold binary
  refine .ite ?_ ⟨_, rfl⟩
  split
  · trivial
  · exact ⟨_, rfl⟩

theorem refuses_of_value {tag : Tag} {cs : List Char} {e : Failure}
    (h : value tag cs = .error e) : (∃ p, e = .markup p) ∨ tag.Refuses e := by
  unfold value at h
  split at h
  · cases h
  · exact .inr ((fails_bool cs).failure h)
  · exact .inr ((fails_int cs).failure h)
  · exact .inr ((fails_float cs).failure h)
  · exact .inr ((fails_timestamp cs).failure h)
  · exact .inl ((fails_binary cs).failure h)
  · cases h
  · exact .inl ⟨.value, (Except.error.inj h).symm⟩

end Scalar

namespace Node

mutual

/-- The texts that a value is read from, with the kind that each is read as. A mapping of a
scalar's kind stands for the scalar under its equality sign. -/
def leaves : Node → List (Tag × List Char)
  | scalar t cs => [(t, cs)]
  | sequence _ items => leavesOfItems items
  | mapping t entries =>
    (inner entries).toOption.toList.map (t, ·) ++ leavesOfEntries entries

def leavesOfItems : List Node → List (Tag × List Char)
  | [] => []
  | n :: rest => leaves n ++ leavesOfItems rest

def leavesOfEntries : List (Node × Node) → List (Tag × List Char)
  | [] => []
  | (k, v) :: rest => leaves k ++ leaves v ++ leavesOfEntries rest

end

/-- A fault of the arrangement, or the failure of a scalar. -/
abbrev Traces (ls : List (Tag × List Char)) {α : Type} (s : Staged α) : Prop :=
  Result.Fails (fun e => (∃ p, e = .markup p) ∨ ∃ l ∈ ls, Scalar.value l.1 l.2 = .error e) s.outcome

/-- What can be done at once, or is a fault of the arrangement. -/
abbrev Arranged {α : Type} (P : α → Prop) (r : Result α) : Prop :=
  Result.Holds P (fun e => ∃ p, e = .markup p) r

namespace Traces

variable {ls more : List (Tag × List Char)} {α β γ : Type} {s : Staged α}

theorem done (a : α) : Traces ls (.now (.ok a)) := trivial

theorem fault : Traces ls (.now (Yaml.fault : Result α)) := .inl ⟨.value, rfl⟩

theorem later (h : Traces ls s) : Traces ls s.later := h

theorem map (h : Traces ls s) (f : α → β) : Traces ls (s.map f) :=
  Result.Fails.bind h fun a => .ok (f a)

theorem both {b : Staged β} (h : Traces ls s) (hb : Traces ls b) (f : α → β → γ) :
    Traces ls (s.both f b) := by
  unfold Staged.both
  split
  · trivial
  · next hbe => exact hb.failure hbe
  · next he _ => exact h.failure he
  · next he hbe =>
    split
    · exact hb.failure hbe
    · exact h.failure he

theorem of {r : Result (Staged α)} (h : Arranged (Traces ls) r) : Traces ls (.of r) := by
  cases r with
  | ok s => exact h
  | error e => exact .inl h

theorem mono (h : Traces ls s) (hs : ls ⊆ more) : Traces more s :=
  h.imp fun _ => .imp_right fun ⟨l, hl, he⟩ => ⟨l, hs hl, he⟩

theorem left (h : Traces ls s) : Traces (ls ++ more) s := h.mono (List.subset_append_left _ _)

theorem right (h : Traces ls s) : Traces (more ++ ls) s := h.mono (List.subset_append_right _ _)

end Traces

mutual

theorem arranged_inner : ∀ entries : List (Node × Node), Arranged (fun _ => True) (inner entries)
  | [] => by
    rw [inner]
    exact ⟨_, rfl⟩
  | (k, v) :: rest => by
    rw [inner]
    split
    · exact arranged_scalarIn v
    · exact arranged_inner rest

theorem arranged_scalarIn : ∀ n : Node, Arranged (fun _ => True) (scalarIn n)
  | scalar _ cs => by
    rw [scalarIn]
    trivial
  | mapping _ entries => by
    rw [scalarIn]
    exact arranged_inner entries
  | sequence _ _ => by
    rw [scalarIn]
    exact ⟨_, rfl⟩

end

theorem traces_scalar (t : Tag) (cs : List Char) : Traces [(t, cs)] (.now (Scalar.value t cs)) := by
  cases h : Scalar.value t cs with
  | ok v => exact .done v
  | error e => exact .inr ⟨(t, cs), List.mem_singleton_self _, h⟩

theorem traces_tagged (t : Tag) (entries : List (Node × Node)) :
    Traces ((inner entries).toOption.toList.map (t, ·))
      (.now ((inner entries).bind (Scalar.value t))) := by
  have hinner := arranged_inner entries
  cases h : inner entries with
  | ok cs => exact traces_scalar t cs
  | error e => exact .inl (hinner.failure h)

theorem traces_keyOf {n : Node} (h : Traces n.leaves n.value) : Traces n.leaves (keyOf n) := by
  unfold keyOf
  split
  · exact .done _
  · next entries =>
    have hinner := arranged_inner entries
    cases he : inner entries with
    | ok cs => exact .done _
    | error e => exact .inl (hinner.failure he)
  · split
    · exact .fault
    · exact h

/-- What is merged and what is not, each from leaves of the entries. -/
structure Entries.Traced (ls : List (Tag × List Char)) (es : Entries) : Prop where
  merged : Traces ls es.merged
  own : Traces ls es.own

theorem Entries.Traced.all {ls : List (Tag × List Char)} {es : Entries} (h : es.Traced ls) :
    Traces ls es.all :=
  h.merged.both h.own _

theorem Arranged.imp {α : Type} {P R : α → Prop} {r : Result α} (h : Arranged P r)
    (hp : ∀ a, P a → R a) : Arranged R r := by
  cases r with
  | ok a => exact hp a h
  | error e => exact h

-- One result for each function of the reading, since a value is read from keys, pairs and merged
-- mappings in different ways. The leaves of a part are among those of the whole.
mutual

theorem traces_value : ∀ n : Node, Traces n.leaves n.value
  | scalar t cs => by
    rw [value, leaves]
    split
    · exact .later .fault
    · exact traces_scalar t cs
  | sequence t items => by
    rw [value.eq_def, leaves]
    dsimp only
    split
    · exact (traces_values items).map _
    · exact (traces_pairs items).map _
    · exact (traces_pairs items).map _
    · split
      · exact .later .fault
      · exact .fault
  | mapping t entries => by
    have hall : Traces (leavesOfEntries entries) (.of ((entriesOf entries).map Entries.all)) :=
      .of (Result.Holds.bind (traces_entriesOf entries) fun _ h => h.all)
    rw [value.eq_def, leaves]
    dsimp only
    split
    · exact (hall.map _).right
    · exact (hall.map _).right
    · split
      · exact .later .fault
      · exact (traces_tagged _ entries).left

theorem traces_values : ∀ items : List Node, Traces (leavesOfItems items) (values items)
  | [] => by
    rw [values]
    exact .done _
  | n :: rest => by
    rw [values, leavesOfItems]
    exact (traces_value n).left.both (traces_values rest).right _

theorem traces_pairs : ∀ items : List Node, Traces (leavesOfItems items) (pairs items)
  | [] => by
    rw [pairs]
    exact .done _
  | n :: rest => by
    unfold pairs
    split
    · exact .done _
    · next t k v rest h =>
      obtain ⟨rfl, rfl⟩ := List.cons.inj h
      rw [leavesOfItems, leaves, leavesOfEntries]
      have hpair := (traces_value k).left.both (traces_value v).right fun k v => Value.list [k, v]
      exact hpair.left.right.left.both (traces_pairs rest).right _
    · exact .fault

theorem traces_entriesOf : ∀ entries : List (Node × Node),
    Arranged (Entries.Traced (leavesOfEntries entries)) (entriesOf entries)
  | [] => by
    rw [entriesOf]
    exact ⟨trivial, trivial⟩
  | (k, v) :: rest => by
    rw [entriesOf, leavesOfEntries]
    split
    · refine Result.Holds.bind (traces_source v) fun found hfound => ?_
      refine Result.Holds.bind (traces_entriesOf rest) fun es hes => ?_
      exact ⟨hfound.right.left.both hes.merged.right _, hes.own.right⟩
    · refine Result.Holds.bind (traces_entriesOf rest) fun es hes => ?_
      have hentry := (traces_keyOf (traces_value k)).left.both (traces_value v).right Prod.mk
      exact ⟨hes.merged.right, hentry.left.both hes.own.right _⟩

theorem traces_source : ∀ n : Node, Arranged (Traces n.leaves) (source n)
  | mapping _ entries => by
    rw [source, leaves]
    exact Result.Holds.bind (traces_entriesOf entries) fun _ h => h.all.right
  | sequence _ items => by
    rw [source, leaves]
    exact traces_sources items
  | scalar _ _ => by
    rw [source]
    exact ⟨_, rfl⟩

theorem traces_sources : ∀ items : List Node, Arranged (Traces (leavesOfItems items)) (sources items)
  | [] => by
    rw [sources]
    trivial
  | n :: rest => by
    unfold sources
    split
    · trivial
    · next t entries rest h =>
      obtain ⟨rfl, rfl⟩ := List.cons.inj h
      rw [leavesOfItems, leaves]
      refine Result.Holds.bind (traces_entriesOf entries) fun es hes => ?_
      refine Result.Holds.bind (traces_sources rest) fun found hfound => ?_
      exact hfound.right.both hes.all.right.left _
    · exact ⟨_, rfl⟩

end

end Node

/-- Where a failure comes from that is no fault of the text: a token that is out of range, or a
scalar that has no value of its kind. -/
inductive Stumbles (cs : List Char) : Failure → Prop where
  | range (h : .broken .tooLarge ∈ Token.ofText cs) : Stumbles cs .tooLarge
  | number (h : .broken .badValue ∈ Token.ofText cs) : Stumbles cs .badValue
  | scalar {root : Node} {t : Tag} {text : List Char} {e : Failure}
      (hroot : Node.ofText cs = .ok (some root)) (hleaf : (t, text) ∈ root.leaves)
      (hvalue : Scalar.value t text = .error e) (hkind : t.Refuses e) : Stumbles cs e

theorem stumbles_of_broken {cs : List Char} {e : Failure} (h : .broken e ∈ Token.ofText cs) :
    (∃ p, e = .markup p) ∨ Stumbles cs e := by
  cases Token.isLexical_of_broken h with
  | fault p => exact .inl ⟨p, rfl⟩
  | badValue => exact .inr (.number h)
  | tooLarge => exact .inr (.range h)

theorem stumbles_of_read {cs : List Char} {e : Failure} (h : read cs = .error e) :
    (∃ p, e = .markup p) ∨ Stumbles cs e := by
  rcases Result.error_of_bind h with h | ⟨root?, hroot, h⟩
  · rcases Node.failure_of_ofText h with hp | hbroken
    · exact .inl hp
    · exact stumbles_of_broken hbroken
  · cases root? with
    | none => cases h
    | some root =>
      rcases (Node.traces_value root).failure h with hp | ⟨⟨t, text⟩, hleaf, hvalue⟩
      · exact .inl hp
      · exact (Scalar.refuses_of_value hvalue).imp_right (.scalar hroot hleaf hvalue)

theorem Stumbles.ne_config {cs : List Char} {e : Failure} (h : Stumbles cs e) (p : ConfigProblem) :
    e ≠ .config p := by
  rintro rfl
  cases h with
  | scalar _ _ _ hkind => cases hkind

end DocGrid.Yaml

import DocGrid.Value.SortKey
import Mathlib.Order.Basic

/-! The order of sort keys. Keys without NaN are compared consistently wherever they can be compared
at all, and they can be when their points in time are of one kind. -/

namespace DocGrid

/-- What a comparison finds, if there is an order. -/
abbrev Verdict := Option Ordering

namespace Verdict

/-- A second comparison counts where the first one finds no difference. -/
def next (x y : Verdict) : Verdict :=
  match x with
  | some .eq => y
  | o => o

def isLE (v : Verdict) : Bool :=
  v.any Ordering.isLE

theorem isLE_iff {v : Verdict} : v.isLE = true ↔ v = some .lt ∨ v = some .eq := by
  rcases v with _ | _ | _ | _ <;> simp [isLE, Ordering.isLE]

theorem isLE_or_isLE_swap {v : Verdict} (h : v.isSome) :
    (v.isLE || isLE (v.map Ordering.swap)) = true := by
  rcases v with _ | _ | _ | _
  · cases h
  · rfl
  · rfl
  · rfl

theorem eq_of_isLE_swap {v : Verdict} (h : v.isLE = true) (h' : isLE (v.map Ordering.swap) = true) :
    v = some .eq := by
  rcases isLE_iff.mp h with rfl | rfl
  · exact absurd h' (by decide)
  · rfl

/-- What is equal can be exchanged on the left, and what is less stays less along a chain. -/
structure Chains (ab bc ac : Verdict) : Prop where
  same : ab = some .eq → ac = bc
  less : ab = some .lt → bc = some .lt ∨ bc = some .eq → ac = some .lt

theorem Chains.next {x y z x' y' z' : Verdict} (h : Chains x y z)
    (h' : x = some .eq → y = some .eq → Chains x' y' z') :
    Chains (x.next x') (y.next y') (z.next z') := by
  rcases x with _ | _ | _ | _
  · exact ⟨by simp [Verdict.next], by simp [Verdict.next]⟩
  · refine ⟨by simp [Verdict.next], fun _ hy => ?_⟩
    have hle : y = some .lt ∨ y = some .eq := by
      rcases y with _ | _ | _ | _ <;> simp [Verdict.next] at hy ⊢
    rw [h.less rfl hle]
    rfl
  · obtain rfl := h.same rfl
    rcases z with _ | _ | _ | _
    · exact ⟨by simp [Verdict.next], by simp [Verdict.next]⟩
    · exact ⟨by simp [Verdict.next], by simp [Verdict.next]⟩
    · exact h' rfl rfl
    · exact ⟨by simp [Verdict.next], by simp [Verdict.next]⟩
  · exact ⟨by simp [Verdict.next], by simp [Verdict.next]⟩

theorem chains_of_transCmp {α : Type} {cmp : α → α → Ordering} [Std.TransCmp cmp] (a b c : α) :
    Chains (some (cmp a b)) (some (cmp b c)) (some (cmp a c)) := by
  refine ⟨fun h => ?_, fun h h' => ?_⟩
  · rw [Std.TransCmp.congr_left (Option.some.inj h)]
  · have hab : cmp a b = .lt := Option.some.inj h
    rcases h' with h' | h'
    · rw [Std.TransCmp.lt_trans hab (Option.some.inj h')]
    · rw [Std.TransCmp.lt_of_lt_of_eq hab (Option.some.inj h')]

theorem Chains.isLE_trans {x y z : Verdict} (h : Chains x y z) (hx : x.isLE = true)
    (hy : y.isLE = true) : z.isLE = true := by
  rcases isLE_iff.mp hx with hx | hx
  · exact isLE_iff.mpr (.inl (h.less hx (isLE_iff.mp hy)))
  · rwa [h.same hx]

theorem next_congr {x y y' : Verdict} (h : x = some .eq → y = y') : x.next y = x.next y' := by
  rcases x with _ | _ | _ | _
  · rfl
  · rfl
  · exact h rfl
  · rfl

theorem next_of_ne {x y : Verdict} (h : x ≠ some .eq) : x.next y = x := by
  rcases x with _ | _ | _ | _
  · rfl
  · rfl
  · exact absurd rfl h
  · rfl

theorem isSome_next {x y : Verdict} (hx : x.isSome) (hy : y.isSome) : (x.next y).isSome := by
  rcases x with _ | _ | _ | _
  · exact hx
  · rfl
  · exact hy
  · rfl

@[simp]
theorem next_eq_iff {x y : Verdict} : x.next y = some .eq ↔ x = some .eq ∧ y = some .eq := by
  rcases x with _ | _ | _ | _ <;> simp [next]

@[simp] theorem next_eq_none_iff {x y : Verdict} :
    x.next y = none ↔ x = none ∨ x = some .eq ∧ y = none := by
  rcases x with _ | _ | _ | _ <;> simp [next]

@[simp] theorem map_swap_next (x y : Verdict) :
    (x.next y).map Ordering.swap = next (x.map Ordering.swap) (y.map Ordering.swap) := by
  rcases x with _ | _ | _ | _ <;> rfl

theorem next_assoc (x y z : Verdict) : (x.next y).next z = x.next (y.next z) := by
  rcases x with _ | _ | _ | _ <;> rfl

variable {α : Type} {cmp : α → α → Verdict}

/-- Lists are told apart where their items first are. A list comes before what continues it. -/
def lex (cmp : α → α → Verdict) : List α → List α → Verdict
  | [], [] => some .eq
  | [], _ :: _ => some .lt
  | _ :: _, [] => some .gt
  | x :: xs, y :: ys => next (cmp x y) (lex cmp xs ys)

theorem lex_self {xs : List α} (h : ∀ x ∈ xs, cmp x x = some .eq) :
    lex cmp xs xs = some .eq := by
  induction xs with
  | nil => rfl
  | cons x xs ih =>
    rw [lex, h x List.mem_cons_self]
    exact ih fun y hy => h y (List.mem_cons_of_mem _ hy)

theorem lex_swap {xs ys : List α}
    (h : ∀ x ∈ xs, ∀ y, cmp y x = (cmp x y).map Ordering.swap) :
    lex cmp ys xs = (lex cmp xs ys).map Ordering.swap := by
  induction xs generalizing ys with
  | nil => cases ys <;> rfl
  | cons x xs ih =>
    cases ys with
    | nil => rfl
    | cons y ys =>
      rw [lex, lex, map_swap_next, h x List.mem_cons_self y,
        ih fun z hz => h z (List.mem_cons_of_mem _ hz)]

theorem chains_lex {xs ys zs : List α}
    (h : ∀ x ∈ xs, ∀ y ∈ ys, ∀ z ∈ zs, Chains (cmp x y) (cmp y z) (cmp x z)) :
    Chains (lex cmp xs ys) (lex cmp ys zs) (lex cmp xs zs) := by
  induction xs generalizing ys zs with
  | nil => cases ys <;> cases zs <;> exact ⟨by simp [lex], by simp [lex]⟩
  | cons x xs ih =>
    cases ys with
    | nil => exact ⟨by simp [lex], by simp [lex]⟩
    | cons y ys =>
      cases zs with
      | nil => exact ⟨by simp [lex], by simp [lex]⟩
      | cons z zs =>
        refine (h x (by simp) y (by simp) z (by simp)).next fun _ _ => ?_
        exact ih fun x hx y hy z hz => h x (List.mem_cons_of_mem _ hx) y
          (List.mem_cons_of_mem _ hy) z (List.mem_cons_of_mem _ hz)

theorem isSome_lex {xs ys : List α} (h : ∀ x ∈ xs, ∀ y ∈ ys, (cmp x y).isSome) :
    (lex cmp xs ys).isSome := by
  induction xs generalizing ys with
  | nil => cases ys <;> rfl
  | cons x xs ih =>
    cases ys with
    | nil => rfl
    | cons y ys =>
      refine isSome_next (h x (by simp) y (by simp)) (ih fun x hx y hy => ?_)
      exact h x (List.mem_cons_of_mem _ hx) y (List.mem_cons_of_mem _ hy)

theorem lex_append {ps qs : List α} (h : lex cmp ps qs = some .eq) (xs ys : List α) :
    lex cmp (ps ++ xs) (qs ++ ys) = lex cmp xs ys := by
  induction ps generalizing qs with
  | nil =>
    cases qs with
    | nil => rfl
    | cons q qs => cases h
  | cons p ps ih =>
    cases qs with
    | nil => cases h
    | cons q qs =>
      rw [lex, next_eq_iff] at h
      rw [List.cons_append, List.cons_append, lex, h.1]
      exact ih h.2

end Verdict

namespace Quantity

@[simp] theorem isLE_order (p q : Quantity) : (p.order q).isLE = p.le q := by
  unfold order
  by_cases h : p = q
  · simp [h, le_refl]
  · simp only [h, if_false]
    cases p.le q <;> rfl

theorem order_swap (p q : Quantity) : p.order q = (q.order p).swap := by
  unfold order
  by_cases h : p = q
  · simp [h]
  · simp only [h, Ne.symm h, if_false]
    rcases le_total p q with hle | hle
    · have hnot : q.le p = false := by
        rw [Bool.eq_false_iff]
        exact fun hge => h (le_antisymm hle hge)
      simp [hle, hnot]
    · have hnot : p.le q = false := by
        rw [Bool.eq_false_iff]
        exact fun hge => h (le_antisymm hge hle)
      simp [hle, hnot]

instance : Std.TransCmp Quantity.order where
  eq_swap := order_swap _ _
  isLE_trans h h' := by
    rw [isLE_order] at h h' ⊢
    exact le_trans h h'

instance : Std.LawfulEqCmp Quantity.order where
  eq_of_compare {p q} h := by
    unfold order at h
    by_cases he : p = q
    · exact he
    · simp only [he, if_false] at h
      split at h <;> cases h

end Quantity

namespace SortKey

/-- Induction with the parts of lists and mappings at hand. -/
theorem byParts {P : SortKey → Prop} (null : P .null) (number : ∀ n, P (.number n))
    (text : ∀ s, P (.text s))
    (mapping : ∀ entries : List (String × SortKey), (∀ e ∈ entries, P e.2) → P (.mapping entries))
    (list : ∀ items : List SortKey, (∀ k ∈ items, P k) → P (.list items))
    (bool : ∀ b, P (.bool b)) (datetime : ∀ t, P (.datetime t)) (other : ∀ s, P (.other s)) :
    ∀ k, P k :=
  @SortKey.rec P (fun entries => ∀ e ∈ entries, P e.2) (fun items => ∀ k ∈ items, P k)
    (fun e => P e.2) null number text mapping list bool datetime other
    (by simp) (fun _ _ he hes => List.forall_mem_cons.mpr ⟨he, hes⟩)
    (by simp) (fun _ _ hk hks => List.forall_mem_cons.mpr ⟨hk, hks⟩) (fun _ _ h => h)

mutual

def numbers : SortKey → List Number
  | number n => [n]
  | list items => numbersOfItems items
  | mapping entries => numbersOfEntries entries
  | _ => []

def numbersOfItems : List SortKey → List Number
  | [] => []
  | k :: rest => numbers k ++ numbersOfItems rest

def numbersOfEntries : List (String × SortKey) → List Number
  | [] => []
  | (_, k) :: rest => numbers k ++ numbersOfEntries rest

end

mutual

def times : SortKey → List DateTime
  | datetime t => [t]
  | list items => timesOfItems items
  | mapping entries => timesOfEntries entries
  | _ => []

def timesOfItems : List SortKey → List DateTime
  | [] => []
  | k :: rest => times k ++ timesOfItems rest

def timesOfEntries : List (String × SortKey) → List DateTime
  | [] => []
  | (_, k) :: rest => times k ++ timesOfEntries rest

end

def within : SortKey → SortKey → Verdict
  | number n, number m =>
    match Standing.ofNumbers n m with
    | .ordered o => some o
    | _ => some .eq
  | text s, text t => some (compare s t)
  | mapping xs, mapping ys => compareEntries? xs ys
  | list xs, list ys => compareItems? xs ys
  | bool a, bool b => some (compare a b)
  | datetime t, datetime u => t.compare? u
  | other s, other t => some (compare s t)
  | _, _ => some .eq

theorem compare?_eq (a b : SortKey) :
    compare? a b = Verdict.next (some (compare a.rank b.rank)) (within a b) := by
  cases a <;> cases b <;> rfl

theorem compareItems?_cons (x y : SortKey) (xs ys : List SortKey) :
    compareItems? (x :: xs) (y :: ys) = Verdict.next (compare? x y) (compareItems? xs ys) := by
  rw [compareItems?]
  rcases compare? x y with _ | _ | _ | _ <;> rfl

theorem compareEntries?_cons (k l : String) (x y : SortKey) (xs ys : List (String × SortKey)) :
    compareEntries? ((k, x) :: xs) ((l, y) :: ys) =
      Verdict.next (some (compare k l)) (Verdict.next (compare? x y) (compareEntries? xs ys)) := by
  rw [compareEntries?]
  cases compare k l with
  | eq => rcases compare? x y with _ | _ | _ | _ <;> rfl
  | _ => rfl

theorem compareItems?_eq (xs ys : List SortKey) :
    compareItems? xs ys = Verdict.lex compare? xs ys := by
  induction xs generalizing ys with
  | nil => cases ys <;> rfl
  | cons x xs ih =>
    cases ys with
    | nil => rfl
    | cons y ys => rw [compareItems?_cons, Verdict.lex, ih]

def entryVerdict (e f : String × SortKey) : Verdict :=
  Verdict.next (some (compare e.1 f.1)) (compare? e.2 f.2)

theorem compareEntries?_eq (xs ys : List (String × SortKey)) :
    compareEntries? xs ys = Verdict.lex entryVerdict xs ys := by
  induction xs generalizing ys with
  | nil => cases ys <;> rfl
  | cons x xs ih =>
    cases ys with
    | nil => rfl
    | cons y ys => rw [compareEntries?_cons, Verdict.lex, ih, entryVerdict, Verdict.next_assoc]

/-! The order of keys. -/

/-- All numbers of a list are numbers. -/
def Proper (ns : List Number) : Prop :=
  ∀ n ∈ ns, n.quantity?.isSome

instance (ns : List Number) : Decidable (Proper ns) :=
  inferInstanceAs (Decidable (∀ n ∈ ns, n.quantity?.isSome))

@[simp]
theorem proper_append {ns ms : List Number} : Proper (ns ++ ms) ↔ Proper ns ∧ Proper ms := by
  simp [Proper, or_imp, forall_and]

theorem proper_singleton {n : Number} : Proper [n] ↔ ∃ q, n.quantity? = some q := by
  simp [Proper, Option.isSome_iff_exists]

theorem proper_item {items : List SortKey} (h : Proper (numbersOfItems items)) :
    ∀ k ∈ items, Proper k.numbers := by
  induction items with
  | nil => simp
  | cons x xs ih =>
    rw [numbersOfItems, proper_append] at h
    exact List.forall_mem_cons.mpr ⟨h.1, ih h.2⟩

theorem proper_entry {entries : List (String × SortKey)} (h : Proper (numbersOfEntries entries)) :
    ∀ e ∈ entries, Proper e.2.numbers := by
  induction entries with
  | nil => simp
  | cons x xs ih =>
    rw [numbersOfEntries, proper_append] at h
    exact List.forall_mem_cons.mpr ⟨h.1, ih h.2⟩

theorem within_numbers {n m : Number} {p q : Quantity} (hn : n.quantity? = some p)
    (hm : m.quantity? = some q) : within (number n) (number m) = some (p.order q) := by
  simp only [within, Standing.ofNumbers, hn, hm]

theorem chains_times (t u v : DateTime) :
    Verdict.Chains (t.compare? u) (u.compare? v) (t.compare? v) := by
  simp only [DateTime.compare?]
  by_cases htu : t.isAware = u.isAware
  · by_cases huv : u.isAware = v.isAware
    · simp only [htu, huv, if_true]
      exact Verdict.chains_of_transCmp _ _ _
    · rw [htu]
      simp only [huv, if_true, if_false]
      exact ⟨fun _ => rfl, by simp⟩
  · simp only [htu, if_false]
    exact ⟨by simp, by simp⟩

def Consistent (a : SortKey) : Prop :=
  ∀ b c, Proper a.numbers → Proper b.numbers → Proper c.numbers →
    Verdict.Chains (compare? a b) (compare? b c) (compare? a c)

theorem chains_items {xs ys zs : List SortKey} (h : ∀ k ∈ xs, Consistent k)
    (hx : Proper (numbersOfItems xs)) (hy : Proper (numbersOfItems ys))
    (hz : Proper (numbersOfItems zs)) :
    Verdict.Chains (compareItems? xs ys) (compareItems? ys zs) (compareItems? xs zs) := by
  simp only [compareItems?_eq]
  exact Verdict.chains_lex fun a ha b hb c hc =>
    h a ha b c (proper_item hx a ha) (proper_item hy b hb) (proper_item hz c hc)

theorem chains_entries {xs ys zs : List (String × SortKey)} (h : ∀ e ∈ xs, Consistent e.2)
    (hx : Proper (numbersOfEntries xs)) (hy : Proper (numbersOfEntries ys))
    (hz : Proper (numbersOfEntries zs)) :
    Verdict.Chains (compareEntries? xs ys) (compareEntries? ys zs) (compareEntries? xs zs) := by
  simp only [compareEntries?_eq]
  refine Verdict.chains_lex fun a ha b hb c hc => ?_
  refine (Verdict.chains_of_transCmp a.1 b.1 c.1).next fun _ _ => ?_
  exact h a ha b.2 c.2 (proper_entry hx a ha) (proper_entry hy b hb) (proper_entry hz c hc)

inductive Alike : SortKey → SortKey → Prop
  | null : Alike null null
  | number (n m : Number) : Alike (number n) (number m)
  | text (s t : String) : Alike (text s) (text t)
  | mapping (xs ys : List (String × SortKey)) : Alike (mapping xs) (mapping ys)
  | list (xs ys : List SortKey) : Alike (list xs) (list ys)
  | bool (a b : Bool) : Alike (bool a) (bool b)
  | datetime (t u : DateTime) : Alike (datetime t) (datetime u)
  | other (s t : String) : Alike (other s) (other t)

theorem alike_of_rank {a b : SortKey} (h : a.rank = b.rank) : Alike a b := by
  cases a <;> cases b <;> simp [rank] at h <;> constructor

/-- Keys of different ranks are compared by rank, so that only keys of one rank are left. -/
theorem consistent_of_within {a : SortKey}
    (h : ∀ b c, Alike a b → Alike b c → Proper a.numbers → Proper b.numbers → Proper c.numbers →
      Verdict.Chains (within a b) (within b c) (within a c)) : a.Consistent := by
  intro b c ha hb hc
  rw [compare?_eq a b, compare?_eq b c, compare?_eq a c]
  refine (Verdict.chains_of_transCmp a.rank b.rank c.rank).next fun hab hbc => ?_
  simp only [Option.some.injEq, Std.LawfulEqCmp.compare_eq_iff_eq] at hab hbc
  exact h b c (alike_of_rank hab) (alike_of_rank hbc) ha hb hc

theorem consistent (a : SortKey) : a.Consistent := by
  -- Chains of ranks are those of numbers, so that only three keys of one rank are left.
  induction a using byParts with
  | null =>
    refine consistent_of_within fun b c hab hbc _ _ _ => ?_
    cases hab
    cases hbc
    exact ⟨fun _ => rfl, by simp [within]⟩
  | number n =>
    refine consistent_of_within fun b c hab hbc ha hb hc => ?_
    cases hab
    cases hbc
    obtain ⟨p, hp⟩ := proper_singleton.mp ha
    obtain ⟨q, hq⟩ := proper_singleton.mp hb
    obtain ⟨r, hr⟩ := proper_singleton.mp hc
    rw [within_numbers hp hq, within_numbers hq hr, within_numbers hp hr]
    exact Verdict.chains_of_transCmp _ _ _
  | mapping entries ih =>
    refine consistent_of_within fun b c hab hbc ha hb hc => ?_
    cases hab
    cases hbc
    exact chains_entries ih ha hb hc
  | list items ih =>
    refine consistent_of_within fun b c hab hbc ha hb hc => ?_
    cases hab
    cases hbc
    exact chains_items ih ha hb hc
  | datetime t =>
    refine consistent_of_within fun b c hab hbc _ _ _ => ?_
    cases hab
    cases hbc
    exact chains_times _ _ _
  | _ =>
    refine consistent_of_within fun b c hab hbc _ _ _ => ?_
    cases hab
    cases hbc
    exact Verdict.chains_of_transCmp _ _ _

theorem compareItems?_swap {xs ys : List SortKey}
    (h : ∀ k ∈ xs, ∀ b, compare? b k = (compare? k b).map Ordering.swap) :
    compareItems? ys xs = (compareItems? xs ys).map Ordering.swap := by
  rw [compareItems?_eq, compareItems?_eq, Verdict.lex_swap h]

theorem compareEntries?_swap {xs ys : List (String × SortKey)}
    (h : ∀ e ∈ xs, ∀ b, compare? b e.2 = (compare? e.2 b).map Ordering.swap) :
    compareEntries? ys xs = (compareEntries? xs ys).map Ordering.swap := by
  rw [compareEntries?_eq, compareEntries?_eq]
  refine Verdict.lex_swap fun e he f => ?_
  rw [entryVerdict, entryVerdict, Verdict.map_swap_next, h e he f.2, Option.map_some,
    Std.OrientedOrd.eq_swap (a := f.1)]

theorem within_numbers_swap (n m : Number) :
    within (number m) (number n) = (within (number n) (number m)).map Ordering.swap := by
  -- Without a quantity on both sides there is no difference, in either direction.
  have hnone (b : Bool) : (match if b then Standing.undefined else .unordered with
      | .ordered o => some o
      | _ => some .eq) = (some .eq : Verdict) := by
    cases b <;> rfl
  simp only [within, Standing.ofNumbers]
  cases n.quantity? with
  | none => cases m.quantity? <;> simp only [hnone] <;> rfl
  | some p =>
    cases m.quantity? with
    | none => simp only [hnone]; rfl
    | some q => exact congrArg some (Quantity.order_swap q p)

theorem compare?_times_swap (t u : DateTime) :
    u.compare? t = (t.compare? u).map Ordering.swap := by
  simp only [DateTime.compare?]
  by_cases h : t.isAware = u.isAware
  · simp only [h, if_true]
    exact congrArg some Std.OrientedCmp.eq_swap
  · simp only [h, Ne.symm h, if_false]
    rfl

theorem compare?_swap_of_within {a : SortKey}
    (h : ∀ b, Alike a b → within b a = (within a b).map Ordering.swap) (b : SortKey) :
    compare? b a = (compare? a b).map Ordering.swap := by
  rw [compare?_eq a b, compare?_eq b a, Verdict.map_swap_next, Option.map_some,
    ← Std.OrientedCmp.eq_swap]
  refine Verdict.next_congr fun hr => h b (alike_of_rank ?_)
  exact (Std.LawfulEqCmp.compare_eq_iff_eq.mp (Option.some.inj hr)).symm

theorem compare?_swap (a b : SortKey) : compare? b a = (compare? a b).map Ordering.swap := by
  induction a using byParts generalizing b with
  | null =>
    refine compare?_swap_of_within (fun b h => ?_) b
    cases h
    rfl
  | number n =>
    refine compare?_swap_of_within (fun b h => ?_) b
    cases h
    exact within_numbers_swap _ _
  | mapping entries ih =>
    refine compare?_swap_of_within (fun b h => ?_) b
    cases h
    exact compareEntries?_swap ih
  | list items ih =>
    refine compare?_swap_of_within (fun b h => ?_) b
    cases h
    exact compareItems?_swap ih
  | datetime t =>
    refine compare?_swap_of_within (fun b h => ?_) b
    cases h
    exact compare?_times_swap _ _
  | _ =>
    refine compare?_swap_of_within (fun b h => ?_) b
    cases h
    exact congrArg some Std.OrientedOrd.eq_swap

theorem compareItems?_self {xs : List SortKey} (h : ∀ k ∈ xs, compare? k k = some .eq) :
    compareItems? xs xs = some .eq := by
  rw [compareItems?_eq, Verdict.lex_self h]

theorem compareEntries?_self {xs : List (String × SortKey)}
    (h : ∀ e ∈ xs, compare? e.2 e.2 = some .eq) : compareEntries? xs xs = some .eq := by
  rw [compareEntries?_eq]
  refine Verdict.lex_self fun e he => ?_
  rw [entryVerdict, h e he, Std.ReflOrd.compare_self]
  rfl

@[simp] theorem compare?_self (a : SortKey) : compare? a a = some .eq := by
  induction a using byParts with
  | null => rfl
  | number n =>
    simp only [compare?, Standing.ofNumbers]
    cases n.quantity? with
    | none => cases n.isDecimal <;> rfl
    | some q => exact congrArg some Std.ReflCmp.compare_self
  | mapping entries ih => exact compareEntries?_self ih
  | list items ih => exact compareItems?_self ih
  | datetime t => simp [compare?, DateTime.compare?]
  | _ => exact congrArg some Std.ReflCmp.compare_self

theorem isLE_trans {a b c : SortKey} (ha : Proper a.numbers) (hb : Proper b.numbers)
    (hc : Proper c.numbers) (hab : Verdict.isLE (compare? a b) = true)
    (hbc : Verdict.isLE (compare? b c) = true) : Verdict.isLE (compare? a c) = true :=
  (consistent a b c ha hb hc).isLE_trans hab hbc

theorem eq_symm {a b : SortKey} (h : compare? a b = some .eq) : compare? b a = some .eq := by
  rw [compare?_swap a b, h]
  rfl

theorem eq_trans {a b c : SortKey} (ha : Proper a.numbers) (hb : Proper b.numbers)
    (hc : Proper c.numbers) (hab : compare? a b = some .eq) (hbc : compare? b c = some .eq) :
    compare? a c = some .eq :=
  ((consistent a b c ha hb hc).same hab).trans hbc

/-! Keys whose points in time are of one kind can be compared. -/

/-- All points in time of a list are of the given kind. -/
def OfKind (aware : Bool) (ts : List DateTime) : Prop :=
  ∀ t ∈ ts, t.isAware = aware

instance (aware : Bool) (ts : List DateTime) : Decidable (OfKind aware ts) :=
  inferInstanceAs (Decidable (∀ t ∈ ts, t.isAware = aware))

@[simp] theorem ofKind_append {aware : Bool} {ts us : List DateTime} :
    OfKind aware (ts ++ us) ↔ OfKind aware ts ∧ OfKind aware us := by
  simp [OfKind, or_imp, forall_and]

variable {aware : Bool}

theorem ofKind_item {items : List SortKey} (h : OfKind aware (timesOfItems items)) :
    ∀ k ∈ items, OfKind aware k.times := by
  induction items with
  | nil => simp
  | cons x xs ih =>
    rw [timesOfItems, ofKind_append] at h
    exact List.forall_mem_cons.mpr ⟨h.1, ih h.2⟩

theorem ofKind_entry {entries : List (String × SortKey)}
    (h : OfKind aware (timesOfEntries entries)) : ∀ e ∈ entries, OfKind aware e.2.times := by
  induction entries with
  | nil => simp
  | cons x xs ih =>
    rw [timesOfEntries, ofKind_append] at h
    exact List.forall_mem_cons.mpr ⟨h.1, ih h.2⟩

theorem compareItems?_isSome {xs ys : List SortKey}
    (h : ∀ k ∈ xs, ∀ b, OfKind aware k.times → OfKind aware b.times → (compare? k b).isSome)
    (hx : OfKind aware (timesOfItems xs)) (hy : OfKind aware (timesOfItems ys)) :
    (compareItems? xs ys).isSome := by
  rw [compareItems?_eq]
  exact Verdict.isSome_lex fun a ha b hb =>
    h a ha b (ofKind_item hx a ha) (ofKind_item hy b hb)

theorem compareEntries?_isSome {xs ys : List (String × SortKey)}
    (h : ∀ e ∈ xs, ∀ b, OfKind aware e.2.times → OfKind aware b.times →
      (compare? e.2 b).isSome)
    (hx : OfKind aware (timesOfEntries xs)) (hy : OfKind aware (timesOfEntries ys)) :
    (compareEntries? xs ys).isSome := by
  rw [compareEntries?_eq]
  refine Verdict.isSome_lex fun a ha b hb => Verdict.isSome_next rfl ?_
  exact h a ha b.2 (ofKind_entry hx a ha) (ofKind_entry hy b hb)

theorem compare?_isSome (a b : SortKey) (ha : OfKind aware a.times) (hb : OfKind aware b.times) :
    (compare? a b).isSome := by
  -- Different ranks decide, so that only keys of one rank are left.
  have hranks {a b : SortKey} (h : Alike a b → (within a b).isSome) : (compare? a b).isSome := by
    rw [compare?_eq]
    by_cases hr : a.rank = b.rank
    · exact Verdict.isSome_next rfl (h (alike_of_rank hr))
    · have hne : (some (compare a.rank b.rank) : Verdict) ≠ some .eq := by
        simpa [Std.LawfulEqCmp.compare_eq_iff_eq] using hr
      rw [Verdict.next_of_ne hne]
      rfl
  induction a using byParts generalizing b with
  | number n =>
    refine hranks fun h => ?_
    cases h
    simp only [within]
    split <;> rfl
  | mapping entries ih =>
    refine hranks fun h => ?_
    cases h
    exact compareEntries?_isSome (fun e he b => ih e he b) ha hb
  | list items ih =>
    refine hranks fun h => ?_
    cases h
    exact compareItems?_isSome (fun k hk b => ih k hk b) ha hb
  | datetime t =>
    refine hranks fun h => ?_
    cases h with | datetime t u
    have hsame : t.isAware = u.isAware :=
      (ha t (by simp [times])).trans (hb u (by simp [times])).symm
    simp [within, DateTime.compare?, hsame]
  | _ =>
    refine hranks fun h => ?_
    cases h
    rfl

end SortKey

end DocGrid

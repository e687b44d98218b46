import DocGrid.Proofs.Order.Values

/-! The order of values of all kinds as a total preorder. At the first place where two values are
told apart the kinds decide, and the ties are the values that are grouped together. -/

namespace DocGrid

namespace SortKey

mutual

/-- Equality of keys part by part: numbers by their worth, points in time by where they stand. -/
def same : SortKey → SortKey → Bool
  | null, null => true
  | number n, number m => n.same m
  | text s, text t => s == t
  | mapping xs, mapping ys => sameEntries xs ys
  | list xs, list ys => sameItems xs ys
  | bool a, bool b => a == b
  | datetime t, datetime u => t.same u
  | other s, other t => s == t
  | _, _ => false

def sameItems : List SortKey → List SortKey → Bool
  | [], [] => true
  | x :: xs, y :: ys => same x y && sameItems xs ys
  | _, _ => false

def sameEntries : List (String × SortKey) → List (String × SortKey) → Bool
  | [], [] => true
  | (k, x) :: xs, (l, y) :: ys => k == l && same x y && sameEntries xs ys
  | _, _ => false

end

theorem compare?_of_rank_lt {a b : SortKey} (h : a.rank < b.rank) : compare? a b = some .lt := by
  have hlt : (some (compare a.rank b.rank) : Verdict) = some .lt :=
    congrArg some (Nat.compare_eq_lt.mpr h)
  rw [compare?_eq, hlt]
  rfl

theorem compareItems?_append {ps qs : List SortKey} (h : compareItems? ps qs = some .eq)
    (xs ys : List SortKey) : compareItems? (ps ++ xs) (qs ++ ys) = compareItems? xs ys := by
  rw [compareItems?_eq] at h
  rw [compareItems?_eq, compareItems?_eq, Verdict.lex_append h]

theorem compareEntries?_append {ps qs : List (String × SortKey)}
    (h : compareEntries? ps qs = some .eq) (xs ys : List (String × SortKey)) :
    compareEntries? (ps ++ xs) (qs ++ ys) = compareEntries? xs ys := by
  rw [compareEntries?_eq] at h
  rw [compareEntries?_eq, compareEntries?_eq, Verdict.lex_append h]

end SortKey

namespace Value

theorem sameItems_sortKeys {xs ys : List Value}
    (h : ∀ v ∈ xs, ∀ w : Value, v.sortKey.same w.sortKey = v.sameGroup w) :
    SortKey.sameItems (sortKeys xs) (sortKeys ys) = sameGroupItems xs ys := by
  induction xs generalizing ys with
  | nil => cases ys <;> rfl
  | cons x xs ih =>
    cases ys with
    | nil => rfl
    | cons y ys =>
      rw [sortKeys, sortKeys, SortKey.sameItems, sameGroupItems, h x (by simp) y,
        ih fun v hv => h v (List.mem_cons_of_mem _ hv)]

theorem sameEntries_entrySortKeys {xs ys : List (String × Value)}
    (h : ∀ e ∈ xs, ∀ w : Value, e.2.sortKey.same w.sortKey = e.2.sameGroup w) :
    SortKey.sameEntries (entrySortKeys xs) (entrySortKeys ys) = sameGroupEntries xs ys := by
  induction xs generalizing ys with
  | nil => cases ys <;> rfl
  | cons x xs ih =>
    cases ys with
    | nil => rfl
    | cons y ys =>
      obtain ⟨⟨k, x⟩, ⟨l, y⟩⟩ := x, y
      rw [entrySortKeys, entrySortKeys, SortKey.sameEntries, sameGroupEntries,
        h (k, x) (by simp) y, ih fun e he => h e (List.mem_cons_of_mem _ he)]

theorem same_sortKey (v w : Value) : v.sortKey.same w.sortKey = v.sameGroup w := by
  induction v using byParts generalizing w with
  | date d =>
    cases w with
    | date e =>
      have htext : d.text = e.text ↔ d = e :=
        ⟨CalendarDate.text_injective, congrArg CalendarDate.text⟩
      rw [sortKey, sortKey, SortKey.same, sameGroup, Bool.eq_iff_iff, beq_iff_eq, beq_iff_eq, htext]
    | _ => rfl
  | list items ih =>
    cases w with
    | list _ => exact sameItems_sortKeys ih
    | _ => rfl
  | mapping entries ih =>
    cases w with
    | mapping _ => exact sameEntries_entrySortKeys ih
    | _ => rfl
  | _ => cases w <;> rfl

@[simp] theorem sortKeys_append (xs ys : List Value) :
    sortKeys (xs ++ ys) = sortKeys xs ++ sortKeys ys := by
  induction xs with
  | nil => rfl
  | cons x xs ih => rw [List.cons_append, sortKeys, ih, sortKeys, List.cons_append]

@[simp] theorem entrySortKeys_append (xs ys : List (String × Value)) :
    entrySortKeys (xs ++ ys) = entrySortKeys xs ++ entrySortKeys ys := by
  induction xs with
  | nil => rfl
  | cons x xs ih => rw [List.cons_append, entrySortKeys, ih, entrySortKeys, List.cons_append]

/-- Where a value stands by its kind alone. -/
def rank : Value → Nat
  | null => 0
  | number _ => 1
  | text _ => 2
  | mapping _ => 3
  | list _ => 4
  | bool _ => 5
  | datetime _ => 6
  | date _ => 7

theorem rank_sortKey (v : Value) : v.sortKey.rank = v.rank := by
  cases v <;> rfl

/-- The parts `a` and `b` stand at one place in two values that are one value up to that place. -/
inductive MeetAt : Value → Value → Value → Value → Prop
  | here (a b : Value) : MeetAt a b a b
  | item {ps qs xs ys : List Value} {v w a b : Value} (before : sameGroupItems ps qs = true)
      (meet : MeetAt v w a b) : MeetAt (list (ps ++ v :: xs)) (list (qs ++ w :: ys)) a b
  | entry {ps qs xs ys : Document} {k : String} {v w a b : Value}
      (before : sameGroupEntries ps qs = true) (meet : MeetAt v w a b) :
      MeetAt (mapping (ps ++ (k, v) :: xs)) (mapping (qs ++ (k, w) :: ys)) a b

/-- The first parts that are told apart decide. -/
theorem compare?_meetAt {v w a b : Value} (hv : SortKey.Proper v.numbers)
    (hw : SortKey.Proper w.numbers) (h : MeetAt v w a b)
    (hne : SortKey.compare? a.sortKey b.sortKey ≠ some .eq) :
    SortKey.compare? v.sortKey w.sortKey = SortKey.compare? a.sortKey b.sortKey := by
  -- What comes before the place is equal, so that the comparison gets there and no further.
  induction h with
  | here a b => rfl
  | @item ps qs xs ys v w a b before _ ih =>
    rw [numbers, numbersOfItems_eq, List.flatMap_append, SortKey.proper_append,
      ← numbersOfItems_eq, List.flatMap_cons, SortKey.proper_append] at hv hw
    have hparts := ih hv.2.1 hw.2.1 hne
    rw [← hparts] at hne ⊢
    have hbefore : SortKey.compareItems? (sortKeys ps) (sortKeys qs) = some .eq :=
      (sameGroupItems_iff (fun v _ w => Value.sameGroup_iff v w) hv.1 hw.1).mp before
    calc SortKey.compareItems? (sortKeys (ps ++ v :: xs)) (sortKeys (qs ++ w :: ys))
      _ = SortKey.compareItems? (sortKeys (v :: xs)) (sortKeys (w :: ys)) := by
        rw [sortKeys_append, sortKeys_append, SortKey.compareItems?_append hbefore]
      _ = SortKey.compare? v.sortKey w.sortKey := by
        rw [sortKeys, sortKeys, SortKey.compareItems?_cons, Verdict.next_of_ne hne]
  | @entry ps qs xs ys k v w a b before _ ih =>
    rw [numbers, numbersOfEntries_eq, List.flatMap_append, SortKey.proper_append,
      ← numbersOfEntries_eq, List.flatMap_cons, SortKey.proper_append] at hv hw
    have hparts := ih hv.2.1 hw.2.1 hne
    rw [← hparts] at hne ⊢
    have hbefore : SortKey.compareEntries? (entrySortKeys ps) (entrySortKeys qs) = some .eq :=
      (sameGroupEntries_iff (fun e _ w => Value.sameGroup_iff e.2 w) hv.1 hw.1).mp before
    calc SortKey.compareEntries? (entrySortKeys (ps ++ (k, v) :: xs))
          (entrySortKeys (qs ++ (k, w) :: ys))
      _ = SortKey.compareEntries? (entrySortKeys ((k, v) :: xs))
          (entrySortKeys ((k, w) :: ys)) := by
        rw [entrySortKeys_append, entrySortKeys_append, SortKey.compareEntries?_append hbefore]
      _ = SortKey.compare? v.sortKey w.sortKey := by
        rw [entrySortKeys, entrySortKeys, SortKey.compareEntries?_cons, Std.ReflOrd.compare_self]
        exact Verdict.next_of_ne hne

/-- The first place where two values are told apart has points in time on both sides, only one of
which says where it stands to universal time. -/
def Clash (v w : Value) : Prop :=
  ∃ t u, MeetAt v w (datetime t) (datetime u) ∧ t.isAware ≠ u.isAware

theorem clash_items {xs ys : List Value}
    (h : ∀ v ∈ xs, ∀ w, SortKey.Proper v.numbers → SortKey.Proper w.numbers →
      SortKey.compare? v.sortKey w.sortKey = none → Clash v w)
    (hx : SortKey.Proper (numbersOfItems xs)) (hy : SortKey.Proper (numbersOfItems ys))
    (hnone : SortKey.compareItems? (sortKeys xs) (sortKeys ys) = none) :
    ∃ ps qs xs' ys' v w, xs = ps ++ v :: xs' ∧ ys = qs ++ w :: ys' ∧
      sameGroupItems ps qs = true ∧ Clash v w := by
  induction xs generalizing ys with
  | nil => cases ys <;> cases hnone
  | cons x xs ih =>
    cases ys with
    | nil => cases hnone
    | cons y ys =>
      rw [numbersOfItems, SortKey.proper_append] at hx hy
      rw [sortKeys, sortKeys, SortKey.compareItems?_cons, Verdict.next_eq_none_iff] at hnone
      rcases hnone with hfirst | ⟨hfirst, hrest⟩
      · exact ⟨[], [], xs, ys, x, y, rfl, rfl, rfl, h x List.mem_cons_self y hx.1 hy.1 hfirst⟩
      · have hsame := (Value.sameGroup_iff x y hx.1 hy.1).mpr hfirst
        obtain ⟨ps, qs, xs', ys', v, w, rfl, rfl, hbefore, hclash⟩ :=
          ih (fun v hv => h v (List.mem_cons_of_mem _ hv)) hx.2 hy.2 hrest
        exact ⟨x :: ps, y :: qs, xs', ys', v, w, rfl, rfl,
          Bool.and_eq_true_iff.mpr ⟨hsame, hbefore⟩, hclash⟩

theorem clash_entries {xs ys : Document}
    (h : ∀ e ∈ xs, ∀ w, SortKey.Proper e.2.numbers → SortKey.Proper w.numbers →
      SortKey.compare? e.2.sortKey w.sortKey = none → Clash e.2 w)
    (hx : SortKey.Proper (numbersOfEntries xs)) (hy : SortKey.Proper (numbersOfEntries ys))
    (hnone : SortKey.compareEntries? (entrySortKeys xs) (entrySortKeys ys) = none) :
    ∃ ps qs xs' ys' k v w, xs = ps ++ (k, v) :: xs' ∧ ys = qs ++ (k, w) :: ys' ∧
      sameGroupEntries ps qs = true ∧ Clash v w := by
  induction xs generalizing ys with
  | nil => cases ys <;> cases hnone
  | cons x xs ih =>
    cases ys with
    | nil => cases hnone
    | cons y ys =>
      obtain ⟨⟨k, x⟩, ⟨l, y⟩⟩ := x, y
      rw [numbersOfEntries, SortKey.proper_append] at hx hy
      rw [entrySortKeys, entrySortKeys, SortKey.compareEntries?_cons] at hnone
      obtain ⟨hkey, hvalues⟩ :=
        (Verdict.next_eq_none_iff.mp hnone).resolve_left (Option.some_ne_none _)
      obtain rfl : k = l := Std.LawfulEqCmp.compare_eq_iff_eq.mp (Option.some.inj hkey)
      rcases Verdict.next_eq_none_iff.mp hvalues with hfirst | ⟨hfirst, hrest⟩
      · exact ⟨[], [], xs, ys, k, x, y, rfl, rfl, rfl,
          h (k, x) List.mem_cons_self y hx.1 hy.1 hfirst⟩
      · have hsame := (Value.sameGroup_iff x y hx.1 hy.1).mpr hfirst
        obtain ⟨ps, qs, xs', ys', l, v, w, rfl, rfl, hbefore, hclash⟩ :=
          ih (fun e he => h e (List.mem_cons_of_mem _ he)) hx.2 hy.2 hrest
        exact ⟨(k, x) :: ps, (k, y) :: qs, xs', ys', l, v, w, rfl, rfl,
          by simp [sameGroupEntries, hsame, hbefore], hclash⟩

theorem clash_of_compare? (v w : Value) (hv : SortKey.Proper v.numbers)
    (hw : SortKey.Proper w.numbers) (h : SortKey.compare? v.sortKey w.sortKey = none) :
    Clash v w := by
  induction v using byParts generalizing w with
  | datetime t =>
    cases w with
    | datetime u =>
      refine ⟨t, u, .here _ _, fun haware => ?_⟩
      have hsome : t.compare? u = none := h
      simp [DateTime.compare?, haware] at hsome
    | _ => cases h
  | list items ih =>
    cases w with
    | list others =>
      obtain ⟨ps, qs, xs, ys, v, w, rfl, rfl, hbefore, t, u, hmeet, hkinds⟩ :=
        clash_items ih hv hw h
      exact ⟨t, u, .item hbefore hmeet, hkinds⟩
    | _ => cases h
  | mapping entries ih =>
    cases w with
    | mapping others =>
      obtain ⟨ps, qs, xs, ys, k, v, w, rfl, rfl, hbefore, t, u, hmeet, hkinds⟩ :=
        clash_entries ih hv hw h
      exact ⟨t, u, .entry hbefore hmeet, hkinds⟩
    | _ => cases h
  | number n =>
    cases w with
    | number m =>
      obtain ⟨p, hp⟩ := SortKey.proper_singleton.mp hv
      obtain ⟨q, hq⟩ := SortKey.proper_singleton.mp hw
      have hsome := (SortKey.within_numbers hp hq).symm.trans h
      cases hsome
    | _ => cases h
  | _ => cases w <;> cases h

/-- Values without NaN have no order exactly when they clash. -/
theorem compare?_eq_none_iff {v w : Value} (hv : SortKey.Proper v.numbers)
    (hw : SortKey.Proper w.numbers) :
    SortKey.compare? v.sortKey w.sortKey = none ↔ Clash v w := by
  refine ⟨clash_of_compare? v w hv hw, fun ⟨t, u, hmeet, hkinds⟩ => ?_⟩
  have hnone : SortKey.compare? (datetime t).sortKey (datetime u).sortKey = none := if_neg hkinds
  rw [compare?_meetAt hv hw hmeet (by simp [hnone]), hnone]

namespace Orderly

variable {aware : Bool} {u v w a b : Value}

theorem compare?_of_rank_lt (hv : v.Orderly aware) (hw : w.Orderly aware) (h : MeetAt v w a b)
    (hrank : a.rank < b.rank) : SortKey.compare? v.sortKey w.sortKey = some .lt := by
  have hab : SortKey.compare? a.sortKey b.sortKey = some .lt := by
    apply SortKey.compare?_of_rank_lt
    rwa [rank_sortKey, rank_sortKey]
  rw [compare?_meetAt hv.proper hw.proper h (by simp [hab]), hab]

theorem sortKey_preorder (hu : u.Orderly aware) (hv : v.Orderly aware) (hw : w.Orderly aware) :
    (SortKey.compare? v.sortKey w.sortKey).isSome ∧
    Verdict.isLE (SortKey.compare? v.sortKey v.sortKey) = true ∧
    (Verdict.isLE (SortKey.compare? u.sortKey v.sortKey) = true →
      Verdict.isLE (SortKey.compare? v.sortKey w.sortKey) = true →
      Verdict.isLE (SortKey.compare? u.sortKey w.sortKey) = true) ∧
    (Verdict.isLE (SortKey.compare? v.sortKey w.sortKey) = true ∨
      Verdict.isLE (SortKey.compare? w.sortKey v.sortKey) = true) ∧
    (∀ a b, MeetAt v w a b → a.rank < b.rank →
      SortKey.compare? v.sortKey w.sortKey = some .lt) ∧
    (SortKey.compare? v.sortKey w.sortKey = some .eq ↔ v.sortKey.same w.sortKey = true) ∧
    (v.sortKey.same w.sortKey = true ↔ v.sameGroup w = true) := by
  have hsome := hv.compare?_isSome hw
  have hsame := same_sortKey v w
  refine ⟨hsome, ?_, ?_, ?_, fun a b => hv.compare?_of_rank_lt hw, ?_, by rw [hsame]⟩
  · rw [SortKey.compare?_self]
    rfl
  · exact SortKey.isLE_trans hu.proper_sortKey hv.proper_sortKey hw.proper_sortKey
  · have htotal := Verdict.isLE_or_isLE_swap hsome
    rwa [← SortKey.compare?_swap, Bool.or_eq_true] at htotal
  · rw [hsame, hv.sameGroup_iff hw]

theorem sortKey_preorder_nested :
    SortKey.compare?
      (list [number (.decimal (.finite false 100 (-2))), mapping [("k", bool true)]]).sortKey
      (list [number (.int 1),
        mapping [("k", datetime ⟨⟨2024, 1, 2⟩, 3, 4, 5, 0, none⟩)]]).sortKey = some .lt := by
  have hnull : (list [null]).Orderly false := by decide
  have hleft : (list [number (.decimal (.finite false 100 (-2))),
      mapping [("k", bool true)]]).Orderly false := by decide +kernel
  have hright : (list [number (.int 1),
      mapping [("k", datetime ⟨⟨2024, 1, 2⟩, 3, 4, 5, 0, none⟩)]]).Orderly false := by decide
  have hkinds := (sortKey_preorder hnull hleft hright).2.2.2.2.1
  have hinside := @MeetAt.entry [] [] [] [] "k" _ _ _ _ rfl (.here (bool true)
    (datetime ⟨⟨2024, 1, 2⟩, 3, 4, 5, 0, none⟩))
  exact hkinds _ _ (@MeetAt.item [_] [_] [] [] _ _ _ _ (by decide +kernel) hinside)
    (Nat.lt_add_one 5)

end Orderly

end Value

end DocGrid

import DocGrid.Order.Sorting
import DocGrid.Proofs.Order.Keys
import Mathlib.Data.List.Basic

/-! Stable sorts by a comparison that may fail. One pass for each key, from the last to the first,
sorts by all keys together. -/

namespace DocGrid

section MergeSort

variable {α : Type} {le : α → α → Bool} {xs : List α}

theorem map_mergeSort_attach (le : α → α → Bool) (xs : List α) :
    (xs.attach.mergeSort fun a b => le a.1 b.1).map Subtype.val = xs.mergeSort le := by
  rw [List.map_mergeSort (s := le) fun _ _ _ _ => rfl, List.attach_map_subtype_val]

variable (htrans : ∀ a ∈ xs, ∀ b ∈ xs, ∀ c ∈ xs, le a b = true → le b c = true → le a c = true)
  (htotal : ∀ a ∈ xs, ∀ b ∈ xs, (le a b || le b a) = true)

include htrans htotal

/-- The order need only be one on the items of the list. -/
theorem pairwise_mergeSort_of_mem : (xs.mergeSort le).Pairwise fun a b => le a b = true := by
  have htrans' (a b c : {x // x ∈ xs}) : le a b = true → le b c = true → le a c = true :=
    htrans a a.2 b b.2 c c.2
  have htotal' (a b : {x // x ∈ xs}) : (le a b || le b a) = true := htotal a a.2 b b.2
  rw [← map_mergeSort_attach, List.pairwise_map]
  exact List.pairwise_mergeSort htrans' htotal' _

theorem sublist_mergeSort_of_mem {ys : List α} (hy : ys.Pairwise fun a b => le a b = true)
    (hsub : ys.Sublist xs) : ys.Sublist (xs.mergeSort le) := by
  have htrans' (a b c : {x // x ∈ xs}) : le a b = true → le b c = true → le a c = true :=
    htrans a a.2 b b.2 c c.2
  have htotal' (a b : {x // x ∈ xs}) : (le a b || le b a) = true := htotal a a.2 b b.2
  obtain ⟨ys', hsub', rfl⟩ : ∃ ys' : List {x // x ∈ xs}, ys'.Sublist xs.attach ∧
      ys = ys'.map Subtype.val := by
    rwa [← List.sublist_map_iff, List.attach_map_subtype_val]
  rw [← map_mergeSort_attach]
  exact (List.sublist_mergeSort htrans' htotal' (List.pairwise_map.mp hy) hsub').map _

end MergeSort

/-- The items in ascending order, where those that the comparison does not tell apart stand as they
stood. -/
structure IsStableSort {α : Type} (verdict : α → α → Verdict) (xs ys : List α) : Prop where
  perm : ys.Perm xs
  ascending : ys.Pairwise fun a b => (verdict a b).isLE = true
  stable : ∀ x ∈ xs, (ys.filter fun y => verdict x y == some .eq) =
    xs.filter fun y => verdict x y == some .eq

namespace IsStableSort

variable {α : Type} {first second : α → α → Verdict} {xs ys zs : List α}

theorem refl (xs : List α) : IsStableSort (fun _ _ => some .eq) xs xs :=
  ⟨.refl xs, List.pairwise_of_forall fun _ _ => rfl, fun _ _ => rfl⟩

theorem next (hy : IsStableSort second xs ys) (hz : IsStableSort first ys zs)
    (hself : ∀ x ∈ xs, first x x = some .eq) :
    IsStableSort (fun a b => (first a b).next (second a b)) xs zs := by
  have hperm := hz.perm.trans hy.perm
  refine ⟨hperm, List.pairwise_iff_forall_sublist.mpr ?_, fun x hx => ?_⟩
  · intro a b hab
    have ha : a ∈ zs := hab.subset (by simp)
    have hle := List.pairwise_iff_forall_sublist.mp hz.ascending hab
    rcases hv : first a b with _ | _ | _ | _
    · simp [hv, Verdict.isLE] at hle
    · rfl
    · -- Items that the first comparison does not tell apart stand as in the middle list.
      have htied : [a, b].Sublist (zs.filter fun y => first a y == some .eq) := by
        simpa [hself a (hperm.mem_iff.mp ha), hv] using
          hab.filter fun y => first a y == some .eq
      rw [hz.stable a (hz.perm.mem_iff.mp ha)] at htied
      exact List.pairwise_iff_forall_sublist.mp hy.ascending (htied.trans List.filter_sublist)
    · simp [hv, Verdict.isLE, Ordering.isLE] at hle
  · have htie (y : α) : ((first x y).next (second x y) == some .eq) =
        ((first x y == some .eq) && (second x y == some .eq)) := by
      rcases first x y with _ | _ | _ | _ <;> rfl
    have htie' (y : α) : ((first x y).next (second x y) == some .eq) =
        ((second x y == some .eq) && (first x y == some .eq)) := by
      rw [htie, Bool.and_comm]
    calc zs.filter (fun y => (first x y).next (second x y) == some .eq)
        = (zs.filter fun y => first x y == some .eq).filter fun y => second x y == some .eq := by
          simp only [htie', List.filter_filter]
      _ = (ys.filter fun y => second x y == some .eq).filter fun y => first x y == some .eq := by
          simp only [hz.stable x (hy.perm.mem_iff.mpr hx), List.filter_filter, Bool.and_comm]
      _ = xs.filter fun y => (first x y).next (second x y) == some .eq := by
          simp only [hy.stable x hx, List.filter_filter, htie]

end IsStableSort

section SortByKey

variable {α : Type} {key : α → SortKey} {descending : Bool} {xs ys : List α}

/-- How two items stand to each other when they are sorted by a key. -/
def keyVerdict (key : α → SortKey) (descending : Bool) (a b : α) : Verdict :=
  if descending then SortKey.compare? (key b) (key a) else SortKey.compare? (key a) (key b)

@[simp] theorem keyVerdict_eq_iff {a b : α} :
    keyVerdict key descending a b = some .eq ↔ SortKey.compare? (key a) (key b) = some .eq := by
  cases descending
  · rfl
  · exact ⟨SortKey.eq_symm, SortKey.eq_symm⟩

theorem keyVerdict_swap (a b : α) :
    keyVerdict key descending b a = (keyVerdict key descending a b).map Ordering.swap := by
  cases descending
  · exact SortKey.compare?_swap (key a) (key b)
  · exact SortKey.compare?_swap (key b) (key a)

theorem keyVerdict_chains {a b c : α} (ha : SortKey.Proper (key a).numbers)
    (hb : SortKey.Proper (key b).numbers) (hc : SortKey.Proper (key c).numbers) :
    Verdict.Chains (keyVerdict key descending a b) (keyVerdict key descending b c)
      (keyVerdict key descending a c) := by
  cases descending with
  | false => exact SortKey.consistent _ _ _ ha hb hc
  | true =>
    have hchains := SortKey.consistent _ _ _ hc hb ha
    refine ⟨fun hab => ?_, fun hab hbc => ?_⟩
    · have hsame := (SortKey.consistent _ _ _ ha hb hc).same (SortKey.eq_symm hab)
      exact (SortKey.compare?_swap _ _).trans
        ((congrArg _ hsame).trans (SortKey.compare?_swap _ _).symm)
    · rcases hbc with hbc | hbc
      · exact hchains.less hbc (.inl hab)
      · exact (hchains.same hbc).trans hab

theorem areComparable_iff {keys : List SortKey} : SortKey.areComparable keys = true ↔
    ∀ k ∈ keys, ∀ l ∈ keys, (SortKey.compare? k l).isSome := by
  induction keys with
  | nil => simp [SortKey.areComparable]
  | cons k rest ih =>
    have hswap (l : SortKey) : (SortKey.compare? l k).isSome = (SortKey.compare? k l).isSome := by
      rw [SortKey.compare?_swap k l, Option.isSome_map]
    simp only [SortKey.areComparable, Bool.and_eq_true, List.all_eq_true, ih,
      List.forall_mem_cons, SortKey.compare?_self, Option.isSome_some, true_and, hswap]
    constructor
    · exact fun ⟨hfirst, hrest⟩ => ⟨hfirst, fun l hl => ⟨hfirst l hl, hrest l hl⟩⟩
    · exact fun ⟨hfirst, hrest⟩ => ⟨hfirst, fun l hl => (hrest l hl).2⟩

theorem le_eq_isLE {a b : SortKey} (h : (SortKey.compare? a b).isSome) :
    a.le b = Verdict.isLE (SortKey.compare? a b) := by
  obtain ⟨o, ho⟩ := Option.isSome_iff_exists.mp h
  simp [SortKey.le, Verdict.isLE, ho]

theorem sortByKey?_of_comparable
    (h : ∀ a ∈ xs, ∀ b ∈ xs, (SortKey.compare? (key a) (key b)).isSome) :
    sortByKey? key descending xs =
      some (xs.mergeSort fun a b => (keyVerdict key descending a b).isLE) := by
  have hkeys : SortKey.areComparable ((xs.map fun x => (key x, x)).map (·.1)) = true := by
    simpa [areComparable_iff] using h
  have hkeyed : (xs.map fun x => (key x, x)).map (·.2) = xs := by
    rw [List.map_map]
    exact List.map_id xs
  simp only [sortByKey?, hkeys, if_true, Option.some.injEq]
  conv_rhs => rw [← hkeyed]
  refine List.map_mergeSort fun a ha b hb => ?_
  obtain ⟨x, hx, rfl⟩ := List.mem_map.mp ha
  obtain ⟨y, hy, rfl⟩ := List.mem_map.mp hb
  cases descending
  · exact le_eq_isLE (h x hx y hy)
  · exact le_eq_isLE (h y hy x hx)

theorem comparable_of_sortByKey? (h : sortByKey? key descending xs = some ys) :
    ∀ a ∈ xs, ∀ b ∈ xs, (SortKey.compare? (key a) (key b)).isSome := by
  simp only [sortByKey?, Option.ite_none_right_eq_some] at h
  simpa [areComparable_iff] using h.1

theorem perm_sortByKey? (h : sortByKey? key descending xs = some ys) : ys.Perm xs := by
  obtain rfl := Option.some.inj
    ((sortByKey?_of_comparable (comparable_of_sortByKey? h)).symm.trans h)
  exact List.mergeSort_perm _ _

theorem isStableSort_sortByKey? (h : sortByKey? key descending xs = some ys)
    (hp : ∀ x ∈ xs, SortKey.Proper (key x).numbers) :
    IsStableSort (keyVerdict key descending) xs ys := by
  have hcomp := comparable_of_sortByKey? h
  obtain rfl := Option.some.inj ((sortByKey?_of_comparable hcomp).symm.trans h)
  have htrans : ∀ a ∈ xs, ∀ b ∈ xs, ∀ c ∈ xs, (keyVerdict key descending a b).isLE = true →
      (keyVerdict key descending b c).isLE = true →
      (keyVerdict key descending a c).isLE = true := by
    intro a ha b hb c hc hab hbc
    cases descending with
    | false => exact SortKey.isLE_trans (hp a ha) (hp b hb) (hp c hc) hab hbc
    | true => exact SortKey.isLE_trans (hp c hc) (hp b hb) (hp a ha) hbc hab
  have htotal : ∀ a ∈ xs, ∀ b ∈ xs, ((keyVerdict key descending a b).isLE ||
      (keyVerdict key descending b a).isLE) = true := by
    intro a ha b hb
    obtain ⟨o, ho⟩ := Option.isSome_iff_exists.mp (hcomp a ha b hb)
    have hswap := SortKey.compare?_swap (key a) (key b)
    rw [ho] at hswap
    cases descending <;> cases o <;> simp [keyVerdict, ho, hswap, Verdict.isLE]
  refine ⟨List.mergeSort_perm _ _, pairwise_mergeSort_of_mem htrans htotal, fun x hx => ?_⟩
  -- The items that are tied with one are in order already, so that sorting keeps them so.
  have htied : (xs.filter fun y => keyVerdict key descending x y == some .eq).Pairwise
      fun a b => (keyVerdict key descending a b).isLE = true := by
    refine List.pairwise_of_forall_mem_list fun a ha b hb => ?_
    obtain ⟨ha, hxa⟩ := List.mem_filter.mp ha
    obtain ⟨hb, hxb⟩ := List.mem_filter.mp hb
    simp only [beq_iff_eq, keyVerdict_eq_iff] at hxa hxb
    exact Verdict.isLE_iff.mpr (.inr (keyVerdict_eq_iff.mpr
      (SortKey.eq_trans (hp a ha) (hp x hx) (hp b hb) (SortKey.eq_symm hxa) hxb)))
  have hsub := (sublist_mergeSort_of_mem htrans htotal htied List.filter_sublist).filter
    fun y => keyVerdict key descending x y == some .eq
  rw [List.filter_filter] at hsub
  simp only [Bool.and_self] at hsub
  exact (hsub.eq_of_length ((List.mergeSort_perm _ _).filter _).length_eq.symm).symm

end SortByKey

end DocGrid

import DocGrid.Proofs.Order.Values
import Mathlib.Algebra.BigOperators.Group.List.Basic
import Mathlib.Data.List.Forall2
import Mathlib.Data.List.Pairwise
import Mathlib.Algebra.Ring.Int.Defs

/-! The first occurrences of the values in a list. Values without NaN are parted into groups by them,
and in another order of the list they stand for the same groups. -/

namespace DocGrid.Value

/-- The values that are the same as no earlier one when grouping. -/
def firsts : List Value → List Value
  | [] => []
  | v :: rest => v :: (firsts rest).filter fun w => !v.sameGroup w

theorem firsts_concat (vs : List Value) (v : Value) :
    firsts (vs ++ [v]) = firsts vs ++ if vs.any (sameGroup · v) then [] else [v] := by
  induction vs with
  | nil => rfl
  | cons u vs ih =>
    rw [List.cons_append, firsts, ih, List.filter_append, firsts, List.cons_append, List.any_cons]
    by_cases huv : u.sameGroup v = true
    · rw [huv, Bool.true_or, if_pos rfl]
      split <;> simp [huv]
    · rw [Bool.not_eq_true] at huv
      rw [huv, Bool.false_or]
      split <;> simp [huv]

theorem firsts_sublist (vs : List Value) : (firsts vs).Sublist vs := by
  induction vs with
  | nil => exact .slnil
  | cons v vs ih => exact (List.filter_sublist.trans ih).cons_cons v

theorem mem_of_mem_firsts {vs : List Value} {v : Value} (h : v ∈ firsts vs) : v ∈ vs :=
  (firsts_sublist vs).subset h

theorem firsts_apart (vs : List Value) :
    (firsts vs).Pairwise fun v w => v.sameGroup w = false := by
  induction vs with
  | nil => exact .nil
  | cons v vs ih =>
    refine List.pairwise_cons.mpr ⟨fun w hw => ?_, ih.filter _⟩
    simpa using (List.mem_filter.mp hw).2

/-- The same when grouping, among values without NaN. -/
theorem sameGroup_trans {u v w : Value} (hu : SortKey.Proper u.numbers)
    (hv : SortKey.Proper v.numbers) (hw : SortKey.Proper w.numbers) (huv : u.sameGroup v = true)
    (hvw : v.sameGroup w = true) : u.sameGroup w = true := by
  rw [sameGroup_congr hu hv hw huv, hvw]

section Proper

variable {vs : List Value} (hproper : ∀ v ∈ vs, SortKey.Proper v.numbers)

include hproper

theorem exists_first {v : Value} (hv : v ∈ vs) : ∃ w ∈ firsts vs, w.sameGroup v = true := by
  induction vs with
  | nil => cases hv
  | cons u vs ih =>
    obtain ⟨hu, hvs⟩ := List.forall_mem_cons.mp hproper
    rcases List.mem_cons.mp hv with rfl | hv
    · exact ⟨v, List.mem_cons_self, sameGroup_self hu⟩
    · obtain ⟨w, hw, hwv⟩ := ih hvs hv
      by_cases huw : u.sameGroup w = true
      · have hw' := hvs w (mem_of_mem_firsts hw)
        exact ⟨u, List.mem_cons_self, sameGroup_trans hu hw' (hvs v hv) huw hwv⟩
      · refine ⟨w, List.mem_cons_of_mem _ (List.mem_filter.mpr ⟨hw, ?_⟩), hwv⟩
        simpa using huw

theorem any_firsts {v : Value} (hv : SortKey.Proper v.numbers) :
    (firsts vs).any (sameGroup · v) = vs.any (sameGroup · v) := by
  rw [Bool.eq_iff_iff, List.any_eq_true, List.any_eq_true]
  constructor
  · rintro ⟨u, hu, huv⟩
    exact ⟨u, mem_of_mem_firsts hu, huv⟩
  · rintro ⟨u, hu, huv⟩
    obtain ⟨w, hw, hwu⟩ := exists_first hproper hu
    have hw' := hproper w (mem_of_mem_firsts hw)
    exact ⟨w, hw, sameGroup_trans hw' (hproper u hu) hv hwu huv⟩

end Proper

/-! Groups that are apart from one another. -/

section Groups

variable {ids : List Value} (hproper : ∀ v ∈ ids, SortKey.Proper v.numbers)
  (hapart : ids.Pairwise fun v w => v.sameGroup w = false)

include hproper hapart

/-- No value belongs to two groups. -/
theorem one_group {v : Value} (hv : SortKey.Proper v.numbers) :
    ids.Pairwise fun u w => u.sameGroup v = true → w.sameGroup v = false := by
  refine hapart.imp_of_mem fun {u w} hu hw huw huv => ?_
  have hu' := hproper u hu
  have hw' := hproper w hw
  rw [sameGroup_comm, ← sameGroup_congr hu' hv hw' huv, huw]

theorem sum_group {v : Value} (hv : SortKey.Proper v.numbers)
    (hmem : ∃ u ∈ ids, u.sameGroup v = true) (n : Int) :
    (ids.map fun u => if u.sameGroup v then n else 0).sum = n := by
  have hone := one_group hproper hapart hv
  clear hproper hapart
  induction ids with
  | nil => simp at hmem
  | cons u ids ih =>
    obtain ⟨hfirst, hrest⟩ := List.pairwise_cons.mp hone
    rw [List.map_cons, List.sum_cons]
    by_cases huv : u.sameGroup v = true
    · have hzero : (ids.map fun w => if w.sameGroup v then n else 0) = ids.map fun _ => (0 : Int) :=
        List.map_congr_left fun w hw => by simp [hfirst w hw huv]
      rw [if_pos huv, hzero]
      simp
    · have hlater : ∃ w ∈ ids, w.sameGroup v = true := by
        obtain ⟨w, hw, hwv⟩ := hmem
        rcases List.mem_cons.mp hw with rfl | hw
        · exact absurd hwv huv
        · exact ⟨w, hw, hwv⟩
      rw [if_neg huv, ih hlater hrest, Int.zero_add]

/-- What is summed up group by group is summed up once. -/
theorem sum_groups {α : Type} {key : α → Value} {xs : List α} (amount : α → Int)
    (hkey : ∀ x ∈ xs, SortKey.Proper (key x).numbers)
    (hcover : ∀ x ∈ xs, ∃ u ∈ ids, u.sameGroup (key x) = true) :
    (ids.map fun u => ((xs.filter fun x => u.sameGroup (key x)).map amount).sum).sum =
      (xs.map amount).sum := by
  induction xs with
  | nil => simp
  | cons x xs ih =>
    obtain ⟨hx, hxs⟩ := List.forall_mem_cons.mp hkey
    obtain ⟨hmem, hcovers⟩ := List.forall_mem_cons.mp hcover
    have hsplit (u : Value) :
        (((x :: xs).filter fun y => u.sameGroup (key y)).map amount).sum =
          (if u.sameGroup (key x) then amount x else 0) +
            ((xs.filter fun y => u.sameGroup (key y)).map amount).sum := by
      rw [List.filter_cons]
      split <;> simp
    simp only [hsplit]
    rw [List.sum_map_add, sum_group hproper hapart hx hmem, ih hxs hcovers, List.map_cons,
      List.sum_cons]

end Groups

/-- Two lists of groups that stand for the same values match one to one. -/
theorem exists_matching {vs ws : List Value} (hvs : ∀ v ∈ vs, SortKey.Proper v.numbers)
    (hws : ∀ w ∈ ws, SortKey.Proper w.numbers)
    (hv : vs.Pairwise fun a b => a.sameGroup b = false)
    (hw : ws.Pairwise fun a b => a.sameGroup b = false)
    (hto : ∀ v ∈ vs, ∃ w ∈ ws, v.sameGroup w = true)
    (hback : ∀ w ∈ ws, ∃ v ∈ vs, v.sameGroup w = true) :
    ∃ matched, matched.Perm ws ∧
      List.Forall₂ (fun v w => v.sameGroup w = true) vs matched := by
  induction vs generalizing ws with
  | nil =>
    have hnil : ws = [] := List.eq_nil_iff_forall_not_mem.mpr fun w hmem => by
      obtain ⟨v, hv, -⟩ := hback w hmem
      cases hv
    exact ⟨[], hnil ▸ .refl _, .nil⟩
  | cons v vs ih =>
    obtain ⟨hvp, hvs⟩ := List.forall_mem_cons.mp hvs
    obtain ⟨hfirst, hv⟩ := List.pairwise_cons.mp hv
    obtain ⟨w, hmem, hvw⟩ := hto v List.mem_cons_self
    obtain ⟨before, after, rfl⟩ := List.append_of_mem hmem
    have hperm : (before ++ w :: after).Perm (w :: (before ++ after)) := List.perm_middle
    have hwcons := hperm.pairwise hw fun {a b} hab => by rwa [sameGroup_comm]
    simp only [hperm.mem_iff] at hws hto hback
    generalize before ++ after = rest at hperm hwcons hws hto hback
    obtain ⟨hwp, hrest⟩ := List.forall_mem_cons.mp hws
    obtain ⟨hother, hw⟩ := List.pairwise_cons.mp hwcons
    -- The two first groups are the same, so that no other group is the same as one of them.
    have hto' : ∀ u ∈ vs, ∃ x ∈ rest, u.sameGroup x = true := by
      intro u hu
      obtain ⟨x, hx, hux⟩ := hto u (List.mem_cons_of_mem _ hu)
      rcases List.mem_cons.mp hx with rfl | hx
      · rw [sameGroup_comm] at hux
        have hvu := sameGroup_trans hvp hwp (hvs u hu) hvw hux
        rw [hfirst u hu] at hvu
        cases hvu
      · exact ⟨x, hx, hux⟩
    have hback' : ∀ x ∈ rest, ∃ u ∈ vs, u.sameGroup x = true := by
      intro x hx
      obtain ⟨u, hu, hux⟩ := hback x (List.mem_cons_of_mem _ hx)
      rcases List.mem_cons.mp hu with rfl | hu
      · rw [sameGroup_comm] at hvw
        have hwx := sameGroup_trans hwp hvp (hrest x hx) hvw hux
        rw [hother x hx] at hwx
        cases hwx
      · exact ⟨u, hu, hux⟩
    obtain ⟨matched, hmatched, hsame⟩ := ih hvs hrest hv hw hto' hback'
    exact ⟨w :: matched, (hmatched.cons w).trans hperm.symm, .cons hvw hsame⟩

/-- In another order of the values, the first occurrences are of the same groups. -/
theorem firsts_matching {vs ws : List Value} (hperm : vs.Perm ws)
    (hproper : ∀ v ∈ vs, SortKey.Proper v.numbers) :
    ∃ matched, matched.Perm (firsts ws) ∧
      List.Forall₂ (fun v w => v.sameGroup w = true) (firsts vs) matched := by
  have hproper' : ∀ w ∈ ws, SortKey.Proper w.numbers := fun w hw => hproper w (hperm.mem_iff.mpr hw)
  refine exists_matching (fun v hv => hproper v (mem_of_mem_firsts hv))
    (fun w hw => hproper' w (mem_of_mem_firsts hw)) (firsts_apart vs) (firsts_apart ws) ?_ ?_
  · intro v hv
    obtain ⟨w, hw, hwv⟩ := exists_first hproper' (hperm.mem_iff.mp (mem_of_mem_firsts hv))
    exact ⟨w, hw, (sameGroup_comm v w).trans hwv⟩
  · intro w hw
    exact exists_first hproper (hperm.mem_iff.mpr (mem_of_mem_firsts hw))

end DocGrid.Value

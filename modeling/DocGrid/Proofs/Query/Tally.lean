import DocGrid.Proofs.Order.Values
import DocGrid.Query.Distinct
import Mathlib.Algebra.BigOperators.Group.List.Basic
import Mathlib.Algebra.Ring.Int.Defs
import Mathlib.Data.List.Basic
import Mathlib.Data.List.Pairwise

/-! Counting values one after the other. Each value has one count, which is the number of its
occurrences so far. -/

namespace DocGrid

namespace Distinct

/-- Counts one more occurrence of a value. -/
def countOne (v : Value) : List ValueCount → List ValueCount
  | [] => [⟨v, 1⟩]
  | c :: rest =>
    if c.value.sameGroup v then ⟨c.value, c.count + 1⟩ :: rest else c :: countOne v rest

def countAll (vs : List Value) : List ValueCount :=
  vs.foldl (fun counts v => countOne v counts) []

theorem countOne_cases (v : Value) (counts : List ValueCount) :
    (∃ before c after, counts = before ++ c :: after ∧ c.value.sameGroup v = true ∧
      countOne v counts = before ++ ⟨c.value, c.count + 1⟩ :: after) ∨
    ((∀ c ∈ counts, c.value.sameGroup v = false) ∧ countOne v counts = counts ++ [⟨v, 1⟩]) := by
  induction counts with
  | nil => exact .inr ⟨by simp, rfl⟩
  | cons d rest ih =>
    cases hd : d.value.sameGroup v with
    | true => exact .inl ⟨[], d, rest, rfl, hd, by simp [countOne, hd]⟩
    | false =>
      obtain ⟨before, c, after, rfl, hc, hone⟩ | ⟨hnone, hone⟩ := ih
      · exact .inl ⟨d :: before, c, after, rfl, hc, by simp [countOne, hd, hone]⟩
      · exact .inr ⟨List.forall_mem_cons.mpr ⟨hd, hnone⟩, by simp [countOne, hd, hone]⟩

/-- Values with the numbers of their occurrences in a list. Values that are the same when grouping
have one number. -/
structure IsTally (occurrences : List Value) (counts : List ValueCount) : Prop where
  apart : counts.Pairwise fun c d => c.value.sameGroup d.value = false
  occurs : ∀ c ∈ counts, c.value ∈ occurrences
  counted : ∀ c ∈ counts, c.count = occurrences.countP fun v => c.value.sameGroup v
  covered : ∀ v ∈ occurrences, ∃ c ∈ counts, c.value.sameGroup v = true
  total : (counts.map (·.count)).sum = occurrences.length

variable {occurrences : List Value} {counts : List ValueCount}

instance : Std.Symm fun c d : ValueCount => c.value.sameGroup d.value = false where
  symm c d h := by rw [Value.sameGroup_comm, h]

theorem isTally_nil : IsTally [] [] :=
  ⟨.nil, by simp, by simp, by simp, rfl⟩

theorem countP_concat (u v : Value) : ((occurrences ++ [v]).countP fun w => u.sameGroup w) =
    (occurrences.countP fun w => u.sameGroup w) + if u.sameGroup v then 1 else 0 := by
  rw [List.countP_append, List.countP_singleton]

/-- One more occurrence of a value that has a count. -/
theorem IsTally.recount {before after : List ValueCount} {c : ValueCount} {v : Value}
    (h : IsTally occurrences (before ++ c :: after)) (ho : ∀ u ∈ occurrences, SortKey.Proper u.numbers)
    (hv : SortKey.Proper v.numbers) (hsame : c.value.sameGroup v = true) :
    IsTally (occurrences ++ [v]) (before ++ ⟨c.value, c.count + 1⟩ :: after) := by
  have hvalue (d : ValueCount) (hd : d ∈ before ++ c :: after) : SortKey.Proper d.value.numbers :=
    ho _ (h.occurs d hd)
  have hc := hvalue c (by simp)
  -- The others are told apart from the value, as they are from the one that it is counted with.
  have hother (d : ValueCount) (hd : d ∈ before ++ after) : d.value.sameGroup v = false := by
    have hdv := hvalue d (by simp only [List.mem_append, List.mem_cons] at hd ⊢; tauto)
    have hapart : c.value.sameGroup d.value = false := by
      have hpairs := h.apart
      simp only [List.pairwise_append, List.pairwise_cons] at hpairs
      rcases List.mem_append.mp hd with hd | hd
      · rw [Value.sameGroup_comm]
        exact hpairs.2.2 d hd c (by simp)
      · exact hpairs.2.1.1 d hd
    rw [Value.sameGroup_comm, ← Value.sameGroup_congr hc hv hdv hsame]
    exact hapart
  have hcount (d : ValueCount) (hd : d ∈ before ++ after) :
      d.count = (occurrences ++ [v]).countP fun w => d.value.sameGroup w := by
    rw [countP_concat, hother d hd,
      h.counted d (by simp only [List.mem_append, List.mem_cons] at hd ⊢; tauto)]
    simp
  constructor
  · simpa [List.pairwise_append] using h.apart
  · have hoccurs := h.occurs
    simp only [List.forall_mem_append, List.forall_mem_cons] at hoccurs ⊢
    refine ⟨fun d hd => ?_, ?_, fun d hd => ?_⟩ <;> rw [List.mem_append]
    · exact .inl (hoccurs.1 d hd)
    · exact .inl hoccurs.2.1
    · exact .inl (hoccurs.2.2 d hd)
  · simp only [List.forall_mem_append, List.forall_mem_cons] at hcount ⊢
    refine ⟨hcount.1, ?_, hcount.2⟩
    rw [countP_concat, hsame, h.counted c (by simp)]
    simp
  · intro u hu
    rcases List.mem_append.mp hu with hu | hu
    · obtain ⟨d, hd, hdu⟩ := h.covered u hu
      simp only [List.mem_append, List.mem_cons] at hd
      rcases hd with hd | rfl | hd
      · exact ⟨d, by simp [hd], hdu⟩
      · exact ⟨⟨d.value, d.count + 1⟩, by simp, hdu⟩
      · exact ⟨d, by simp [hd], hdu⟩
    · obtain rfl := List.mem_singleton.mp hu
      exact ⟨⟨c.value, c.count + 1⟩, by simp, hsame⟩
  · have htotal := h.total
    simp only [List.map_append, List.map_cons, List.sum_append, List.sum_cons,
      List.length_append, List.length_singleton] at htotal ⊢
    omega

/-- The first occurrence of a value. -/
theorem IsTally.extend {v : Value} (h : IsTally occurrences counts)
    (ho : ∀ u ∈ occurrences, SortKey.Proper u.numbers) (hv : SortKey.Proper v.numbers)
    (hnone : ∀ c ∈ counts, c.value.sameGroup v = false) :
    IsTally (occurrences ++ [v]) (counts ++ [⟨v, 1⟩]) := by
  constructor
  · simpa [List.pairwise_append] using ⟨h.apart, hnone⟩
  · simp only [List.forall_mem_append, List.forall_mem_singleton]
    exact ⟨fun c hc => by simp [h.occurs c hc], by simp⟩
  · have hfirst : (occurrences.countP fun w => v.sameGroup w) = 0 := by
      refine List.countP_eq_zero.mpr fun u hu => ?_
      obtain ⟨c, hc, hcu⟩ := h.covered u hu
      have hcv := ho _ (h.occurs c hc)
      rw [Value.sameGroup_comm, ← Value.sameGroup_congr hcv (ho u hu) hv hcu, hnone c hc]
      simp
    simp only [List.forall_mem_append, List.forall_mem_singleton, countP_concat]
    refine ⟨fun c hc => ?_, ?_⟩
    · rw [hnone c hc, h.counted c hc]
      simp
    · rw [hfirst, Value.sameGroup_self hv]
      rfl
  · intro u hu
    rcases List.mem_append.mp hu with hu | hu
    · obtain ⟨c, hc, hcu⟩ := h.covered u hu
      exact ⟨c, by simp [hc], hcu⟩
    · obtain rfl := List.mem_singleton.mp hu
      exact ⟨⟨u, 1⟩, by simp, Value.sameGroup_self hv⟩
  · simp [h.total]

theorem IsTally.countOne {v : Value} (h : IsTally occurrences counts)
    (ho : ∀ u ∈ occurrences, SortKey.Proper u.numbers) (hv : SortKey.Proper v.numbers) :
    IsTally (occurrences ++ [v]) (countOne v counts) := by
  obtain ⟨before, c, after, rfl, hsame, hone⟩ | ⟨hnone, hone⟩ := countOne_cases v counts
  · rw [hone]
    exact h.recount ho hv hsame
  · rw [hone]
    exact h.extend ho hv hnone

theorem IsTally.perm {sorted : List ValueCount} (h : IsTally occurrences counts)
    (hp : sorted.Perm counts) : IsTally occurrences sorted := by
  refine ⟨hp.symm.pairwise h.apart fun hcd => by rwa [Value.sameGroup_comm],
    fun c hc => h.occurs c (hp.mem_iff.mp hc), fun c hc => h.counted c (hp.mem_iff.mp hc), ?_, ?_⟩
  · intro v hv
    obtain ⟨c, hc, hcv⟩ := h.covered v hv
    exact ⟨c, hp.mem_iff.mpr hc, hcv⟩
  · rw [(hp.map _).sum_eq, h.total]

theorem isTally_countAll (ho : ∀ v ∈ occurrences, SortKey.Proper v.numbers) :
    IsTally occurrences (countAll occurrences) := by
  induction occurrences using List.reverseRecOn with
  | nil => exact isTally_nil
  | append_singleton vs v ih =>
    rw [countAll, List.foldl_append]
    exact (ih fun u hu => ho u (by simp [hu])).countOne (fun u hu => ho u (by simp [hu]))
      (ho v (by simp))

variable (h : IsTally occurrences counts) (ho : ∀ v ∈ occurrences, SortKey.Proper v.numbers)

include h ho

theorem IsTally.one_le_count {c : ValueCount} (hc : c ∈ counts) : 1 ≤ c.count := by
  have hpos : 0 < occurrences.countP fun v => c.value.sameGroup v :=
    List.countP_pos_iff.mpr ⟨c.value, h.occurs c hc, Value.sameGroup_self (ho _ (h.occurs c hc))⟩
  rw [h.counted c hc]
  omega

theorem IsTally.existsUnique {v : Value} (hv : v ∈ occurrences) :
    ∃! c, c ∈ counts ∧ c.value.sameGroup v = true := by
  obtain ⟨c, hc, hcv⟩ := h.covered v hv
  refine ⟨c, ⟨hc, hcv⟩, fun d ⟨hd, hdv⟩ => ?_⟩
  have hco := ho _ (h.occurs c hc)
  have hdo := ho _ (h.occurs d hd)
  by_contra hne
  have hdc : d.value.sameGroup c.value = true := by
    rw [Value.sameGroup_congr hdo (ho v hv) hco hdv, Value.sameGroup_comm, hcv]
  rw [h.apart.forall hd hc hne] at hdc
  cases hdc

end Distinct

end DocGrid

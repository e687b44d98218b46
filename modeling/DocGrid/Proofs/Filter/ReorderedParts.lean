import DocGrid.Proofs.Filter.Reorderings
import DocGrid.Proofs.Json.RoundTrip
import Mathlib.Data.List.Forall2

/-! The parts of reordered values. Two lists are reordered exactly if their items are, one by one,
and two mappings that begin with one key exactly if its values and the entries behind it are. -/

namespace DocGrid

namespace Document

def without (doc : Document) (key : String) : Document :=
  doc.filter fun e => e.1 ≠ key

@[simp] theorem without_cons_self (key : String) (v : Value) (doc : Document) :
    without ((key, v) :: doc) key = doc.without key :=
  List.filter_cons_of_neg (by simp)

theorem without_of_notMem {doc : Document} {key : String} (h : key ∉ doc.keys) :
    doc.without key = doc := by
  refine List.filter_eq_self.mpr fun e he => ?_
  have hne : e.1 ≠ key := fun heq => h (List.mem_map.mpr ⟨e, he, heq⟩)
  exact decide_eq_true hne

theorem notMem_keys_without (doc : Document) (key : String) : key ∉ (doc.without key).keys := by
  intro h
  obtain ⟨e, he, heq⟩ := List.mem_map.mp h
  exact of_decide_eq_true (List.mem_filter.mp he).2 heq

theorem get?_of_notMem {doc : Document} {key : String} (h : key ∉ doc.keys) :
    doc.get? key = none := by
  induction doc with
  | nil => rfl
  | cons e doc ih =>
    obtain ⟨hne, hrest⟩ := not_or.mp (mt List.mem_cons.mpr h)
    exact (if_neg (Ne.symm hne)).trans (ih hrest)

/-- Entries put in behind a first one: an entry under its key takes its place. -/
theorem putAll_cons {key : String} {v : Value} {doc entries : Document}
    (h : (keys (doc ++ entries)).Nodup) (hkey : key ∉ doc.keys) :
    putAll ((key, v) :: doc) entries =
      (key, (entries.get? key).getD v) :: (doc ++ entries.without key) := by
  induction entries generalizing v doc with
  | nil => simp [putAll, without]
  | cons e entries ih =>
    obtain ⟨k, w⟩ := e
    -- The value of the key is replaced where it stands, any other entry goes to the end.
    by_cases hk : k = key
    · subst hk
      have hrest : k ∉ keys entries := by
        simp only [keys, List.map_append, List.map_cons, List.nodup_append, List.nodup_cons] at h
        exact h.2.1.1
      have hnodup : (keys (doc ++ entries)).Nodup := by
        refine h.sublist (List.Sublist.map _ ?_)
        exact (List.sublist_cons_self _ _).append_left doc
      have hput : putAll ((k, v) :: doc) ((k, w) :: entries) = putAll ((k, w) :: doc) entries := by
        simp [putAll, put]
      rw [hput, ih hnodup hkey, get?_of_notMem hrest, without_cons_self]
      simp
    · have hnew : k ∉ doc.keys := by
        simp only [keys, List.map_append, List.map_cons, List.nodup_append] at h
        exact fun hmem => h.2.2 k hmem k List.mem_cons_self rfl
      have happend : doc ++ (k, w) :: entries = doc ++ [(k, w)] ++ entries := by simp
      have hput : putAll ((key, v) :: doc) ((k, w) :: entries) =
          putAll ((key, v) :: (doc ++ [(k, w)])) entries := by
        rw [← put_of_notMem hnew]
        simp [putAll, put, Ne.symm hk]
      have hdoc : key ∉ keys (doc ++ [(k, w)]) := by
        simpa [keys, Ne.symm hk] using hkey
      rw [hput, ih (happend ▸ h) hdoc]
      simp [without, hk]

end Document

namespace Value

namespace Reorders

variable {xs ys : Document}

theorem exists_mapping {w : Value} (h : Reorders (mapping xs) w) : ∃ ys, w = mapping ys := by
  cases h with
  | keys hkeys h => exact ⟨_, rfl⟩
  | entry h before key after => exact ⟨_, rfl⟩

variable (h : Reorders (mapping xs) (mapping ys))

include h

theorem keys_perm : xs.keys.Perm ys.keys := by
  cases h with
  | keys hkeys h => exact h.map _
  | entry h before k after => simp [Document.keys]

theorem get? {key : String} {v : Value} (hv : xs.get? key = some v) :
    ∃ w, ys.get? key = some w ∧ v.Reordered w := by
  have hfollow (entries : Document) : (mapping entries).follow [key] = entries.get? key := by
    cases hentry : entries.get? key <;> simp [follow, hentry]
  rcases h.follow_eq_or [key] with heq | ⟨a, b, hab, ha, hb⟩
  · rw [hfollow, hfollow, hv] at heq
    exact ⟨v, heq.symm, .refl⟩
  · rw [hfollow] at ha hb
    obtain rfl := Option.some.inj (hv.symm.trans ha)
    exact ⟨b, hb, .single hab⟩

theorem without (key : String) :
    Reordered (mapping (xs.without key)) (mapping (ys.without key)) := by
  cases h with
  | keys hkeys h => exact .single (.keys (hkeys.sublist (List.filter_sublist.map _)) (h.filter _))
  | @entry v w h before k after =>
    rw [Document.without, Document.without, List.filter_append, List.filter_append]
    by_cases hk : k = key
    · rw [List.filter_cons_of_neg (by simp [hk]), List.filter_cons_of_neg (by simp [hk])]
      exact .refl
    · rw [List.filter_cons_of_pos (by simp [hk]), List.filter_cons_of_pos (by simp [hk])]
      exact .single (.entry h _ k _)

theorem cons {key : String} (hkey : key ∉ xs.keys) (v : Value) :
    Reorders (mapping ((key, v) :: xs)) (mapping ((key, v) :: ys)) := by
  cases h with
  | keys hkeys h => exact .keys (List.nodup_cons.mpr ⟨hkey, hkeys⟩) (h.cons _)
  | entry h before k after => exact .entry h ((key, v) :: before) k after

end Reorders

namespace Reordered

variable {v w : Value}

theorem eq_of_not_composite (hv : v.isComposite = false) (h : v.Reordered w) : v = w := by
  rcases Relation.ReflTransGen.cases_head h with heq | ⟨u, hstep, -⟩
  · exact heq
  · rw [hstep.composite.1] at hv
    cases hv

section Lists

variable {xs ys : List Value}

theorem forall₂_refl (xs : List Value) : List.Forall₂ Reordered xs xs :=
  List.forall₂_same.mpr fun _ _ => .refl

theorem forall₂_replace {before after : List Value} (hvw : v.Reordered w)
    (h : List.Forall₂ Reordered xs (before ++ v :: after)) :
    List.Forall₂ Reordered xs (before ++ w :: after) := by
  induction before generalizing xs with
  | nil =>
    cases h with
    | cons hv hafter => exact .cons (hv.trans hvw) hafter
  | cons u before ih =>
    cases h with
    | cons hu hrest => exact .cons hu (ih hrest)

theorem exists_list (h : Reordered (list xs) w) :
    ∃ ys, w = list ys ∧ List.Forall₂ Reordered xs ys := by
  induction h with
  | refl => exact ⟨xs, rfl, forall₂_refl xs⟩
  | tail _ hstep ih =>
    obtain ⟨ys, rfl, hys⟩ := ih
    cases hstep with
    | item hvw before after => exact ⟨_, rfl, forall₂_replace (.single hvw) hys⟩

/-- The items change from left to right, behind those that already have. -/
theorem list_append (before : List Value) (h : List.Forall₂ Reordered xs ys) :
    Reordered (list (before ++ xs)) (list (before ++ ys)) := by
  induction h generalizing before with
  | nil => exact .refl
  | @cons v w xs ys hvw _ ih =>
    have hhead : Reordered (list (before ++ v :: xs)) (list (before ++ w :: xs)) :=
      Relation.ReflTransGen.lift (fun u => list (before ++ u :: xs))
        (fun _ _ hu => .item hu before xs) _ _ hvw
    have htail := ih (before ++ [w])
    rw [List.append_assoc, List.append_assoc] at htail
    exact hhead.trans htail

theorem list_iff : Reordered (list xs) (list ys) ↔ List.Forall₂ Reordered xs ys := by
  constructor
  · intro h
    obtain ⟨zs, heq, hzs⟩ := exists_list h
    cases heq
    exact hzs
  · exact list_append []

end Lists

end Reordered

/-- What reordering two mappings keeps. -/
structure ReorderedEntries (xs ys : Document) : Prop where
  keys : xs.keys.Perm ys.keys
  get? : ∀ {key v}, xs.get? key = some v → ∃ w, ys.get? key = some w ∧ v.Reordered w
  without : ∀ key, Reordered (mapping (xs.without key)) (mapping (ys.without key))
  cons : ∀ {key} v, key ∉ xs.keys → Reordered (mapping ((key, v) :: xs)) (mapping ((key, v) :: ys))

namespace Reordered

variable {v w : Value} {xs ys : Document}

theorem exists_mapping (h : Reordered (mapping xs) w) :
    ∃ ys, w = mapping ys ∧ ReorderedEntries xs ys := by
  induction h with
  | refl => exact ⟨xs, rfl, .refl _, fun hv => ⟨_, hv, .refl⟩, fun _ => .refl, fun _ _ => .refl⟩
  | tail _ hstep ih =>
    obtain ⟨ys, rfl, hys⟩ := ih
    obtain ⟨zs, rfl⟩ := hstep.exists_mapping
    refine ⟨zs, rfl, hys.keys.trans hstep.keys_perm, fun hv => ?_, fun key => ?_, fun u hu => ?_⟩
    · obtain ⟨b, hb, hab⟩ := hys.get? hv
      obtain ⟨c, hc, hbc⟩ := hstep.get? hb
      exact ⟨c, hc, hab.trans hbc⟩
    · exact (hys.without key).trans (hstep.without key)
    · have hnot := fun hmem => hu (hys.keys.mem_iff.mpr hmem)
      exact (hys.cons u hu).tail (hstep.cons hnot u)

theorem entries (h : Reordered (mapping xs) (mapping ys)) : ReorderedEntries xs ys := by
  obtain ⟨zs, heq, hzs⟩ := exists_mapping h
  cases heq
  exact hzs

theorem mapping_cons_iff {key : String} (hx : key ∉ xs.keys) (hy : key ∉ ys.keys) :
    Reordered (mapping ((key, v) :: xs)) (mapping ((key, w) :: ys)) ↔
      v.Reordered w ∧ Reordered (mapping xs) (mapping ys) := by
  constructor
  · intro h
    have hparts := h.entries
    obtain ⟨u, hu, hvu⟩ := hparts.get? (if_pos rfl : Document.get? key ((key, v) :: xs) = some v)
    obtain rfl := Option.some.inj (hu.symm.trans (if_pos rfl))
    have hrest := hparts.without key
    rw [Document.without_cons_self, Document.without_cons_self, Document.without_of_notMem hx,
      Document.without_of_notMem hy] at hrest
    exact ⟨hvu, hrest⟩
  · rintro ⟨hvw, hrest⟩
    have hhead : Reordered (mapping ((key, v) :: xs)) (mapping ((key, w) :: xs)) :=
      Relation.ReflTransGen.lift (fun u => mapping ((key, u) :: xs))
        (fun _ _ hu => .entry hu [] key xs) _ _ hvw
    exact hhead.trans (hrest.entries.cons w hx)

theorem mapping_single_iff {k l : String} :
    Reordered (mapping [(k, v)]) (mapping [(l, w)]) ↔ k = l ∧ v.Reordered w := by
  constructor
  · intro h
    obtain rfl : k = l := by simpa [Document.keys] using h.entries.keys
    exact ⟨rfl, ((mapping_cons_iff List.not_mem_nil List.not_mem_nil).mp h).1⟩
  · rintro ⟨rfl, h⟩
    exact (mapping_cons_iff List.not_mem_nil List.not_mem_nil).mpr ⟨h, .refl⟩

end Reordered

end Value

end DocGrid

import DocGrid.Text.Split
import Mathlib.Data.List.Infix

/-! Cutting a text at a separator: the pieces are free of it, lie inside the text, and come back
from the text that joins them. Cutting it after its first run of characters of one kind. -/

namespace DocGrid.Text

section Run

variable {p : Char → Bool} {run rest : List Char} (hrun : ∀ c ∈ run, p c = true)
  (hrest : ∀ c ∈ rest.head?, p c = false)

include hrun hrest

theorem takeWhile_run : (run ++ rest).takeWhile p = run := by
  rw [List.takeWhile_append_of_pos hrun]
  cases rest with
  | nil => simp
  | cons c rest => simp [hrest c rfl]

theorem dropWhile_run : (run ++ rest).dropWhile p = rest := by
  rw [List.dropWhile_append_of_pos hrun]
  cases rest with
  | nil => rfl
  | cons c rest => simp [hrest c rfl]

end Run

theorem split_of_not_mem {sep : Char} {cs : List Char} (h : sep ∉ cs) : split sep cs = [cs] := by
  induction cs with
  | nil => rfl
  | cons c rest ih =>
    have hc : c ≠ sep := fun e => h (by simp [e])
    have hr : sep ∉ rest := fun e => h (by simp [e])
    simp only [split, hc, if_false, ih hr]

theorem split_append {sep : Char} {a : List Char} (h : sep ∉ a) (b : List Char) :
    split sep (a ++ sep :: b) = a :: split sep b := by
  induction a with
  | nil => simp [split]
  | cons c rest ih =>
    have hc : c ≠ sep := fun e => h (by simp [e])
    have hr : sep ∉ rest := fun e => h (by simp [e])
    simp only [List.cons_append, split, hc, if_false, ih hr]

theorem split_join {sep : Char} {pieces : List (List Char)} (hne : pieces ≠ [])
    (h : ∀ p ∈ pieces, sep ∉ p) : split sep (join [sep] pieces) = pieces := by
  induction pieces with
  | nil => exact absurd rfl hne
  | cons p ps ih =>
    have hp : sep ∉ p := h p (by simp)
    cases ps with
    | nil => exact split_of_not_mem hp
    | cons q qs =>
      have hi := ih (by simp) (fun x hx => h x (List.mem_cons_of_mem _ hx))
      simp only [join, List.append_assoc, List.singleton_append] at hi ⊢
      rw [split_append hp, hi]

theorem splitText_joinText {sep : Char} {pieces : List String} (hne : pieces ≠ [])
    (h : ∀ p ∈ pieces, sep ∉ p.toList) :
    splitText sep (joinText (String.singleton sep) pieces) = pieces := by
  have hpieces : ∀ p ∈ pieces.map String.toList, sep ∉ p := List.forall_mem_map.mpr h
  have hsplit := split_join (by simpa using hne) hpieces
  simp only [splitText, joinText, String.toList_ofList, String.toList_singleton, hsplit,
    List.map_map]
  simp [Function.comp_def]

theorem join_append {sep : Char} {a b : List (List Char)} (ha : a ≠ []) (hb : b ≠ []) :
    join [sep] (a ++ b) = join [sep] a ++ sep :: join [sep] b := by
  obtain ⟨q, qs, rfl⟩ := List.exists_cons_of_ne_nil hb
  induction a with
  | nil => exact absurd rfl ha
  | cons p ps ih =>
    cases ps with
    | nil => simp [join]
    | cons r rs => simpa [join] using ih (by simp)

theorem split_cons_exists (sep c : Char) (rest : List Char) :
    ∃ p ps, split sep rest = p :: ps ∧
      split sep (c :: rest) = if c = sep then [] :: p :: ps else (c :: p) :: ps := by
  cases hs : split sep rest with
  | nil => exact absurd hs (split_ne_nil sep rest)
  | cons p ps => exact ⟨p, ps, rfl, by simp only [split, hs]⟩

theorem not_mem_of_mem_split {sep : Char} {cs p : List Char} (h : p ∈ split sep cs) :
    sep ∉ p := by
  induction cs generalizing p with
  | nil => simp_all [split]
  | cons c rest ih =>
    obtain ⟨q, qs, hr, hs⟩ := split_cons_exists sep c rest
    rw [hs] at h
    rw [hr] at ih
    by_cases hc : c = sep
    · rw [if_pos hc] at h
      rcases List.mem_cons.mp h with rfl | h
      · simp
      · exact ih h
    · rw [if_neg hc] at h
      rcases List.mem_cons.mp h with rfl | h
      · have hq : sep ∉ q := ih List.mem_cons_self
        simp [hq, Ne.symm hc]
      · exact ih (List.mem_cons_of_mem _ h)

@[simp] theorem split_append_sep (sep : Char) (a b : List Char) :
    split sep (a ++ sep :: b) = split sep a ++ split sep b := by
  have ha : split sep a ≠ [] := split_ne_nil sep a
  have hb : split sep b ≠ [] := split_ne_nil sep b
  have hfree : ∀ p ∈ split sep a ++ split sep b, sep ∉ p :=
    List.forall_mem_append.mpr ⟨fun _ => not_mem_of_mem_split, fun _ => not_mem_of_mem_split⟩
  calc split sep (a ++ sep :: b) = split sep (join [sep] (split sep a ++ split sep b)) := by
        rw [join_append ha hb, join_split, join_split]
    _ = split sep a ++ split sep b := split_join (List.append_ne_nil_of_left_ne_nil ha _) hfree

theorem infix_split (sep : Char) (cs : List Char) :
    (∀ p ps, split sep cs = p :: ps → p <+: cs) ∧ ∀ p ∈ split sep cs, p <:+: cs := by
  induction cs with
  | nil => simp [split]
  | cons c rest ih =>
    obtain ⟨q, qs, hr, hs⟩ := split_cons_exists sep c rest
    have hq : q <+: rest := ih.1 q qs hr
    have hm : ∀ p ∈ q :: qs, p <:+: rest := hr ▸ ih.2
    rw [hs]
    by_cases hc : c = sep
    · rw [if_pos hc]
      refine ⟨fun p ps he => (List.cons.inj he).1 ▸ List.nil_prefix, fun p hp => ?_⟩
      rcases List.mem_cons.mp hp with rfl | hp
      · exact List.nil_infix
      · exact (hm p hp).trans (List.suffix_cons c rest).isInfix
    · rw [if_neg hc]
      have hcq : c :: q <+: c :: rest := List.cons_prefix_cons.mpr ⟨rfl, hq⟩
      refine ⟨fun p ps he => (List.cons.inj he).1 ▸ hcq, fun p hp => ?_⟩
      rcases List.mem_cons.mp hp with rfl | hp
      · exact hcq.isInfix
      · exact (hm p (List.mem_cons_of_mem _ hp)).trans (List.suffix_cons c rest).isInfix

theorem infix_of_mem_split {sep : Char} {cs p : List Char} (h : p ∈ split sep cs) : p <:+: cs :=
  (infix_split sep cs).2 p h

theorem mem_join {sep : List Char} {pieces : List (List Char)} {c : Char}
    (h : c ∈ join sep pieces) : c ∈ sep ∨ ∃ p ∈ pieces, c ∈ p := by
  induction pieces with
  | nil => cases h
  | cons p ps ih =>
    cases ps with
    | nil => exact .inr ⟨p, by simp, h⟩
    | cons q qs =>
      simp only [join, List.append_assoc, List.mem_append] at h
      rcases h with h | h | h
      · exact .inr ⟨p, by simp, h⟩
      · exact .inl h
      · rcases ih h with h | ⟨x, hx, hc⟩
        · exact .inl h
        · exact .inr ⟨x, List.mem_cons_of_mem _ hx, hc⟩

end DocGrid.Text

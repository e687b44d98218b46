import DocGrid.Order.SortSpec
import Mathlib.Data.List.Induction
import Mathlib.Data.List.Nodup

/-! Pairs of fields and directions, and the order that is made of them. Fields are paired with the
flags at their own places, and a field that comes again changes its direction but not its place. -/

namespace DocGrid

namespace SortSpec

def fields (spec : SortSpec) : List String :=
  spec.map (·.1)

/-- Puts the pairs into an order one after the other. -/
def putAll (spec pairs : SortSpec) : SortSpec :=
  pairs.foldl (fun spec e => spec.put e.1 e.2) spec

def directionOf (flag : Option String) : Direction :=
  if flag.any isFlag then .descending else .ascending

/-- The fields of a request that are not blank, each with the flag that stands at its own place. -/
def requested (names flags : List String) : SortSpec :=
  (names.zipIdx.map fun (name, i) => (Text.stripped name, directionOf flags[i]?)).filter
    fun e => e.1 ≠ ""

/-- The direction that comes with a field the last time that it is named. -/
def lastDirection (pairs : SortSpec) (field : String) : Direction :=
  (pairs.reverse.lookup field).getD .ascending

/-- Each field once, at its first place and with its last direction. -/
def latest (pairs : SortSpec) : SortSpec :=
  pairs.fields.eraseDups.map fun field => (field, pairs.lastDirection field)

variable {spec pairs : SortSpec} {field : String} {direction : Direction}

theorem pair_eq_putAll (spec : SortSpec) (names flags : List String) (i : Nat) :
    pair spec (names.map Text.stripped) ((flags.drop i).map isFlag) =
      spec.putAll (((names.zipIdx i).map fun (name, i) =>
        (Text.stripped name, directionOf flags[i]?)).filter fun e => e.1 ≠ "") := by
  induction names generalizing spec i with
  | nil => rfl
  | cons name names ih =>
    have hflag : (if ((flags.drop i).map isFlag).head? = some true then Direction.descending
        else .ascending) = directionOf flags[i]? := by
      rw [List.head?_map, List.head?_drop, directionOf]
      cases flags[i]? <;> simp
    rw [List.map_cons, pair, ← List.map_tail, List.tail_drop, hflag, ih, List.zipIdx_cons,
      List.map_cons]
    by_cases hblank : Text.stripped name = ""
    · simp [hblank]
    · simp [hblank, putAll]

theorem ofTexts_eq_putAll (names flags : List String) :
    ofTexts names flags = putAll [] (requested names flags) :=
  pair_eq_putAll [] names flags 0

theorem put_of_notMem (h : field ∉ spec.fields) :
    spec.put field direction = spec ++ [(field, direction)] := by
  induction spec with
  | nil => rfl
  | cons e rest ih =>
    obtain ⟨hne, hrest⟩ := List.ne_and_not_mem_of_not_mem_cons h
    rw [put, if_neg (Ne.symm hne), ih hrest, List.cons_append]

/-- Where a field is in an order, only its direction changes. -/
theorem put_of_mem {names : List String} (hnames : names.Nodup) (h : field ∈ names)
    (directions : String → Direction) :
    put field direction (names.map fun name => (name, directions name)) =
      names.map fun name => (name, if name = field then direction else directions name) := by
  induction names with
  | nil => cases h
  | cons name rest ih =>
    obtain ⟨hnot, hrest⟩ := List.nodup_cons.mp hnames
    rw [List.map_cons, put, List.map_cons]
    by_cases heq : name = field
    · subst heq
      have hkept : rest.map (fun other => (other, directions other)) =
          rest.map fun other => (other, if other = name then direction else directions other) :=
        List.map_congr_left fun other hother => by
          rw [if_neg (ne_of_mem_of_not_mem hother hnot)]
      rw [if_pos rfl, if_pos rfl, hkept]
    · have hmem : field ∈ rest := (List.mem_cons.mp h).resolve_left (Ne.symm heq)
      rw [if_neg heq, if_neg heq, ih hrest hmem]

theorem eraseDups_concat (names : List String) (name : String) :
    (names ++ [name]).eraseDups =
      if name ∈ names then names.eraseDups else names.eraseDups ++ [name] := by
  rw [List.eraseDups_append]
  by_cases h : name ∈ names
  · simp [List.removeAll, h]
  · simp [List.removeAll, h, List.eraseDups_cons]

theorem nodup_eraseDups (names : List String) : names.eraseDups.Nodup := by
  induction names using List.reverseRecOn with
  | nil => exact List.nodup_nil
  | append_singleton names name ih =>
    rw [eraseDups_concat]
    split
    · exact ih
    · next h =>
      have hnew : name ∉ names.eraseDups := fun hmem => h (List.mem_eraseDups.mp hmem)
      exact List.concat_eq_append ▸ (List.nodup_concat _ _).mpr ⟨hnew, ih⟩

theorem eraseDups_sublist (names : List String) : names.eraseDups.Sublist names := by
  induction names using List.reverseRecOn with
  | nil => exact List.Sublist.slnil
  | append_singleton names name ih =>
    rw [eraseDups_concat]
    split
    · exact ih.trans (List.sublist_append_left ..)
    · exact ih.append_right [name]

@[simp] theorem fields_map (names : List String) (directions : String → Direction) :
    fields (names.map fun name => (name, directions name)) = names := by
  rw [fields, List.map_map]
  exact List.map_id names

@[simp] theorem fields_latest (pairs : SortSpec) : pairs.latest.fields = pairs.fields.eraseDups :=
  fields_map _ _

theorem nodup_fields_latest (pairs : SortSpec) : pairs.latest.fields.Nodup := by
  rw [fields_latest]
  exact nodup_eraseDups _

@[simp] theorem fields_concat (pairs : SortSpec) (e : String × Direction) :
    fields (pairs ++ [e]) = pairs.fields ++ [e.1] :=
  List.map_append

theorem lastDirection_concat (pairs : SortSpec) (e : String × Direction) (name : String) :
    lastDirection (pairs ++ [e]) name = if name = e.1 then e.2 else pairs.lastDirection name := by
  obtain ⟨field, direction⟩ := e
  rw [lastDirection, List.reverse_concat, List.lookup_cons]
  by_cases h : name = field
  · simp [h]
  · rw [if_neg h, beq_eq_false_iff_ne.mpr h]
    rfl

theorem latest_concat (pairs : SortSpec) (e : String × Direction) :
    (pairs ++ [e]).latest = pairs.latest.put e.1 e.2 := by
  obtain ⟨field, direction⟩ := e
  simp only [latest, fields_concat, lastDirection_concat, eraseDups_concat]
  by_cases h : field ∈ pairs.fields
  · rw [if_pos h]
    exact (put_of_mem (nodup_eraseDups _) (List.mem_eraseDups.mpr h) _).symm
  · rw [if_neg h, List.map_append]
    have hnew : field ∉ pairs.latest.fields := by
      rwa [fields_latest, List.mem_eraseDups]
    have hkept : pairs.fields.eraseDups.map (fun name => (name, if name = field then direction
        else pairs.lastDirection name)) = pairs.latest :=
      List.map_congr_left fun name hname => by
        rw [if_neg (ne_of_mem_of_not_mem (List.mem_eraseDups.mp hname) h)]
    rw [hkept, List.map_singleton, if_pos rfl]
    exact (put_of_notMem hnew).symm

@[simp] theorem putAll_nil (pairs : SortSpec) : putAll [] pairs = pairs.latest := by
  induction pairs using List.reverseRecOn with
  | nil => rfl
  | append_singleton pairs e ih => rw [latest_concat, ← ih, putAll, List.foldl_concat, putAll]

theorem ofTexts_eq_latest (names flags : List String) :
    ofTexts names flags = (requested names flags).latest := by
  rw [ofTexts_eq_putAll, putAll_nil]

theorem latest_of_nodup (h : pairs.fields.Nodup) : pairs.latest = pairs := by
  induction pairs using List.reverseRecOn with
  | nil => rfl
  | append_singleton pairs e ih =>
    rw [fields_concat, ← List.concat_eq_append, List.nodup_concat] at h
    rw [latest_concat, ih h.2, put_of_notMem h.1]

/-- Nothing is lost only where nothing came again. -/
theorem eq_of_latest_eq (h : pairs.latest = spec) (hlength : pairs.length = spec.length) :
    pairs = spec := by
  have hfields : pairs.fields.eraseDups = pairs.fields := by
    refine (eraseDups_sublist _).eq_of_length ?_
    rw [← fields_latest, h, fields, fields, List.length_map, List.length_map, hlength]
  rw [← h, latest_of_nodup (hfields ▸ nodup_eraseDups _)]

theorem ofValues_of_pieces {values flags : Value} {names words : List String}
    (hvalues : values.pieces = .ok names) (hflags : flags.pieces = .ok words) :
    ofValues values flags = .ok (ofTexts names words) := by
  rw [ofValues, hvalues, hflags]
  rfl

theorem ofValues_eq {values flags : Value} {names words : List String}
    (hvalues : values.pieces = .ok names) (hflags : flags.pieces = .ok words) :
    ofValues values flags = .ok (requested names words).latest := by
  rw [← ofTexts_eq_latest, ofValues_of_pieces hvalues hflags]

end SortSpec

end DocGrid

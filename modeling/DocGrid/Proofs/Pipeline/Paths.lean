import DocGrid.Value.Path
import DocGrid.Proofs.Text.Split

/-! Writing at a path and reading along paths. What was written is read back along the same path, and
a path that leads neither through that place nor to a place above it leads where it led before. Only
a point at the end of a path is lost in writing, so that the value stands where the path without it
leads. -/

namespace DocGrid

theorem pathSegments_ne_nil (path : String) : pathSegments path ≠ [] := by
  have hsplit := Text.split_ne_nil '.' path.toList
  simpa [pathSegments, Text.splitText] using hsplit

theorem pathSegments_of_notMem {path : String} (h : '.' ∉ path.toList) :
    pathSegments path = [path] := by
  simp [pathSegments, Text.splitText, Text.split_of_not_mem h]

theorem pathSegments_append (base rest : String) :
    pathSegments (base ++ "." ++ rest) = pathSegments base ++ pathSegments rest := by
  simp [pathSegments, Text.splitText]

/-- Neither path begins with the segments of the other. -/
def PathsPart (p q : String) : Prop :=
  ¬ pathSegments p <+: pathSegments q ∧ ¬ pathSegments q <+: pathSegments p

instance (p q : String) : Decidable (PathsPart p q) :=
  inferInstanceAs (Decidable (_ ∧ _))

/-- The last segment is empty, and it is not the only one. -/
def EndsInPoint (path : String) : Prop :=
  ∃ base, path = base ++ "."

@[simp]
theorem endsInPoint_iff {path : String} : EndsInPoint path ↔ path.toList.getLast? = some '.' := by
  constructor
  · rintro ⟨base, rfl⟩
    simp
  · intro h
    obtain ⟨cs, hcs⟩ := List.getLast?_eq_some_iff.mp h
    refine ⟨String.ofList cs, ?_⟩
    rw [← String.toList_inj, hcs]
    simp

instance : DecidablePred EndsInPoint :=
  fun _ => decidable_of_iff _ endsInPoint_iff.symm

@[simp] theorem pathSegments_point (base : String) :
    pathSegments (base ++ ".") = pathSegments base ++ [""] := by
  have happend := pathSegments_append base ""
  rwa [String.append_empty] at happend

theorem join_pathSegments (path : String) :
    Text.join ['.'] ((pathSegments path).map String.toList) = path.toList := by
  simp [pathSegments, Text.splitText, Function.comp_def]

theorem endsInPoint_of_segments {path : String} {p : List String} (hne : p ≠ [])
    (h : pathSegments path = p ++ [""]) : EndsInPoint path := by
  have hjoin := join_pathSegments path
  rw [h, List.map_append, Text.join_append (by simpa using hne) (by simp)] at hjoin
  rw [endsInPoint_iff, ← hjoin]
  simp [Text.join]

namespace Value

theorem follow_append (v : Value) (p q : List String) :
    v.follow (p ++ q) = (v.follow p).bind (follow q) := by
  induction p generalizing v with
  | nil => rfl
  | cons key rest ih =>
    cases v with
    | mapping entries =>
      simp only [List.cons_append, follow, Option.bind_assoc]
      exact Option.bind_congr fun v _ => ih v
    | _ => rfl

theorem sizeOf_get? {doc : Document} {key : String} {v : Value} (h : doc.get? key = some v) :
    sizeOf v < sizeOf doc := by
  have hentry := List.sizeOf_lt_of_mem (Document.mem_of_get? h)
  rw [Prod.mk.sizeOf_spec] at hentry
  omega

theorem sizeOf_follow {v w : Value} {p : List String} (h : v.follow p = some w) :
    sizeOf w + p.length ≤ sizeOf v := by
  induction p generalizing v with
  | nil =>
    cases h
    simp
  | cons key rest ih =>
    cases v with
    | mapping entries =>
      obtain ⟨u, hu, hw⟩ := Option.bind_eq_some_iff.mp h
      have hlt := sizeOf_get? hu
      have hle := ih hw
      simp only [Value.mapping.sizeOf_spec, List.length_cons]
      omega
    | _ => cases h

/-- No value lies inside itself. -/
theorem follow_ne_self (v : Value) {p : List String} (hne : p ≠ []) : v.follow p ≠ some v := by
  intro h
  have hlength := List.length_pos_of_ne_nil hne
  have hsize := sizeOf_follow h
  omega

end Value

namespace Document

variable {p q : List String} {doc : Document}

@[simp] theorem follow_cons (doc : Document) (key : String) (rest : List String) :
    (Value.mapping doc).follow (key :: rest) = (doc.get? key).bind (Value.follow rest) := rfl

/-- A path without points leads to the value of that name. -/
theorem resolve_of_notMem {name : String} (h : '.' ∉ name.toList) (doc : Document) :
    (Value.mapping doc).resolve name = doc.get? name := by
  rw [Value.resolve, pathSegments_of_notMem h, follow_cons]
  cases doc.get? name <;> rfl

/-- Where no mapping is, the child is empty and no path leads on. -/
theorem follow_child (doc : Document) (key : String) (hne : q ≠ []) :
    (Value.mapping (doc.child key)).follow q = (Value.mapping doc).follow (key :: q) := by
  obtain ⟨next, rest, rfl⟩ := List.exists_cons_of_ne_nil hne
  rw [follow_cons doc, child]
  cases doc.get? key with
  | none => rfl
  | some v => cases v <;> rfl

theorem follow_put_of_ne {key other : String} (h : key ≠ other) (value : Value) (doc : Document)
    (rest : List String) : (Value.mapping (doc.put key value)).follow (other :: rest) =
      (Value.mapping doc).follow (other :: rest) := by
  simp [h]

theorem follow_put_self (key : String) (value : Value) (doc : Document) (rest : List String) :
    (Value.mapping (doc.put key value)).follow (key :: rest) = value.follow rest := by
  simp

/-- Sets the value at the end of the segments, the empty ones among them. -/
def setAt : List String → Value → Document → Document
  | [], _, doc => doc
  | [key], value, doc => doc.put key value
  | key :: next :: rest, value, doc =>
    doc.put key (.mapping (setAt (next :: rest) value (doc.child key)))

theorem writeAt_eq_setAt (h : ∀ q, p = q ++ [""] → q = []) (value : Value) (doc : Document) :
    doc.writeAt p value = doc.setAt p value := by
  induction p generalizing doc with
  | nil => rfl
  | cons key rest ih =>
    cases rest with
    | nil => rfl
    | cons next rest =>
      have hkept : ¬ (next = "" ∧ rest = []) := by
        rintro ⟨rfl, rfl⟩
        exact absurd (h [key] rfl) (List.cons_ne_nil _ _)
      rw [writeAt, if_neg hkept, setAt, ih]
      intro q hq
      exact absurd (h (key :: q) (congrArg (key :: ·) hq)) (List.cons_ne_nil _ _)

theorem writeAt_concat_empty (hne : p ≠ []) (value : Value) (doc : Document) :
    doc.writeAt (p ++ [""]) value = doc.setAt p value := by
  induction p generalizing doc with
  | nil => exact absurd rfl hne
  | cons key rest ih =>
    cases rest with
    | nil => rfl
    | cons next rest =>
      have hkept : ¬ (next = "" ∧ rest ++ [""] = []) := by simp
      rw [List.cons_append, List.cons_append, writeAt, if_neg hkept, setAt, ← List.cons_append,
        ih (List.cons_ne_nil _ _)]

theorem follow_setAt (hne : p ≠ []) (value : Value) (doc : Document) :
    (Value.mapping (doc.setAt p value)).follow p = some value := by
  induction p generalizing doc with
  | nil => exact absurd rfl hne
  | cons key rest ih =>
    cases rest with
    | nil => exact follow_put_self key value doc []
    | cons next rest =>
      rw [setAt, follow_put_self]
      exact ih (List.cons_ne_nil _ _) _

theorem follow_setAt_above (hne : q ≠ []) (value : Value) (doc : Document) :
    ∃ entries, (Value.mapping (doc.setAt (p ++ q) value)).follow p = some (.mapping entries) := by
  induction p generalizing doc with
  | nil => exact ⟨doc.setAt q value, rfl⟩
  | cons key rest ih =>
    obtain ⟨next, more, hmore⟩ :=
      List.exists_cons_of_ne_nil (List.append_ne_nil_of_right_ne_nil rest hne)
    rw [List.cons_append, hmore, setAt, follow_put_self, ← hmore]
    exact ih _

theorem follow_setAt_of_parts (hpq : ¬ p <+: q) (hqp : ¬ q <+: p) (value : Value)
    (doc : Document) :
    (Value.mapping (doc.setAt p value)).follow q = (Value.mapping doc).follow q := by
  induction p generalizing q doc with
  | nil => exact absurd List.nil_prefix hpq
  | cons key rest ih =>
    cases q with
    | nil => exact absurd List.nil_prefix hqp
    | cons other q =>
      rw [List.cons_prefix_cons] at hpq hqp
      -- while the two paths go the same way, the write goes on in the child
      by_cases hkey : key = other
      · subst hkey
        have hpq' : ¬ rest <+: q := fun h => hpq ⟨rfl, h⟩
        have hqp' : ¬ q <+: rest := fun h => hqp ⟨rfl, h⟩
        cases rest with
        | nil => exact absurd List.nil_prefix hpq'
        | cons next rest =>
          have hq : q ≠ [] := fun h => hqp' (h ▸ List.nil_prefix)
          rw [setAt, follow_put_self, ih hpq' hqp', follow_child doc key hq]
      · cases rest with
        | nil => exact follow_put_of_ne hkey value doc q
        | cons next rest => exact follow_put_of_ne hkey _ doc q

/-- What a document with a value set at a path reads as: the value along the path and on from
there, mappings above it, and on paths that part from it what the document itself has there. -/
structure HasValue (path : String) (value : Value) (doc out : Document) : Prop where
  within : ∀ other rest, pathSegments other = pathSegments path ++ rest →
    out.resolve other = value.follow rest
  above : ∀ other rest, pathSegments path = pathSegments other ++ rest → rest ≠ [] →
    ∃ entries, out.resolve other = some (.mapping entries)
  elsewhere : ∀ other, PathsPart path other → out.resolve other = doc.resolve other

theorem HasValue.resolve_eq {path : String} {value : Value} {doc out : Document}
    (h : HasValue path value doc out) : out.resolve path = some value :=
  h.within path [] (List.append_nil _).symm

theorem hasValue_setAt (path : String) (value : Value) (doc : Document) :
    HasValue path value doc (doc.setAt (pathSegments path) value) where
  within other rest h := by
    rw [resolve, Value.resolve, h, Value.follow_append,
      follow_setAt (pathSegments_ne_nil path), Option.bind_some]
  above other rest h hne := by
    rw [h]
    exact follow_setAt_above hne value doc
  elsewhere other h := follow_setAt_of_parts h.1 h.2 value doc

theorem hasValue_withPath {path : String} (h : ¬ EndsInPoint path) (value : Value)
    (doc : Document) : HasValue path value doc (doc.withPath path value) := by
  have hlast : ∀ p, pathSegments path = p ++ [""] → p = [] := by
    intro p hp
    by_contra hne
    exact h (endsInPoint_of_segments hne hp)
  rw [withPath, writeAt_eq_setAt hlast]
  exact hasValue_setAt path value doc

theorem hasValue_withPath_point (base : String) (value : Value) (doc : Document) :
    HasValue base value doc (doc.withPath (base ++ ".") value) := by
  rw [withPath, pathSegments_point, writeAt_concat_empty (pathSegments_ne_nil base)]
  exact hasValue_setAt base value doc

theorem withPath_of_notMem {key : String} (h : '.' ∉ key.toList) (value : Value)
    (doc : Document) : doc.withPath key value = doc.put key value := by
  rw [withPath, pathSegments_of_notMem h, writeAt]

/-- A path is cut at its first point, and what follows it is written into the mapping there. -/
theorem withPath_append {key : String} (h : '.' ∉ key.toList) (rest : String) (value : Value)
    (doc : Document) : doc.withPath (key ++ "." ++ rest) value =
      if rest = "" then doc.put key value
      else doc.put key (.mapping ((doc.child key).withPath rest value)) := by
  have hsegments : pathSegments (key ++ "." ++ rest) = key :: pathSegments rest := by
    rw [pathSegments_append, pathSegments_of_notMem h, List.singleton_append]
  obtain ⟨next, more, hrest⟩ := List.exists_cons_of_ne_nil (pathSegments_ne_nil rest)
  have hempty : (next = "" ∧ more = []) ↔ rest = "" := by
    have hjoin := join_pathSegments rest
    constructor
    · rintro ⟨rfl, rfl⟩
      rw [hrest] at hjoin
      exact String.toList_inj.mp hjoin.symm
    · rintro rfl
      exact List.cons_eq_cons.mp hrest.symm
  simp only [withPath, hsegments, hrest, writeAt, hempty]

/-- A value written along a path is read back along it exactly if the path does not end in a point,
and then all else is as it was. A final point is lost: the value stands where the path without it
leads, in place of the mapping that the empty key belongs in. -/
theorem withPath_reads (doc : Document) (path : String) (value : Value) :
    ((doc.withPath path value).resolve path = some value ↔ ¬ EndsInPoint path) ∧
      (¬ EndsInPoint path → HasValue path value doc (doc.withPath path value)) ∧
      ∀ base, path = base ++ "." → HasValue base value doc (doc.withPath path value) := by
  have hpoint : ∀ base, path = base ++ "." → HasValue base value doc (doc.withPath path value) := by
    rintro base rfl
    exact hasValue_withPath_point base value doc
  refine ⟨⟨?_, fun h => (hasValue_withPath h value doc).resolve_eq⟩,
    fun h => hasValue_withPath h value doc, hpoint⟩
  rintro hread ⟨base, hbase⟩
  have hsegments : pathSegments path = pathSegments base ++ [""] := by
    rw [hbase, pathSegments_point]
  rw [(hpoint base hbase).within path [""] hsegments] at hread
  exact value.follow_ne_self (List.cons_ne_nil _ _) hread

/-- A text in the way gives place to a mapping, and of two final points one is lost. -/
theorem withPath_reads_overText :
    let doc : Document := [("a", .text "x"), ("b", .int 2)]
    ¬ EndsInPoint "a..c" ∧ HasValue "a..c" .null doc (doc.withPath "a..c" .null) ∧
      "a.." = "a." ++ "." ∧ HasValue "a." .null doc (doc.withPath "a.." .null) := by
  intro doc
  have hpoint : ¬ EndsInPoint "a..c" := by decide
  have htwo : "a.." = "a." ++ "." := by decide
  exact ⟨hpoint, (withPath_reads doc "a..c" .null).2.1 hpoint, htwo,
    (withPath_reads doc "a.." .null).2.2 "a." htwo⟩

/-- Written along `a.`, a value is not found there, and it takes the place of all else under `a`. -/
theorem not_withPath_reads :
    (¬ ∀ (doc : Document) (path : String) (value : Value),
      (doc.withPath path value).resolve path = some value) ∧
    ¬ ∀ (doc : Document) (path other : String) (value : Value), PathsPart path other →
      (doc.withPath path value).resolve other = doc.resolve other := by
  constructor
  · intro hall
    cases hall [] "a." (.int 1)
  · intro hall
    cases hall [("a", .mapping [("b", .int 2)])] "a." "a.b" (.int 1) (by decide)

end Document

end DocGrid

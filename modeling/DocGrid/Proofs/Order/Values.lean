import DocGrid.Proofs.Order.Keys
import DocGrid.Proofs.Text.Digits
import DocGrid.Proofs.Text.Split
import DocGrid.Value.Path

/-! Values by their sort keys. Values without NaN are one value when grouping exactly if their keys
are not told apart. -/

namespace DocGrid

namespace CalendarDate

theorem split_textChars (d : CalendarDate) : Text.split '-' d.textChars =
    [Text.padded 4 d.year, Text.padded 2 d.month, Text.padded 2 d.day] := by
  have hfree : ∀ p ∈ [Text.padded 4 d.year, Text.padded 2 d.month, Text.padded 2 d.day],
      '-' ∉ p := by
    simp [Text.hyphen_notMem_padded]
  rw [← Text.split_join (by simp) hfree]
  simp [textChars, Text.join]

theorem text_injective {d e : CalendarDate} (h : d.text = e.text) : d = e := by
  have hpieces : Text.split '-' d.textChars = Text.split '-' e.textChars :=
    congrArg _ (String.ofList_injective h)
  simp only [split_textChars, List.cons.injEq, and_true] at hpieces
  obtain ⟨hyear, hmonth, hday⟩ := hpieces
  obtain ⟨year, month, day⟩ := d
  obtain rfl : year = e.year := Text.padded_injective 4 hyear
  obtain rfl : month = e.month := Text.padded_injective 2 hmonth
  obtain rfl : day = e.day := Text.padded_injective 2 hday
  rfl

end CalendarDate

namespace Value

/-- Induction with the parts of lists and mappings at hand. -/
theorem byParts {P : Value → Prop} (null : P .null) (bool : ∀ b, P (.bool b))
    (number : ∀ n, P (.number n)) (text : ∀ s, P (.text s)) (date : ∀ d, P (.date d))
    (datetime : ∀ t, P (.datetime t))
    (list : ∀ items : List Value, (∀ v ∈ items, P v) → P (.list items))
    (mapping : ∀ entries : Document, (∀ e ∈ entries, P e.2) → P (.mapping entries)) :
    ∀ v, P v :=
  @Value.rec P (fun items => ∀ v ∈ items, P v) (fun entries => ∀ e ∈ entries, P e.2)
    (fun e => P e.2) null bool number text date datetime list mapping
    (by simp) (fun _ _ hv hvs => List.forall_mem_cons.mpr ⟨hv, hvs⟩)
    (by simp) (fun _ _ he hes => List.forall_mem_cons.mpr ⟨he, hes⟩) (fun _ _ h => h)

mutual

def numbers : Value → List Number
  | number n => [n]
  | list items => numbersOfItems items
  | mapping entries => numbersOfEntries entries
  | _ => []

def numbersOfItems : List Value → List Number
  | [] => []
  | v :: rest => numbers v ++ numbersOfItems rest

def numbersOfEntries : List (String × Value) → List Number
  | [] => []
  | (_, v) :: rest => numbers v ++ numbersOfEntries rest

end

mutual

def times : Value → List DateTime
  | datetime t => [t]
  | list items => timesOfItems items
  | mapping entries => timesOfEntries entries
  | _ => []

def timesOfItems : List Value → List DateTime
  | [] => []
  | v :: rest => times v ++ timesOfItems rest

def timesOfEntries : List (String × Value) → List DateTime
  | [] => []
  | (_, v) :: rest => times v ++ timesOfEntries rest

end

mutual

theorem numbers_sortKey : ∀ v : Value, v.sortKey.numbers = v.numbers
  | null | bool _ | number _ | text _ | date _ | datetime _ => rfl
  | list items => numbers_sortKeys items
  | mapping entries => numbers_entrySortKeys entries

theorem numbers_sortKeys : ∀ items : List Value,
    SortKey.numbersOfItems (sortKeys items) = numbersOfItems items
  | [] => rfl
  | v :: rest => congrArg₂ (· ++ ·) (numbers_sortKey v) (numbers_sortKeys rest)

theorem numbers_entrySortKeys : ∀ entries : List (String × Value),
    SortKey.numbersOfEntries (entrySortKeys entries) = numbersOfEntries entries
  | [] => rfl
  | (_, v) :: rest => congrArg₂ (· ++ ·) (numbers_sortKey v) (numbers_entrySortKeys rest)

end

mutual

theorem times_sortKey : ∀ v : Value, v.sortKey.times = v.times
  | null | bool _ | number _ | text _ | date _ | datetime _ => rfl
  | list items => times_sortKeys items
  | mapping entries => times_entrySortKeys entries

theorem times_sortKeys : ∀ items : List Value,
    SortKey.timesOfItems (sortKeys items) = timesOfItems items
  | [] => rfl
  | v :: rest => congrArg₂ (· ++ ·) (times_sortKey v) (times_sortKeys rest)

theorem times_entrySortKeys : ∀ entries : List (String × Value),
    SortKey.timesOfEntries (entrySortKeys entries) = timesOfEntries entries
  | [] => rfl
  | (_, v) :: rest => congrArg₂ (· ++ ·) (times_sortKey v) (times_entrySortKeys rest)

end

theorem sameGroupItems_comm {xs ys : List Value}
    (h : ∀ v ∈ xs, ∀ w, v.sameGroup w = w.sameGroup v) :
    sameGroupItems xs ys = sameGroupItems ys xs := by
  induction xs generalizing ys with
  | nil => cases ys <;> rfl
  | cons x xs ih =>
    cases ys with
    | nil => rfl
    | cons y ys =>
      rw [sameGroupItems, sameGroupItems, h x (by simp) y,
        ih fun v hv => h v (List.mem_cons_of_mem _ hv)]

theorem sameGroupEntries_comm {xs ys : List (String × Value)}
    (h : ∀ e ∈ xs, ∀ w, e.2.sameGroup w = w.sameGroup e.2) :
    sameGroupEntries xs ys = sameGroupEntries ys xs := by
  induction xs generalizing ys with
  | nil => cases ys <;> rfl
  | cons x xs ih =>
    cases ys with
    | nil => rfl
    | cons y ys =>
      obtain ⟨⟨k, x⟩, ⟨l, y⟩⟩ := x, y
      rw [sameGroupEntries, sameGroupEntries, h (k, x) (by simp) y,
        ih fun e he => h e (List.mem_cons_of_mem _ he), Bool.beq_comm]

theorem sameGroup_comm (v w : Value) : v.sameGroup w = w.sameGroup v := by
  induction v using byParts generalizing w with
  | number n =>
    cases w with
    | number m =>
      simp only [sameGroup, Number.same]
      cases n.quantity? <;> cases m.quantity? <;> simp only [eq_comm]
    | _ => rfl
  | datetime t =>
    cases w with
    | datetime u => simp only [sameGroup, DateTime.same, Bool.beq_comm]
    | _ => rfl
  | list items ih =>
    cases w with
    | list _ => exact sameGroupItems_comm ih
    | _ => rfl
  | mapping entries ih =>
    cases w with
    | mapping _ => exact sameGroupEntries_comm ih
    | _ => rfl
  | _ => cases w <;> simp only [sameGroup, Bool.beq_comm]

theorem sameGroupItems_iff {xs ys : List Value}
    (h : ∀ v ∈ xs, ∀ w, SortKey.Proper v.numbers → SortKey.Proper w.numbers →
      (v.sameGroup w = true ↔ SortKey.compare? v.sortKey w.sortKey = some .eq))
    (hx : SortKey.Proper (numbersOfItems xs)) (hy : SortKey.Proper (numbersOfItems ys)) :
    sameGroupItems xs ys = true ↔
      SortKey.compareItems? (sortKeys xs) (sortKeys ys) = some .eq := by
  induction xs generalizing ys with
  | nil => cases ys <;> simp [sameGroupItems, sortKeys, SortKey.compareItems?]
  | cons x xs ih =>
    cases ys with
    | nil => simp [sameGroupItems, sortKeys, SortKey.compareItems?]
    | cons y ys =>
      simp only [numbersOfItems, SortKey.proper_append] at hx hy
      simp [sameGroupItems, sortKeys, SortKey.compareItems?_cons, h x (by simp) y hx.1 hy.1,
        ih (fun v hv => h v (List.mem_cons_of_mem _ hv)) hx.2 hy.2]

theorem sameGroupEntries_iff {xs ys : List (String × Value)}
    (h : ∀ e ∈ xs, ∀ w, SortKey.Proper e.2.numbers → SortKey.Proper w.numbers →
      (e.2.sameGroup w = true ↔ SortKey.compare? e.2.sortKey w.sortKey = some .eq))
    (hx : SortKey.Proper (numbersOfEntries xs)) (hy : SortKey.Proper (numbersOfEntries ys)) :
    sameGroupEntries xs ys = true ↔
      SortKey.compareEntries? (entrySortKeys xs) (entrySortKeys ys) = some .eq := by
  induction xs generalizing ys with
  | nil => cases ys <;> simp [sameGroupEntries, entrySortKeys, SortKey.compareEntries?]
  | cons x xs ih =>
    cases ys with
    | nil => simp [sameGroupEntries, entrySortKeys, SortKey.compareEntries?]
    | cons y ys =>
      obtain ⟨⟨k, x⟩, ⟨l, y⟩⟩ := x, y
      simp only [numbersOfEntries, SortKey.proper_append] at hx hy
      simp [sameGroupEntries, entrySortKeys, SortKey.compareEntries?_cons, and_assoc,
        h (k, x) (by simp) y hx.1 hy.1,
        ih (fun e he => h e (List.mem_cons_of_mem _ he)) hx.2 hy.2]

/-- Whether the keys are compared to the end or by rank only, depends on the kinds of the values. -/
theorem sameGroup_iff_of_kinds {v w : Value}
    (h : SortKey.Alike v.sortKey w.sortKey →
      (v.sameGroup w = true ↔ SortKey.within v.sortKey w.sortKey = some .eq)) :
    v.sameGroup w = true ↔ SortKey.compare? v.sortKey w.sortKey = some .eq := by
  rw [SortKey.compare?_eq, Verdict.next_eq_iff, Option.some.injEq,
    Std.LawfulEqCmp.compare_eq_iff_eq]
  constructor
  · intro hsame
    have hrank : v.sortKey.rank = w.sortKey.rank := by
      cases v <;> cases w <;> first | rfl | simp [sameGroup] at hsame
    exact ⟨hrank, (h (SortKey.alike_of_rank hrank)).mp hsame⟩
  · exact fun ⟨hrank, hwithin⟩ => (h (SortKey.alike_of_rank hrank)).mpr hwithin

theorem sameGroup_iff (v w : Value) (hv : SortKey.Proper v.numbers)
    (hw : SortKey.Proper w.numbers) :
    v.sameGroup w = true ↔ SortKey.compare? v.sortKey w.sortKey = some .eq := by
  -- Kinds are told apart on both sides, so that two values of one kind are left.
  induction v using byParts generalizing w with
  | null =>
    refine sameGroup_iff_of_kinds fun h => ?_
    cases w <;> cases h
    simp [sameGroup, sortKey, SortKey.within]
  | bool b =>
    refine sameGroup_iff_of_kinds fun h => ?_
    cases w <;> cases h
    simp [sameGroup, sortKey, SortKey.within]
  | number n =>
    refine sameGroup_iff_of_kinds fun h => ?_
    cases w <;> cases h
    obtain ⟨p, hp⟩ := SortKey.proper_singleton.mp hv
    obtain ⟨q, hq⟩ := SortKey.proper_singleton.mp hw
    simp only [sortKey, SortKey.within_numbers hp hq, sameGroup, Number.same, hp, hq]
    simp
  | text s =>
    refine sameGroup_iff_of_kinds fun h => ?_
    cases w <;> cases h
    simp [sameGroup, sortKey, SortKey.within]
  | date d =>
    refine sameGroup_iff_of_kinds fun h => ?_
    cases w <;> cases h
    simpa [sameGroup, sortKey, SortKey.within] using
      ⟨congrArg CalendarDate.text, CalendarDate.text_injective⟩
  | datetime t =>
    refine sameGroup_iff_of_kinds fun h => ?_
    cases w <;> cases h
    simp [sameGroup, sortKey, SortKey.within, DateTime.same, DateTime.compare?]
  | list items ih =>
    refine sameGroup_iff_of_kinds fun h => ?_
    cases w <;> cases h
    exact sameGroupItems_iff ih hv hw
  | mapping entries ih =>
    refine sameGroup_iff_of_kinds fun h => ?_
    cases w <;> cases h
    exact sameGroupEntries_iff ih hv hw

theorem sameGroup_self {v : Value} (hv : SortKey.Proper v.numbers) : v.sameGroup v = true :=
  (sameGroup_iff v v hv hv).mpr (SortKey.compare?_self _)

theorem consistent_sortKey {u v w : Value} (hu : SortKey.Proper u.numbers)
    (hv : SortKey.Proper v.numbers) (hw : SortKey.Proper w.numbers) :
    Verdict.Chains (SortKey.compare? u.sortKey v.sortKey) (SortKey.compare? v.sortKey w.sortKey)
      (SortKey.compare? u.sortKey w.sortKey) := by
  rw [← numbers_sortKey] at hu hv hw
  exact SortKey.consistent _ _ _ hu hv hw

theorem sameGroup_congr {u v w : Value} (hu : SortKey.Proper u.numbers)
    (hv : SortKey.Proper v.numbers) (hw : SortKey.Proper w.numbers)
    (h : u.sameGroup v = true) : u.sameGroup w = v.sameGroup w := by
  rw [Bool.eq_iff_iff, sameGroup_iff u w hu hw, sameGroup_iff v w hv hw,
    (consistent_sortKey hu hv hw).same ((sameGroup_iff u v hu hv).mp h)]

@[simp]
theorem numbersOfItems_eq (items : List Value) : numbersOfItems items = items.flatMap numbers := by
  induction items with
  | nil => rfl
  | cons v rest ih => rw [numbersOfItems, ih, List.flatMap_cons]

@[simp] theorem numbersOfEntries_eq (entries : Document) :
    numbersOfEntries entries = entries.flatMap fun e => e.2.numbers := by
  induction entries with
  | nil => rfl
  | cons e rest ih => rw [numbersOfEntries, ih, List.flatMap_cons]

theorem numbers_item {items : List Value} {v : Value} (hv : v ∈ items) :
    v.numbers ⊆ (list items).numbers := by
  intro n hn
  rw [numbers, numbersOfItems_eq]
  exact List.mem_flatMap.mpr ⟨v, hv, hn⟩

theorem numbers_entry {entries : Document} {e : String × Value} (he : e ∈ entries) :
    e.2.numbers ⊆ (mapping entries).numbers := by
  intro n hn
  rw [numbers, numbersOfEntries_eq]
  exact List.mem_flatMap.mpr ⟨e, he, hn⟩

theorem numbers_follow {path : List String} {v w : Value} (h : v.follow path = some w) :
    w.numbers ⊆ v.numbers := by
  induction path generalizing v with
  | nil =>
    obtain rfl := Option.some.inj h
    exact List.Subset.refl _
  | cons k rest ih =>
    cases v with
    | mapping entries =>
      obtain ⟨u, hu, h⟩ := Option.bind_eq_some_iff.mp h
      exact List.Subset.trans (ih h) (numbers_entry (Document.mem_of_get? hu))
    | _ => cases h

@[simp]
theorem timesOfItems_eq (items : List Value) : timesOfItems items = items.flatMap times := by
  induction items with
  | nil => rfl
  | cons v rest ih => rw [timesOfItems, ih, List.flatMap_cons]

@[simp] theorem timesOfEntries_eq (entries : Document) :
    timesOfEntries entries = entries.flatMap fun e => e.2.times := by
  induction entries with
  | nil => rfl
  | cons e rest ih => rw [timesOfEntries, ih, List.flatMap_cons]

/-- A value that holds no NaN and only points in time of one kind. -/
structure Orderly (aware : Bool) (v : Value) : Prop where
  proper : SortKey.Proper v.numbers
  ofKind : SortKey.OfKind aware v.times

instance (aware : Bool) (v : Value) : Decidable (v.Orderly aware) :=
  decidable_of_iff (SortKey.Proper v.numbers ∧ SortKey.OfKind aware v.times)
    ⟨fun h => ⟨h.1, h.2⟩, fun h => ⟨h.proper, h.ofKind⟩⟩

namespace Orderly

variable {aware : Bool} {v w : Value}

theorem item {items : List Value} (h : (list items).Orderly aware) (hv : v ∈ items) :
    v.Orderly aware := by
  refine ⟨fun n hn => h.proper n (numbers_item hv hn), fun t ht => h.ofKind t ?_⟩
  rw [times, timesOfItems_eq]
  exact List.mem_flatMap.mpr ⟨v, hv, ht⟩

theorem entry {entries : Document} (h : (mapping entries).Orderly aware)
    {e : String × Value} (he : e ∈ entries) : e.2.Orderly aware := by
  refine ⟨fun n hn => h.proper n (numbers_entry he hn), fun t ht => h.ofKind t ?_⟩
  rw [times, timesOfEntries_eq]
  exact List.mem_flatMap.mpr ⟨e, he, ht⟩

theorem follow (h : v.Orderly aware) {path : List String} (hw : v.follow path = some w) :
    w.Orderly aware := by
  induction path generalizing v with
  | nil =>
    obtain rfl := Option.some.inj hw
    exact h
  | cons k rest ih =>
    cases v with
    | mapping entries =>
      obtain ⟨u, hu, hw⟩ := Option.bind_eq_some_iff.mp hw
      exact ih (h.entry (Document.mem_of_get? hu)) hw
    | _ => cases hw

theorem sameGroup_iff (hv : v.Orderly aware) (hw : w.Orderly aware) :
    v.sameGroup w = true ↔ SortKey.compare? v.sortKey w.sortKey = some .eq :=
  Value.sameGroup_iff v w hv.proper hw.proper

theorem proper_sortKey (hv : v.Orderly aware) : SortKey.Proper v.sortKey.numbers := by
  rw [numbers_sortKey]
  exact hv.proper

theorem compare?_isSome (hv : v.Orderly aware) (hw : w.Orderly aware) :
    (SortKey.compare? v.sortKey w.sortKey).isSome := by
  have htimes {u : Value} (hu : u.Orderly aware) : SortKey.OfKind aware u.sortKey.times := by
    rw [times_sortKey]
    exact hu.ofKind
  exact SortKey.compare?_isSome _ _ (htimes hv) (htimes hw)

end Orderly

end Value

end DocGrid

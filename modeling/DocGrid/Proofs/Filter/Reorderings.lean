import DocGrid.Filter.TextSearch
import DocGrid.Proofs.Filter.OrderOperators
import Mathlib.Logic.Relation

/-! Values whose mappings have their keys in another order. Paths lead to the same places, what
stands there compares and matches in the same way, and the texts inside are the same ones in another
order. -/

namespace DocGrid

namespace Document

theorem get?_perm {xs ys : Document} (hkeys : xs.keys.Nodup) (h : xs.Perm ys) (key : String) :
    xs.get? key = ys.get? key := by
  induction h with
  | nil => rfl
  | cons e h ih =>
    obtain ⟨k, v⟩ := e
    rw [get?, get?, ih (List.nodup_cons.mp hkeys).2]
  | swap e e' xs =>
    obtain ⟨k, v⟩ := e
    obtain ⟨k', v'⟩ := e'
    have hne : k' ≠ k := fun heq => (List.nodup_cons.mp hkeys).1 (heq ▸ List.mem_cons_self)
    simp only [get?]
    by_cases hk : k = key
    · have hk' : k' ≠ key := hk ▸ hne
      simp [hk, hk']
    · simp [hk]
  | trans h h' ih ih' =>
    have hkeys' := (h.map fun e : String × Value => e.1).nodup_iff.mp hkeys
    exact (ih hkeys).trans (ih' hkeys')

theorem get?_middle (before : Document) (k : String) (v w : Value) (after : Document)
    (key : String) :
    get? key (before ++ (k, v) :: after) = get? key (before ++ (k, w) :: after) ∨
      get? key (before ++ (k, v) :: after) = some v ∧
        get? key (before ++ (k, w) :: after) = some w := by
  induction before with
  | nil =>
    by_cases hk : k = key
    · exact .inr ⟨if_pos hk, if_pos hk⟩
    · exact .inl ((if_neg hk).trans (if_neg hk).symm)
  | cons e before ih =>
    obtain ⟨k', v'⟩ := e
    simp only [List.cons_append, get?]
    by_cases hk : k' = key
    · simp [hk]
    · simpa [hk] using ih

end Document

namespace Value

/-- One of the mappings inside has its keys in another order. -/
inductive Reorders : Value → Value → Prop
  | keys {xs ys : Document} (hkeys : xs.keys.Nodup) (h : xs.Perm ys) :
      Reorders (mapping xs) (mapping ys)
  | item {v w : Value} (h : Reorders v w) (before after : List Value) :
      Reorders (list (before ++ v :: after)) (list (before ++ w :: after))
  | entry {v w : Value} (h : Reorders v w) (before : Document) (key : String) (after : Document) :
      Reorders (mapping (before ++ (key, v) :: after)) (mapping (before ++ (key, w) :: after))

/-- Any number of mappings, at any depth, have their keys in another order. -/
def Reordered : Value → Value → Prop :=
  Relation.ReflTransGen Reorders

def isComposite : Value → Bool
  | list _ => true
  | mapping _ => true
  | _ => false

section Composite

variable {v : Value} (hv : v.isComposite = true)

include hv

theorem same_item (i : Item) : v.same i.value = false := by
  cases v with
  | list _ | mapping _ => cases i <;> rfl
  | _ => cases hv

theorem standing_item (i : Item) : v.standing i.value = .unrelated := by
  cases v with
  | list _ | mapping _ => cases i <;> rfl
  | _ => cases hv

theorem beside_composite (operand : Operand) : operand.beside v = operand.value := by
  cases v with
  | list _ | mapping _ =>
    cases operand with
    | item i => cases i <;> rfl
    | _ => rfl
  | _ => cases hv

end Composite

/-- A comparison that goes item by item, and to which `v` and `w` are alike beside each of the
items, does not see one put for the other. -/
theorem itemwise_replace {β : Type} {compareItems : List Value → List Value → β} {v w : Value}
    (step : Value → Value → β → β)
    (hcons : ∀ x xs y ys, compareItems (x :: xs) (y :: ys) = step x y (compareItems xs ys))
    (hnil : ∀ x xs y ys, compareItems (x :: xs) [] = compareItems (y :: ys) [])
    (hstep : ∀ i : Item, step v i.value = step w i.value)
    (before after : List Value) (items : List Item) :
    compareItems (before ++ v :: after) (items.map Item.value) =
      compareItems (before ++ w :: after) (items.map Item.value) := by
  induction before generalizing items with
  | nil =>
    cases items with
    | nil => exact hnil v after w after
    | cons i items => exact (hcons ..).trans ((congrFun (hstep i) _).trans (hcons ..).symm)
  | cons x before ih =>
    cases items with
    | nil => exact hnil x _ x _
    | cons i items =>
      calc compareItems (x :: (before ++ v :: after)) (i.value :: items.map Item.value)
        _ = step x i.value (compareItems (before ++ v :: after) (items.map Item.value)) := hcons ..
        _ = step x i.value (compareItems (before ++ w :: after) (items.map Item.value)) := by
          rw [ih]
        _ = compareItems (x :: (before ++ w :: after)) (i.value :: items.map Item.value) :=
          (hcons ..).symm

namespace Reorders

variable {v w : Value} (h : v.Reorders w)

include h

theorem composite : v.isComposite = true ∧ w.isComposite = true := by
  cases h <;> exact ⟨rfl, rfl⟩

theorem isNull_eq : v.isNull = w.isNull := by
  cases h <;> rfl

theorem text?_eq : v.text? = w.text? := by
  cases h <;> rfl

theorem holds_eq (t : TypeName) : t.holds v = t.holds w := by
  cases h <;> cases t <;> rfl

theorem same_operand (operand : Operand) : v.same operand.value = w.same operand.value := by
  obtain ⟨hv, hw⟩ := h.composite
  cases operand with
  | item i => exact (same_item hv i).trans (same_item hw i).symm
  | list items =>
    cases h with
    | keys hkeys h => rfl
    | item h before after =>
      obtain ⟨hv, hw⟩ := h.composite
      refine itemwise_replace (fun x y rest => same x y && rest) (fun x xs y ys => rfl)
        (fun x xs y ys => rfl) (fun i => ?_) before after items
      rw [same_item hv, same_item hw]
    | entry h before key after => rfl
  | _ => cases h <;> rfl

theorem standing_operand (operand : Operand) :
    v.standing operand.value = w.standing operand.value := by
  obtain ⟨hv, hw⟩ := h.composite
  cases operand with
  | item i => exact (standing_item hv i).trans (standing_item hw i).symm
  | list items =>
    cases h with
    | keys hkeys h => rfl
    | item h before after =>
      obtain ⟨hv, hw⟩ := h.composite
      refine itemwise_replace (fun x y rest => if same x y then rest else standing x y)
        (fun x xs y ys => rfl) (fun x xs y ys => rfl) (fun i => ?_) before after items
      rw [same_item hv, same_item hw, standing_item hv, standing_item hw]
    | entry h before key after => rfl
  | _ => cases h <;> rfl

theorem equalsScalar_eq (operand : Operand) : equalsScalar v operand = equalsScalar w operand := by
  -- Beside lists and mappings no text is read as something else.
  obtain ⟨hv, hw⟩ := h.composite
  change v.same (operand.beside v) = w.same (operand.beside w)
  rw [beside_composite hv, beside_composite hw]
  exact h.same_operand operand

theorem ordersBefore_eq (op : Operator) (operand : Operand) :
    ordersBefore op operand v = ordersBefore op operand w := by
  obtain ⟨hv, hw⟩ := h.composite
  have hstanding : v.standing (operand.beside v) = w.standing (operand.beside w) := by
    rw [beside_composite hv, beside_composite hw]
    exact h.standing_operand operand
  unfold ordersBefore
  rw [h.isNull_eq]
  exact congrArg (fun s => if w.isNull then .ok false else op.accepts s) hstanding

/-- What gives the same for reordered values is the same item by item. -/
theorem candidates_map {β : Type} {g : Value → β} (hg : ∀ a b, Reorders a b → g a = g b) :
    v.candidates.map g = w.candidates.map g := by
  cases h with
  | keys hkeys h => exact congrArg (fun b => [b]) (hg _ _ (.keys hkeys h))
  | item h before after => simp [candidates, hg _ _ h]
  | entry h before key after => exact congrArg (fun b => [b]) (hg _ _ (.entry h before key after))

theorem candidates_any {test : Value → Bool} (htest : ∀ a b, Reorders a b → test a = test b) :
    v.candidates.any test = w.candidates.any test := by
  have hmap := congrArg (List.any · id) (h.candidates_map htest)
  simpa only [List.any_map, Function.id_comp] using hmap

theorem candidates_anyOf {test : Value → Result Bool}
    (htest : ∀ a b, Reorders a b → test a = test b) :
    anyOf test v.candidates = anyOf test w.candidates := by
  have hanyOf (xs : List Value) : anyOf test xs = anyOf id (xs.map test) := by
    induction xs with
    | nil => rfl
    | cons x xs ih => simp only [anyOf, List.map_cons, id, ih]
  rw [hanyOf, hanyOf, h.candidates_map htest]

theorem equalsOperand_eq (operand : Operand) :
    equalsOperand v operand = equalsOperand w operand := by
  cases h with
  | keys hkeys h => exact (Reorders.keys hkeys h).equalsScalar_eq operand
  | item h before after =>
    have hlist := Reorders.item h before after
    have hwhole := hlist.same_operand operand
    have hitems := hlist.candidates_any fun a b hab => hab.equalsScalar_eq operand
    exact congrArg₂ or hwhole hitems
  | entry h before key after => exact (Reorders.entry h before key after).equalsScalar_eq operand

theorem matchesType_eq (name : String) : matchesType v name = matchesType w name := by
  unfold matchesType
  cases TypeName.ofText? name with
  | none => rfl
  | some t =>
    have hwhole := h.holds_eq t
    cases h with
    | keys hkeys h => exact congrArg (· || false) hwhole
    | item h before after =>
      have hitems := (Reorders.item h before after).candidates_any fun a b hab => hab.holds_eq t
      exact congrArg₂ or hwhole (congrArg (t != .array && ·) hitems)
    | entry h before key after => exact congrArg (· || false) hwhole

theorem comparisonHolds_eq (op : Operator) (operand : Operand) :
    comparisonHolds (some v) op operand = comparisonHolds (some w) op operand := by
  have hequal : equalsOperand v = equalsOperand w := funext h.equalsOperand_eq
  have htype : matchesType v = matchesType w := funext h.matchesType_eq
  have horder := h.candidates_anyOf fun a b hab => hab.ordersBefore_eq op operand
  cases op <;>
    simp only [comparisonHolds, Option.getD_some, Option.isSome_some, h.isNull_eq, hequal, htype,
      horder]

theorem patternHolds_eq (text : String) (ignoreCase : Bool) :
    patternHolds (some v) text ignoreCase = patternHolds (some w) text ignoreCase := by
  unfold patternHolds
  cases Pattern.ofText? text with
  | error problem => rfl
  | ok p =>
    refine congrArg Except.ok (h.candidates_any fun a b hab => ?_)
    rw [hab.text?_eq]

/-- A path leads to the same place, which may itself have been reordered. -/
theorem follow_eq_or (path : List String) : v.follow path = w.follow path ∨
    ∃ a b, Reorders a b ∧ v.follow path = some a ∧ w.follow path = some b := by
  induction path generalizing v w with
  | nil => exact .inr ⟨v, w, h, rfl, rfl⟩
  | cons key path ih =>
    cases h with
    | keys hkeys h =>
      exact .inl (congrArg (·.bind (follow path)) (Document.get?_perm hkeys h key))
    | item h before after => exact .inl rfl
    | @entry a b h before k after =>
      -- The path leads past the changed entry, or into it.
      simp only [follow]
      rcases Document.get?_middle before k a b after key with heq | ⟨ha, hb⟩
      · exact .inl (by rw [heq])
      · rw [ha, hb]
        exact ih h

theorem resolve_eq {β : Type} {g : Option Value → β}
    (hg : ∀ a b, Reorders a b → g (some a) = g (some b)) (field : String) :
    g (v.resolve field) = g (w.resolve field) := by
  rcases h.follow_eq_or (pathSegments field) with heq | ⟨a, b, hab, ha, hb⟩
  · exact congrArg g heq
  · rw [resolve, resolve, ha, hb]
    exact hg a b hab

end Reorders

/-! The texts inside stay the same ones. -/

@[simp]
theorem textsOfItems_eq (items : List Value) : textsOfItems items = items.flatMap texts := by
  induction items with
  | nil => rfl
  | cons v items ih => rw [textsOfItems, ih, List.flatMap_cons]

@[simp] theorem textsOfEntries_eq (entries : Document) :
    textsOfEntries entries = entries.flatMap fun e => e.2.texts := by
  induction entries with
  | nil => rfl
  | cons e entries ih =>
    obtain ⟨k, v⟩ := e
    rw [textsOfEntries, ih, List.flatMap_cons]

theorem Reorders.texts_perm {v w : Value} (h : v.Reorders w) : v.texts.Perm w.texts := by
  induction h with
  | keys hkeys h =>
    rw [texts, texts, textsOfEntries_eq, textsOfEntries_eq]
    exact h.flatMap_right _
  | item h before after ih =>
    simp only [texts, textsOfItems_eq, List.flatMap_append, List.flatMap_cons]
    exact (ih.append_right _).append_left _
  | entry h before key after ih =>
    simp only [texts, textsOfEntries_eq, List.flatMap_append, List.flatMap_cons]
    exact (ih.append_right _).append_left _

namespace Reordered

variable {v w : Value} (h : v.Reordered w)

include h

theorem texts_perm : v.texts.Perm w.texts := by
  induction h with
  | refl => exact .refl _
  | tail _ hstep ih => exact ih.trans hstep.texts_perm

theorem resolve_eq {β : Type} {g : Option Value → β}
    (hg : ∀ a b, Reorders a b → g (some a) = g (some b)) (field : String) :
    g (v.resolve field) = g (w.resolve field) := by
  induction h with
  | refl => rfl
  | tail _ hstep ih => exact ih.trans (hstep.resolve_eq hg field)

end Reordered

end Value

end DocGrid

/-
Fields that are not read.

An object is read as a node of its kind from the fields whose keys in snake case name attributes that nodes of the kind
have; of the others only the kind is looked at (`fieldFor?_eq_none`). `Json.Pruned` relates data to what is left of them
when such objects, at any depth, lose fields that are not read, whatever these hold. What is left of an object is read
as the same node or with the same fault (`ofJson_pruned`).

Only an object of a modelled kind can lose fields. One of another kind is kept as it stands, and one without a kind is
named in its fault.
-/
import InterfacePages.Proofs.StatelessVisits
import InterfacePages.Proofs.TreeReading

namespace InterfacePages

/-- two entries under one key, with related values -/
inductive Keyed {κ α β : Type} (R : α → β → Prop) : κ × α → κ × β → Prop
  | mk (k : κ) {v : α} {w : β} (h : R v w) : Keyed R (k, v) (k, w)

namespace Node

/-! ## Fields that are passed over -/

/-- a key is neither the kind nor, in snake case, the label of an attribute that nodes of a kind have -/
def Unread (kind : Kind) (key : Text) : Prop :=
  key ≠ Text.ofString "kind" ∧ ∀ slot ∈ kind.slots, slot.attr.label ≠ Text.lower (Attr.separated key)

instance (kind : Kind) (key : Text) : Decidable (Unread kind key) := by unfold Unread; infer_instance

theorem ofLabel?_eq_some {t : Text} {a : Attr} : Attr.ofLabel? t = some a ↔ a.label = t := by
  constructor
  · intro h
    exact beq_iff_eq.1 (List.find?_some (p := fun a : Attr => a.label == t) h)
  · rintro rfl
    cases a <;> decide +kernel

theorem admits_eq_true {kind : Kind} {a : Attr} : admits kind a = true ↔ ∃ slot ∈ kind.slots, slot.attr = a := by
  simp [admits]

/-- **A field gives nothing to a node exactly if its key is the kind or is not read.** -/
theorem fieldFor?_eq_none {kind : Kind} {field : Text × Json} :
    fieldFor? kind field = none ↔ field.1 = Text.ofString "kind" ∨ Unread kind field.1 := by
  unfold fieldFor? Unread
  by_cases hkey : field.1 = Text.ofString "kind"
  · simp [hkey]
  · rw [if_neg hkey, Option.bind_eq_none_iff, or_iff_right hkey, and_iff_right hkey]
    constructor
    · intro h slot hslot hlabel
      have hnone := h slot.attr (ofLabel?_eq_some.2 hlabel)
      rw [if_pos (admits_eq_true.2 ⟨slot, hslot, rfl⟩)] at hnone
      cases hnone
    · intro h a ha
      refine if_neg fun hadmits => ?_
      obtain ⟨slot, hslot, rfl⟩ := admits_eq_true.1 hadmits
      exact h slot hslot (ofLabel?_eq_some.1 ha)

theorem usedFields_cons (kind : Kind) (field : Text × Json) (fields : List (Text × Json)) :
    usedFields kind (field :: fields) = (fieldFor? kind field).toList ++ usedFields kind fields := by
  unfold usedFields
  cases h : fieldFor? kind field with
  | none => rw [List.filterMap_cons_none h]; rfl
  | some used => rw [List.filterMap_cons_some h]; rfl

/-- the key of a field decides what it gives, the value is what it holds -/
theorem fieldFor?_keyed {R : Json → Json → Prop} (kind : Kind) {field field' : Text × Json} (h : Keyed R field field') :
    Option.Rel (Keyed R) (fieldFor? kind field) (fieldFor? kind field') := by
  obtain ⟨key, h⟩ := h
  unfold fieldFor?
  split
  · exact .none
  · cases Attr.ofKey? key with
    | none => exact .none
    | some a =>
      rw [Option.bind_some, Option.bind_some]
      split
      · exact .some (.mk a h)
      · exact .none

end Node

namespace Json

/-! ## Data with fewer fields -/

section

variable (R : Json → Json → Prop)

/-- the fields of an object that is read as a node of a kind and what is left of them without some that are not read,
where `R` relates the values of those that stay -/
inductive FieldsPruned (kind : Kind) : List (Text × Json) → List (Text × Json) → Prop
  | nil : FieldsPruned kind [] []
  | keep {field field' : Text × Json} (h : Keyed R field field') {fields fields' : List (Text × Json)}
      (hrest : FieldsPruned kind fields fields') : FieldsPruned kind (field :: fields) (field' :: fields')
  | drop {key : Text} (hkey : Node.Unread kind key) (data : Json) {fields fields' : List (Text × Json)}
      (hrest : FieldsPruned kind fields fields') : FieldsPruned kind ((key, data) :: fields) fields'

/-- data and the same, or an array of items related by `R`, or an object of a modelled kind that may have lost fields -/
inductive LevelPruned : Json → Json → Prop
  | same (data : Json) : LevelPruned data data
  | array {items items' : List Json} (h : List.Forall₂ R items items') : LevelPruned (.array items) (.array items')
  | object {tag : Text} {kind : Kind} {fields fields' : List (Text × Json)} (htag : kindOf? fields = some (.text tag))
      (hkind : Kind.ofTag? tag = some kind) (h : FieldsPruned R kind fields fields') :
      LevelPruned (.object fields) (.object fields')

end

/-- data and the same, pruned at most so deep -/
def PrunedUpTo : Nat → Json → Json → Prop
  | 0 => Eq
  | depth + 1 => LevelPruned (PrunedUpTo depth)

/-- data and what is left of it when objects of modelled kinds, at any depth, lose fields that are not read -/
def Pruned (data data' : Json) : Prop := ∃ depth, PrunedUpTo depth data data'

theorem PrunedUpTo.text {depth : Nat} {t : Text} {data' : Json} (h : PrunedUpTo depth (.text t) data') :
    data' = .text t := by
  cases depth with
  | zero => exact Eq.symm h
  | succ depth =>
    cases h with
    | same => rfl

variable {R : Json → Json → Prop} {kind : Kind} {fields fields' : List (Text × Json)}

/-- fields that are not read are not the kind -/
theorem FieldsPruned.kindOf? (htext : ∀ t data, R (.text t) data → data = .text t)
    (h : FieldsPruned R kind fields fields') {tag : Text} (htag : kindOf? fields = some (.text tag)) :
    kindOf? fields' = some (.text tag) := by
  unfold Json.kindOf? at htag ⊢
  induction h with
  | nil => cases htag
  | keep h _ ih =>
    obtain ⟨key, h⟩ := h
    rw [OrderedMap.lookupIn] at htag ⊢
    split at htag
    · next hkey =>
      cases htag
      rw [if_pos hkey, htext tag _ h]
    · next hkey =>
      rw [if_neg hkey]
      exact ih htag
  | drop hkey data _ ih =>
    rw [OrderedMap.lookupIn, if_neg hkey.1] at htag
    exact ih htag

theorem FieldsPruned.usedFields (h : FieldsPruned R kind fields fields') :
    List.Forall₂ (Keyed R) (Node.usedFields kind fields) (Node.usedFields kind fields') := by
  induction h with
  | nil => exact .nil
  | @keep field field' h _ _ _ ih =>
    rw [Node.usedFields_cons, Node.usedFields_cons]
    refine List.rel_append ?_ ih
    have hrel := Node.fieldFor?_keyed kind h
    generalize Node.fieldFor? kind field = used, Node.fieldFor? kind field' = used' at hrel
    cases hrel with
    | none => exact .nil
    | some hused => exact .cons hused .nil
  | drop hkey data _ ih =>
    rw [Node.usedFields_cons, Node.fieldFor?_eq_none.2 (.inr hkey)]
    exact ih

end Json

namespace Node

open Json (PrunedUpTo Pruned)

theorem readField_eq {used used' : Attr × Json} (h : Keyed (fun x y => valueOf x = valueOf y) used used') :
    readField used = readField used' := by
  obtain ⟨a, h⟩ := h
  unfold readField
  rw [h]

/-- an object that has lost fields at one level is read as it was, if the values of those that stay are -/
theorem ofJson_fieldsPruned {R : Json → Json → Prop} (hR : ∀ x y, R x y → valueOf x = valueOf y)
    (htext : ∀ t y, R (.text t) y → y = .text t) {tag : Text} {kind : Kind} {fields fields' : List (Text × Json)}
    (htag : Json.kindOf? fields = some (.text tag)) (hkind : Kind.ofTag? tag = some kind)
    (h : Json.FieldsPruned R kind fields fields') : ofJson (.object fields) = ofJson (.object fields') := by
  have hread : (usedFields kind fields).mapM readField = (usedFields kind fields').mapM readField := by
    refine mapM_eq_of_forall₂ h.usedFields fun used _ used' _ hused => readField_eq ?_
    obtain ⟨a, hused⟩ := hused
    exact .mk a (hR _ _ hused)
  rw [ofJson_known htag hkind, ofJson_known (h.kindOf? htext htag) hkind, hread]

/-- **What is left of data is read like the whole.** -/
theorem valueOf_prunedUpTo (depth : Nat) {data data' : Json} (h : PrunedUpTo depth data data') :
    valueOf data = valueOf data' := by
  induction depth generalizing data data' with
  | zero => rw [show data = data' from h]
  | succ depth ih =>
    cases h with
    | same => rfl
    | array h =>
      rw [valueOf, valueOf, valuesOf_eq, valuesOf_eq, mapM_eq_of_forall₂ h fun _ _ _ _ hxy => ih hxy]
    | object htag hkind h =>
      rw [valueOf, valueOf, ofJson_fieldsPruned (fun _ _ => ih) (fun _ _ => PrunedUpTo.text) htag hkind h]

/-- **What is left of an object is read as the same node, or with the same fault.** -/
theorem ofJson_pruned {fields : List (Text × Json)} {data' : Json} (h : Pruned (.object fields) data') :
    ofJson (.object fields) = ofJson data' := by
  obtain ⟨depth, h⟩ := h
  cases depth with
  | zero => rw [show .object fields = data' from h]
  | succ depth =>
    cases h with
    | same => rfl
    | object htag hkind h =>
      exact ofJson_fieldsPruned (fun _ _ => valueOf_prunedUpTo depth) (fun _ _ => PrunedUpTo.text) htag hkind h

end Node

end InterfacePages

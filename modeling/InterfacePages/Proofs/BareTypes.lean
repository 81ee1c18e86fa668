/-
Types without their wrappers.

`Node.bare` removes all wrappers from a node, at the top and wherever a node stands in it but as a label. A wrapper can
be removed only if it holds a node as its type, and no other wrapper is left (`wrapper_of_bare`). Of what stands in a
node, its spelling shows little (`Node.Shows`): what tells whether a spelling survives is about these nodes alone.
-/
import Mathlib.Data.List.Basic
import InterfacePages.Proofs.TypeSpelling

namespace InterfacePages

/-! ## Removing wrappers -/

/-- whether an attribute holds a label and never a type -/
def Attr.isLabel (a : Attr) : Bool := a == .name || a == .format

/-- what is inside a wrapper that holds a node; any other node is kept -/
def Node.inner (n : Node) : Node :=
  if n.isWrapper then
    match n.child .type with
    | .ok m => m
    | .error _ => n
  else n

mutual

/-- a value without wrappers -/
def Value.bare : Value → Value
  | .tuple vs => .tuple (Value.bareItems vs)
  | .node n => .node n.bare
  | v => v

/-- some values without wrappers -/
def Value.bareItems : List Value → List Value
  | [] => []
  | v :: rest => v.bare :: Value.bareItems rest

/-- a node without wrappers at any depth, the node itself included; one that holds no node as its type is kept -/
def Node.bare : Node → Node
  | .known k attributes => (Node.known k (Node.bareAttributes attributes)).inner
  | .unknown k object => .unknown k object

/-- attributes without wrappers -/
def Node.bareAttributes : List (Attr × Value) → List (Attr × Value)
  | [] => []
  | (a, v) :: rest => (a, if a.isLabel then v else v.bare) :: Node.bareAttributes rest

end

namespace Value

/-- what is left of the value of an attribute -/
def bareAt (a : Attr) (v : Value) : Value := if a.isLabel then v else v.bare

theorem bareItems_eq (vs : List Value) : bareItems vs = vs.map bare := by
  induction vs with
  | nil => rfl
  | cons v rest ih => rw [bareItems, ih, List.map_cons]

theorem asNode_bare (v : Value) : v.bare.asNode = v.asNode.map Node.bare := by
  cases v <;> simp [bare, asNode, Except.map]

theorem isGiven_bare (v : Value) : v.bare.isGiven = v.isGiven := by
  cases v with
  | tuple vs => cases vs <;> simp [bare, bareItems, isGiven]
  | _ => simp [bare, isGiven]

theorem items_bare (v : Value) : v.bare.items = v.items.map (List.map bare) := by
  cases v with
  | tuple vs => simp [bare, items, Except.map, bareItems_eq]
  | text t => simp [bare, items, Except.map]
  | _ => simp [bare, items, Except.map]

end Value

namespace Node

/-- a node that is kept, without wrappers inside it -/
def bareInside : Node → Node
  | .known k attributes => .known k (bareAttributes attributes)
  | .unknown k object => .unknown k object

theorem bareAttributes_eq (attributes : List (Attr × Value)) :
    bareAttributes attributes = attributes.map fun e => (e.1, e.2.bareAt e.1) := by
  induction attributes with
  | nil => rfl
  | cons e rest ih => rw [bareAttributes, ih, List.map_cons, Value.bareAt]

theorem kind_bareInside (n : Node) : n.bareInside.kind? = n.kind? := by
  cases n <;> rfl

theorem isWrapper_bareInside (n : Node) : n.bareInside.isWrapper = n.isWrapper := by
  unfold isWrapper
  rw [kind_bareInside]

theorem attr?_bareInside (n : Node) (a : Attr) : n.bareInside.attr? a = (n.attr? a).map (Value.bareAt a) := by
  cases n with
  | unknown k object => rfl
  | known k attributes =>
    simp only [bareInside, attr?, Node.attributes, bareAttributes_eq]
    induction attributes with
    | nil => rfl
    | cons e rest ih =>
      rw [List.map_cons, List.find?_cons, List.find?_cons]
      cases he : e.1 == a with
      | true => simp [beq_iff_eq.1 he]
      | false => simpa [he] using ih

theorem get_bareInside (n : Node) (a : Attr) : n.bareInside.get a = (n.get a).map (Value.bareAt a) := by
  unfold get
  rw [attr?_bareInside]
  cases n.attr? a <;> rfl

variable {n : Node} {a : Attr}

theorem get_label (ha : a.isLabel = true) : n.bareInside.get a = n.get a := by
  rw [get_bareInside]
  cases n.get a <;> simp [Except.map, Value.bareAt, ha]

theorem child_bareInside (ha : a.isLabel = false) : n.bareInside.child a = (n.child a).map bare := by
  unfold child
  rw [get_bareInside]
  cases n.get a with
  | error e => rfl
  | ok v =>
    change (v.bareAt a).asNode = v.asNode.map bare
    rw [Value.bareAt, ha, if_neg Bool.false_ne_true, Value.asNode_bare]

theorem items_bareInside (ha : a.isLabel = false) : n.bareInside.items a = (n.items a).map (List.map Value.bare) := by
  unfold items
  rw [get_bareInside]
  cases n.get a with
  | error e => rfl
  | ok v =>
    change (v.bareAt a).items = v.items.map (List.map Value.bare)
    rw [Value.bareAt, ha, if_neg Bool.false_ne_true, Value.items_bare]

theorem bare_eq (n : Node) : n.bare = n.bareInside.inner := by
  cases n with
  | known k attributes => rw [bare, bareInside]
  | unknown k object => rfl

theorem bare_of_not_wrapper (h : n.isWrapper = false) : n.bare = n.bareInside := by
  rw [bare_eq, inner, isWrapper_bareInside, h, if_neg Bool.false_ne_true]

theorem bare_of_wrapper (h : n.isWrapper = true) {m : Node} (hm : n.child .type = .ok m) : n.bare = m.bare := by
  rw [bare_eq, inner, isWrapper_bareInside, h, if_pos rfl, child_bareInside rfl, hm]
  rfl

/-- what is no wrapper around a node is kept -/
theorem bare_of_kept (h : ¬ (n.isWrapper = true ∧ ∃ m, n.child .type = .ok m)) : n.bare = n.bareInside := by
  cases hw : n.isWrapper with
  | false => exact bare_of_not_wrapper hw
  | true =>
    cases hm : n.child .type with
    | error e =>
      rw [bare_eq, inner, isWrapper_bareInside, hw, if_pos rfl, child_bareInside rfl, hm]
      rfl
    | ok m => exact absurd ⟨hw, m, hm⟩ h

end Node

/-! ## What a spelling shows -/

/-- the attributes of a kind whose types its spelling shows -/
def Kind.shownAttrs : Kind → List Attr
  | .arrayType | .setType | .optionType | .zeroableOptionType | .remainderOptionType => [.item]
  | .mapType => [.key, .value]
  | .tupleType => [.items]
  | .structType => [.fields]
  | .enumType => [.variants]
  | .structFieldType => [.type]
  | k => if Kind.wrappers.contains k then [.type] else []

namespace Node

/-- the spelling of a node shows that of another -/
def Shows (n m : Node) : Prop := ∃ k a v, n.kind? = some k ∧ a ∈ k.shownAttrs ∧ n.get a = .ok v ∧ m ∈ v.nodes

/-- the spelling of a node shows that of another, at any depth -/
def ShowsWithin (n m : Node) : Prop := Relation.ReflTransGen Shows n m

theorem contains_of_nodes {n m : Node} {a : Attr} {v : Value} (hv : n.get a = .ok v) (hm : m ∈ v.nodes) :
    n.Contains m := by
  cases v with
  | node w =>
    cases List.mem_singleton.1 hm
    exact .child (except_bind_ok.2 ⟨_, hv, rfl⟩)
  | tuple vs =>
    obtain ⟨w, hw, hnode⟩ := List.mem_filterMap.1 hm
    refine .item (v := w) (except_bind_ok.2 ⟨_, hv, rfl⟩) hw ?_
    cases hasNode : w.asNode with
    | error e => simp [hasNode, Except.toOption] at hnode
    | ok x => simpa [hasNode, Except.toOption] using hnode
  | _ => cases hm

theorem Shows.contains {n m : Node} (h : n.Shows m) : n.Contains m := by
  obtain ⟨k, a, v, -, -, hv, hm⟩ := h
  exact contains_of_nodes hv hm

theorem Shows.height_lt {n m : Node} (h : n.Shows m) : m.height < n.height := h.contains.height_lt

/-- a struct has a wrapper in place of a field -/
def WrapsField (n : Node) : Prop :=
  n.kind? = some .structType ∧ ∃ v, n.get .fields = .ok v ∧ ∃ f ∈ v.nodes, f.isWrapper = true

/-- an enumeration has a variant in a wrapper, and only empty variants without wrappers -/
def HidesEmpty (n : Node) : Prop :=
  n.kind? = some .enumType ∧ ∃ vs, n.items .variants = .ok vs ∧
    (∃ v ∈ vs, ∃ m, v.asNode = .ok m ∧ m.isWrapper = true) ∧
    ∀ v ∈ vs, ∃ m, v.asNode = .ok m ∧ m.bare.isKind .enumEmptyVariantType = true

end Node

namespace Node

variable {n : Node}

theorem wrapper_shows (hw : n.isWrapper = true) {m : Node} (hm : n.child .type = .ok m) : n.Shows m := by
  obtain ⟨k, hk, hkind⟩ := isWrapper_iff.1 hw
  obtain ⟨v, hv, hnode⟩ := except_bind_ok.1 hm
  have hshown : ∀ k ∈ Kind.wrappers, .type ∈ k.shownAttrs := by decide
  exact ⟨k, .type, v, hkind, hshown k hk, hv, Value.mem_nodes_of_asNode hnode⟩

theorem Shows.single {m : Node} (h : n.Shows m) : n.ShowsWithin m := Relation.ReflTransGen.single h

theorem ShowsWithin.occurs {m : Node} (h : n.ShowsWithin m) : n.Occurs m :=
  Relation.ReflTransGen.mono (fun _ _ => Shows.contains) _ _ h

/-- no wrapper that a spelling shows has a name of its own -/
def NamelessWrappers (n : Node) : Prop := ∀ m, n.ShowsWithin m → m.isWrapper = true → m.attr? .name = none

/-! ## What is left -/

/-- a node stands in another, and not in place of a label -/
def Bears (n m : Node) : Prop := ∃ a v, a.isLabel = false ∧ n.get a = .ok v ∧ m ∈ v.nodes

theorem nodes_bare (v : Value) : v.bare.nodes = v.nodes.map bare := by
  cases v with
  | tuple vs =>
    simp only [Value.bare, Value.nodes, Value.bareItems_eq]
    induction vs with
    | nil => rfl
    | cons w rest ih =>
      rw [List.map_cons, List.filterMap_cons, List.filterMap_cons, Value.asNode_bare]
      cases w.asNode with
      | error e => exact ih
      | ok m => exact congrArg (m.bare :: ·) ih
  | node m => simp [Value.bare, Value.nodes]
  | _ => simp [Value.bare, Value.nodes]

/-- what stands in a node without wrappers stood there with its wrappers -/
theorem bears_bareInside {x : Node} (h : n.bareInside.Bears x) : ∃ m, n.Contains m ∧ x = m.bare := by
  obtain ⟨a, v, ha, hv, hx⟩ := h
  rw [get_bareInside] at hv
  cases hget : n.get a with
  | error e =>
    rw [hget] at hv
    cases hv
  | ok w =>
    rw [hget] at hv
    cases hv
    rw [Value.bareAt, ha, if_neg Bool.false_ne_true, nodes_bare] at hx
    obtain ⟨m, hm, rfl⟩ := List.mem_map.1 hx
    exact ⟨m, contains_of_nodes hget hm, rfl⟩

/-- a wrapper is left only if it holds no node as its type -/
theorem wrapper_of_bare {x : Node} (h : Relation.ReflTransGen Bears n.bare x) (hx : x.isWrapper = true) :
    ∃ e, x.child .type = .error e := by
  induction hheight : n.height using Nat.strong_induction_on generalizing n with
  | _ height ih =>
    subst hheight
    by_cases hinner : n.isWrapper = true ∧ ∃ m, n.child .type = .ok m
    · obtain ⟨hw, m, hm⟩ := hinner
      rw [bare_of_wrapper hw hm] at h
      exact ih m.height (height_of_child hm) h rfl
    · rw [bare_of_kept hinner] at h
      rcases h.cases_head with rfl | ⟨y, hy, hrest⟩
      · rw [isWrapper_bareInside] at hx
        rw [child_bareInside rfl]
        cases hm : n.child .type with
        | error e => exact ⟨e, rfl⟩
        | ok m => exact absurd ⟨hx, m, hm⟩ hinner
      · obtain ⟨m, hm, rfl⟩ := bears_bareInside hy
        exact ih m.height hm.height_lt hrest rfl

end Node

end InterfacePages

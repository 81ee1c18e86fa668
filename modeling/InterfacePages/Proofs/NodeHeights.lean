/-
What stands in a node: what an attribute of it holds, alone or in a collection, and so on.

What stands in a node is less high than the node, so a test of all of it can be computed (`everywhere`).
-/
import Mathlib.Logic.Relation
import InterfacePages.Node.Basic
import InterfacePages.Proofs.Action

namespace InterfacePages

theorem Value.height_of_asNode {v : Value} {n : Node} (h : v.asNode = .ok n) : n.height = v.height := by
  cases v with
  | node m =>
    cases h
    rw [Value.height]
  | _ => cases h

theorem Value.height_le_heights {v : Value} {vs : List Value} (h : v ∈ vs) : v.height ≤ Value.heights vs := by
  induction vs with
  | nil => cases h
  | cons w rest ih =>
    rw [Value.heights]
    rcases List.mem_cons.1 h with rfl | h
    · exact Nat.le_max_left _ _
    · exact Nat.le_trans (ih h) (Nat.le_max_right _ _)

/-- an item is no higher than the collection; the letters of a text have no height -/
theorem Value.height_of_items {v w : Value} {vs : List Value} (h : v.items = .ok vs) (hw : w ∈ vs) :
    w.height ≤ v.height := by
  cases v with
  | tuple items =>
    cases h
    rw [Value.height]
    exact Value.height_le_heights hw
  | text t =>
    cases h
    obtain ⟨c, _, rfl⟩ := List.mem_map.1 hw
    simp [Value.height]
  | _ => cases h

namespace Node

theorem height_le_attributeHeight {attributes : List (Attr × Value)} {a : Attr} {v : Value}
    (h : (a, v) ∈ attributes) : v.height ≤ attributeHeight attributes := by
  induction attributes with
  | nil => cases h
  | cons e rest ih =>
    obtain ⟨b, w⟩ := e
    rw [attributeHeight]
    rcases List.mem_cons.1 h with h | h
    · cases h
      exact Nat.le_max_left _ _
    · exact Nat.le_trans (ih h) (Nat.le_max_right _ _)

theorem height_of_get {n : Node} {a : Attr} {v : Value} (h : n.get a = .ok v) : v.height < n.height := by
  unfold get at h
  split at h
  · next w hw =>
    cases h
    unfold attr? at hw
    obtain ⟨e, he, rfl⟩ := Option.map_eq_some_iff.1 hw
    have hmem := List.mem_of_find?_eq_some he
    cases n with
    | known k attributes =>
      rw [height]
      exact Nat.lt_succ_of_le (height_le_attributeHeight hmem)
    | unknown k object => cases hmem
  · cases h

theorem height_of_child {n m : Node} {a : Attr} (h : n.child a = .ok m) : m.height < n.height := by
  obtain ⟨v, hv, hm⟩ := except_bind_ok.1 h
  rw [Value.height_of_asNode hm]
  exact height_of_get hv

theorem height_of_item {n m : Node} {a : Attr} {vs : List Value} {v : Value} (h : n.items a = .ok vs) (hv : v ∈ vs)
    (hm : v.asNode = .ok m) : m.height < n.height := by
  obtain ⟨w, hw, hvs⟩ := except_bind_ok.1 h
  rw [Value.height_of_asNode hm]
  exact Nat.lt_of_le_of_lt (Value.height_of_items hvs hv) (height_of_get hw)

/-- a node stands in another: an attribute holds it, alone or in a collection -/
inductive Contains (n m : Node) : Prop
  | child {a : Attr} (h : n.child a = .ok m)
  | item {a : Attr} {vs : List Value} {v : Value} (h : n.items a = .ok vs) (hv : v ∈ vs) (hm : v.asNode = .ok m)

theorem Contains.height_lt {n m : Node} (h : n.Contains m) : m.height < n.height := by
  cases h with
  | child h => exact height_of_child h
  | item h hv hm => exact height_of_item h hv hm

/-- a node stands somewhere in another -/
def Occurs (n m : Node) : Prop := Relation.ReflTransGen Contains n m

theorem Occurs.height_le {n m : Node} (h : n.Occurs m) : m.height ≤ n.height := by
  induction h with
  | refl => exact Nat.le_refl _
  | tail _ hstep ih => exact Nat.le_trans (Nat.le_of_lt hstep.height_lt) ih

end Node

/-! ## Testing all that stands in a node -/

namespace Value

def nodes : Value → List Node
  | .node n => [n]
  | .tuple vs => vs.filterMap fun v => v.asNode.toOption
  | _ => []

theorem mem_nodes_of_asNode {v : Value} {n : Node} (h : v.asNode = .ok n) : n ∈ v.nodes := by
  cases v with
  | node m =>
    cases h
    exact List.mem_singleton_self _
  | _ => cases h

theorem mem_nodes_of_items {v w : Value} {vs : List Value} (h : v.items = .ok vs) (hw : w ∈ vs) {n : Node}
    (hn : w.asNode = .ok n) : n ∈ v.nodes := by
  cases v with
  | tuple items =>
    cases h
    exact List.mem_filterMap.2 ⟨w, hw, by rw [hn]; rfl⟩
  | text t =>
    cases h
    obtain ⟨c, _, rfl⟩ := List.mem_map.1 hw
    cases hn
  | _ => cases h

end Value

namespace Node

def parts (n : Node) : List Node := n.attributes.flatMap fun e => e.2.nodes

/-- whether a test holds of a node and of all that stands in it, at most `fuel` deep -/
def everywhere (test : Node → Bool) : Nat → Node → Bool
  | 0, _ => false
  | fuel + 1, n => test n && n.parts.all (everywhere test fuel)

theorem mem_parts {n m : Node} {a : Attr} {v : Value} (h : n.get a = .ok v) (hm : m ∈ v.nodes) : m ∈ n.parts := by
  unfold get attr? at h
  split at h
  · next w hw =>
    cases h
    obtain ⟨e, he, rfl⟩ := Option.map_eq_some_iff.1 hw
    exact List.mem_flatMap.2 ⟨e, List.mem_of_find?_eq_some he, hm⟩
  · cases h

theorem Contains.mem_parts {n m : Node} (h : n.Contains m) : m ∈ n.parts := by
  cases h with
  | child h =>
    obtain ⟨v, hv, hm⟩ := except_bind_ok.1 h
    exact Node.mem_parts hv (Value.mem_nodes_of_asNode hm)
  | item h hw hm =>
    obtain ⟨v, hv, hvs⟩ := except_bind_ok.1 h
    exact Node.mem_parts hv (Value.mem_nodes_of_items hvs hw hm)

theorem test_of_everywhere {test : Node → Bool} {fuel : Nat} {n m : Node} (h : n.everywhere test fuel = true)
    (hm : n.Occurs m) : test m = true := by
  induction hm using Relation.ReflTransGen.head_induction_on generalizing fuel with
  | refl =>
    cases fuel with
    | zero => cases h
    | succ fuel => exact (Bool.and_eq_true_iff.1 h).1
  | head hstep _ ih =>
    cases fuel with
    | zero => cases h
    | succ fuel => exact ih (List.all_eq_true.1 (Bool.and_eq_true_iff.1 h).2 _ hstep.mem_parts)

end Node

end InterfacePages

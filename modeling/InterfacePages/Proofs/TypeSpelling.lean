/-
The spelling of a type, one step at a time.

Every handler visits only nodes that are less high than its own (`handlers_below`), so it does not matter how deep the
visits may go, and the spelling of a type is what its handler makes of the spellings inside (`typeText_eq`). Going
through a wrapper is no different from starting inside it: a type is spelled as what is inside its wrappers
(`typeText_unwrap`), and an option may look inside them first or not (`option_eq`).
-/
import InterfacePages.Proofs.NodeHeights
import InterfacePages.Proofs.StatelessVisits
import InterfacePages.Shape.TypeText

namespace InterfacePages

/-! ## Wrappers -/

namespace Node

theorem isWrapper_iff {n : Node} : n.isWrapper = true ↔ ∃ k ∈ Kind.wrappers, n.kind? = some k := by
  unfold isWrapper
  cases n.kind? with
  | none => simp
  | some k => simp

theorem unwrapUpTo_of_not_wrapper {n : Node} (h : n.isWrapper = false) (fuel : Nat) :
    unwrapUpTo (fuel + 1) n = .ok n := by
  rw [unwrapUpTo, h]
  rfl

theorem unwrapUpTo_of_wrapper {n : Node} (h : n.isWrapper = true) (fuel : Nat) :
    unwrapUpTo (fuel + 1) n = n.child .type >>= unwrapUpTo fuel := by
  rw [unwrapUpTo, h]
  rfl

/-- what is inside all wrappers is no higher -/
theorem height_of_unwrapUpTo {fuel : Nat} {n m : Node} (h : unwrapUpTo fuel n = .ok m) : m.height ≤ n.height := by
  induction fuel generalizing n with
  | zero => cases h
  | succ fuel ih =>
    cases hw : n.isWrapper with
    | false =>
      rw [unwrapUpTo_of_not_wrapper hw] at h
      cases h
      exact Nat.le_refl _
    | true =>
      rw [unwrapUpTo_of_wrapper hw] at h
      obtain ⟨inner, hinner, h⟩ := except_bind_ok.1 h
      calc m.height ≤ inner.height := ih h
        _ ≤ n.height := Nat.le_of_lt (height_of_child hinner)

end Node

namespace TypeText

/-! ## What handlers visit -/

/-- a handler visits only nodes that are less high than its own -/
def Below (h : Handler Outcome) : Prop :=
  ∀ n visit visit', (∀ m : Node, m.height < n.height → visit m = visit' m) → h n visit = h n visit'

theorem below_spelled (t : Text) : Below (spelled t) := fun _ _ _ _ => rfl

theorem below_named : Below named := fun _ _ _ _ => rfl

theorem below_number : Below number := fun _ _ _ _ => rfl

theorem below_through (a : Attr) : Below (through a) := by
  intro n visit visit' h
  exact bind_congr_ok fun m hm => h m (Node.height_of_child hm)

theorem below_applied (name : Text) (a : Attr) : Below (applied name a) := by
  intro n visit visit' h
  refine bind_congr_ok fun m hm => ?_
  rw [h m (Node.height_of_child hm)]

theorem below_option : Below option := by
  intro n visit visit' h
  refine bind_congr_ok fun m hm => bind_congr_ok fun inner hinner => ?_
  rw [h inner (Nat.lt_of_le_of_lt (Node.height_of_unwrapUpTo hinner) (Node.height_of_child hm))]

theorem spellings_congr {a : Attr} {n : Node} {visit visit' : Node → Outcome}
    (h : ∀ m : Node, m.height < n.height → visit m = visit' m) : spellings a n visit = spellings a n visit' := by
  refine bind_congr_ok fun vs hvs => ?_
  have hsame : eachNode visit vs = eachNode visit' vs :=
    eachNode_congr fun v hv m hm => h m (Node.height_of_item hvs hv hm)
  exact congrArg (· >>= List.mapM Value.asText) hsame

theorem below_sequence : Below sequence := by
  intro n visit visit' h
  unfold sequence
  rw [spellings_congr h]

theorem below_enumeration : Below enumeration := by
  intro n visit visit' h
  unfold enumeration
  rw [spellings_congr h]

theorem below_record : Below record := by
  intro n visit visit' h
  unfold record
  refine bind_congr_ok fun v _ => ?_
  split
  · rfl
  · refine bind_congr_ok fun vs hvs => ?_
    have hsame : vs.mapM (fieldText visit) = vs.mapM (fieldText visit') := by
      refine Node.mapM_congr fun v hv => bind_congr_ok fun f hf => bind_congr_ok fun name _ => ?_
      rw [h f (Node.height_of_item hvs hv hf)]
    rw [hsame]

theorem below_mapping : Below mapping := by
  intro n visit visit' h
  refine bind_congr_ok fun key hkey => ?_
  rw [h key (Node.height_of_child hkey)]
  refine bind_congr_ok fun spelling _ => bind_congr_ok fun value hvalue => ?_
  rw [h value (Node.height_of_child hvalue)]

theorem handlers_below : ∀ e ∈ handlers, Below e.2 := by
  simp only [handlers, List.forall_mem_cons, List.not_mem_nil, false_implies, implies_true, and_true, below_spelled,
    below_named, below_number, below_through, below_applied, below_option, below_sequence, below_enumeration,
    below_record, below_mapping]

/-! ## One step -/

def handlerOf (k : Kind) : Handler Outcome := (OrderedMap.lookupIn k handlers).getD (spelled "unknown")

/-- the handler for a node; one of no known kind is unknown -/
def handlerAt (n : Node) : Handler Outcome := n.kind?.elim (spelled "unknown") handlerOf

theorem handlerFor_eq (n : Node) : visitor.handlerFor n = handlerAt n := by
  have hdistinct : (handlers.map Prod.fst).Nodup := by decide
  have h := Visitor.handlerFor_ofKinds (fun _ => (.ok (.text "unknown") : Outcome)) hdistinct n
  rw [show visitor = Visitor.ofKinds (fun _ => (.ok (.text "unknown") : Outcome)) handlers from rfl, h]
  unfold handlerAt handlerOf
  cases n.kind? <;> rfl

theorem below_handlerAt (n : Node) : Below (handlerAt n) := by
  unfold handlerAt
  cases n.kind? with
  | none => exact below_spelled _
  | some k =>
    simp only [Option.elim_some, handlerOf]
    cases h : OrderedMap.lookupIn k handlers with
    | none => exact below_spelled _
    | some handler => exact handlers_below _ (OrderedMap.mem_of_lookupIn h)

/-- how deep visits may go does not matter once they may go as deep as the node is high -/
theorem visit_stable {depth depth' : Nat} {n : Node} (h : n.height < depth) (h' : n.height < depth') :
    visitor.visit (.error .nestingTooDeep) depth n = visitor.visit (.error .nestingTooDeep) depth' n := by
  induction depth generalizing depth' n with
  | zero => exact absurd h (Nat.not_lt_zero _)
  | succ depth ih =>
    cases depth' with
    | zero => exact absurd h' (Nat.not_lt_zero _)
    | succ depth' =>
      rw [Visitor.visit, Visitor.visit, handlerFor_eq]
      refine below_handlerAt n n _ _ fun m hm => ih ?_ ?_
      · omega
      · omega

end TypeText

namespace Node

open TypeText

/-- **A type is spelled as its handler says,** given the spellings inside. -/
theorem typeText_eq (n : Node) : n.typeText = handlerAt n n typeText := by
  unfold typeText
  rw [Visitor.visit, handlerFor_eq]
  exact below_handlerAt n n _ _ fun m hm => visit_stable hm (Nat.lt_succ_self _)

theorem typeText_of_kind {n : Node} {k : Kind} (h : n.kind? = some k) : n.typeText = handlerOf k n typeText := by
  rw [typeText_eq, handlerAt, h]
  rfl

/-- a wrapper is spelled as the type that it holds -/
theorem typeText_of_wrapper {n : Node} (h : n.isWrapper = true) : n.typeText = n.child .type >>= typeText := by
  obtain ⟨k, hk, hkind⟩ := isWrapper_iff.1 h
  have hthrough : ∀ k ∈ Kind.wrappers, OrderedMap.lookupIn k handlers = some (through .type) := by
    simp only [Kind.wrappers, List.forall_mem_cons, List.not_mem_nil, false_implies, implies_true, and_true]
    exact ⟨rfl, rfl, rfl, rfl, rfl, rfl, rfl⟩
  rw [typeText_of_kind hkind, handlerOf, hthrough k hk]
  rfl

theorem typeText_unwrapUpTo {fuel : Nat} {n : Node} (h : n.height ≤ fuel) :
    unwrapUpTo fuel n >>= typeText = n.typeText := by
  induction fuel generalizing n with
  | zero => exact absurd h (Nat.not_le.2 n.height_pos)
  | succ fuel ih =>
    cases hw : n.isWrapper with
    | false =>
      rw [unwrapUpTo_of_not_wrapper hw]
      rfl
    | true =>
      rw [unwrapUpTo_of_wrapper hw, typeText_of_wrapper hw, bind_assoc]
      refine bind_congr_ok fun m hm => ih ?_
      have hlower := height_of_child hm
      omega

/-- **A type is spelled as what is inside its wrappers.** -/
theorem typeText_unwrap (n : Node) : n.unwrap >>= typeText = n.typeText := typeText_unwrapUpTo (Nat.le_refl _)

end Node

namespace TypeText

/-- an option shows what it holds, whether it looks inside wrappers or not -/
theorem option_eq (n : Node) : option n Node.typeText = applied "Option" .item n Node.typeText := by
  unfold option applied
  refine bind_congr_ok fun m _ => ?_
  rw [← Node.typeText_unwrap m, bind_assoc]
  rfl

end TypeText

end InterfacePages

/-
Visitors: what to do at a node, by the name of its kind.

A handler gets the node and a way to visit other nodes with the same visitor. Nodes whose kind has no handler go to
the default. An answer can be anything, also an action that is only performed later, so wrapping a handler
(`Visitor.intercept`) is a function on answers.

`visit` follows nested visits down to a given depth; `run` starts with the height of the node, which is deep enough
for handlers that only visit nodes inside the one they are at.
-/
import InterfacePages.Node.Basic
import InterfacePages.OrderedMap

namespace InterfacePages

/-- what to do at a node, given a way to visit others -/
abbrev Handler (ρ : Type) := Node → (Node → ρ) → ρ

/-- handlers by the name of a kind, and one for all other nodes -/
structure Visitor (ρ : Type) where
  handlers : OrderedMap Tag (Handler ρ)
  default : Handler ρ

namespace Visitor

variable {ρ : Type}

def handlerFor (v : Visitor ρ) (n : Node) : Handler ρ := (n.tag?.bind v.handlers.get?).getD v.default

/-- visits a node with nested visits at most `depth` deep; beyond that the answer is `tooDeep` -/
def visit (v : Visitor ρ) (tooDeep : ρ) : Nat → Node → ρ
  | 0, _ => tooDeep
  | depth + 1, n => v.handlerFor n n (visit v tooDeep depth)

/-- the same answer for every node, with a handler of its own for each of some names -/
def constant (f : Node → ρ) (names : List Tag) : Visitor ρ :=
  ⟨OrderedMap.ofList (names.map fun name => (name, fun n _ => f n)), fun n _ => f n⟩

/-- adds handlers, in place of those for the same names -/
def extend (v : Visitor ρ) (handlers : List (Tag × Handler ρ)) : Visitor ρ :=
  { v with handlers := handlers.foldl (fun m h => m.insert h.1 h.2) v.handlers }

/-- a handler inside a wrapper, which gets the node and the handler's answer -/
def wrapped (around : Node → ρ → ρ) (h : Handler ρ) : Handler ρ := fun n visit => around n (h n visit)

/-- every handler, the default included, inside a wrapper -/
def intercept (v : Visitor ρ) (around : Node → ρ → ρ) : Visitor ρ :=
  ⟨v.handlers.mapValues fun _ h => wrapped around h, wrapped around v.default⟩

end Visitor

end InterfacePages

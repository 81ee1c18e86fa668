/-
Visits that keep track of where they are.

A traversal's state holds the nodes whose handlers are in progress, the link table and whether it has been filled, and
whatever else the handlers use. `keepingStack` puts a node on the stack while its handler runs and takes it off again
however the handler ends. `keepingLinks` fills the table from the first node ever visited, before any handler runs.
-/
import InterfacePages.Link
import InterfacePages.Visit.Visitor

namespace InterfacePages

/-- the nodes in progress, innermost first -/
abbrev NodeStack := List Node

namespace NodeStack

/-- the path to the innermost node, outermost first; it has to exist and, if a kind is asked for, to be of that kind -/
def path (stack : NodeStack) (kind : Option Tag) : Except Fault (List Node) :=
  match stack with
  | [] => .error .emptyStack
  | top :: _ =>
    match kind with
    | none => .ok stack.reverse
    | some kind =>
      if top.tag? = some kind then .ok stack.reverse else .error (.unexpectedTop kind.text top.kindText)

end NodeStack

structure Traversal (τ : Type) where
  stack : NodeStack
  links : LinkTable
  linked : Bool
  extra : τ

namespace Traversal

variable {τ ρ : Type}

/-- the state before the first visit -/
def start (extra : τ) : Traversal τ := ⟨[], OrderedMap.empty, false, extra⟩

def push (n : Node) (s : Traversal τ) : Traversal τ := { s with stack := n :: s.stack }

/-- takes the innermost node off the stack -/
def pop (s : Traversal τ) : Traversal τ := { s with stack := s.stack.tail }

/-- the path to the innermost node, which has to be of a kind -/
def pathTo (kind : Kind) : Act (Traversal τ) (List Node) :=
  Act.ofOutcome fun s => (s.stack.path (some (.known kind)), s)

/-- fills the link table from a tree, if it has not been filled -/
def fillLinks (n : Node) : Act (Traversal τ) Unit :=
  Act.ofOutcome fun s =>
    if s.linked then (.ok (), s)
    else
      let (r, links) := (LinkTable.recordTree n).perform s.links
      (r, { s with linked := true, links })

/-- visits the items of a collection in order; the first that is no node ends it -/
def visitAll (visit : Node → Act (Traversal τ) ρ) : List Value → Act (Traversal τ) (List ρ)
  | [] => return []
  | v :: rest => do
    let answer ← visit (← Act.ofExcept v.asNode)
    return answer :: (← visitAll visit rest)

end Traversal

namespace Visitor

variable {τ ρ : Type}

/-- keeps the node on the stack while its handler runs -/
def keepingStack (v : Visitor (Act (Traversal τ) ρ)) : Visitor (Act (Traversal τ) ρ) :=
  v.intercept fun n proceed => do
    Act.change (Traversal.push n)
    Act.ensuring proceed Traversal.pop

/-- fills the link table from the first node visited -/
def keepingLinks (v : Visitor (Act (Traversal τ) ρ)) : Visitor (Act (Traversal τ) ρ) :=
  v.intercept fun n proceed => do
    Traversal.fillLinks n
    proceed

def explore (v : Visitor (Act (Traversal τ) ρ)) (n : Node) : Act (Traversal τ) ρ :=
  v.visit (throw .nestingTooDeep) (n.height + 1) n

end Visitor

end InterfacePages

/-
What an interface tree declares: its programs and their accounts, instructions, addresses, types and errors.

Only members of the declared kind count; members of kinds without a model are passed over. `instructions` lists every
instruction before its sub-instructions, `leafInstructions` only those without any.
-/
import InterfacePages.Node.Basic

namespace InterfacePages

namespace Node

/-- the nodes of one kind among some values, all of which have to be nodes -/
def ofKind (k : Kind) : List Value → Except Fault (List Node)
  | [] => .ok []
  | v :: rest => do
    let n ← v.asNode
    let ns ← ofKind k rest
    return if n.isKind k then n :: ns else ns

/-- the programs of a root in order, or the program itself -/
def programs (n : Node) : Except Fault (List Node) :=
  match n.kind? with
  | some .root => do
    let main ← n.get .program
    let others ← n.items .additionalPrograms
    ofKind .program (main :: others)
  | some .program => .ok [n]
  | _ => .ok []

def members (a : Attr) (k : Kind) (n : Node) : Except Fault (List Node) := do
  return (← (← n.programs).mapM fun p => do ofKind k (← p.items a)).flatten

def accounts (n : Node) : Except Fault (List Node) := n.members .accounts .account

/-- the program-derived addresses of all programs -/
def pdas (n : Node) : Except Fault (List Node) := n.members .pdas .pda

def definedTypes (n : Node) : Except Fault (List Node) := n.members .definedTypes .definedType

def errors (n : Node) : Except Fault (List Node) := n.members .errors .error

/-- the instructions among the values of a collection, listed by `list` -/
def listAll (list : Node → Except Fault (List Node)) : List Value → Except Fault (List Node)
  | [] => .ok []
  | v :: rest => do
    let here ← list (← v.asNode)
    return here ++ (← listAll list rest)

/-- the instructions of a node, nested at most `fuel` deep -/
def instructionsUpTo (leavesOnly : Bool) : Nat → Node → Except Fault (List Node)
  | 0, _ => .error .nestingTooDeep
  | fuel + 1, n =>
    if n.isKind .instruction then do
      let subs ← n.get .subInstructions
      if !subs.isGiven then return [n]
      let nested ← listAll (instructionsUpTo leavesOnly fuel) (← subs.items)
      return if leavesOnly then nested else n :: nested
    else do
      return (← (← n.programs).mapM fun p => do
        listAll (instructionsUpTo leavesOnly fuel) (← p.items .instructions)).flatten

/-- the instructions of a node, each before its sub-instructions -/
def instructions (n : Node) : Except Fault (List Node) := instructionsUpTo false n.height n

def leafInstructions (n : Node) : Except Fault (List Node) := instructionsUpTo true n.height n

end Node

end InterfacePages

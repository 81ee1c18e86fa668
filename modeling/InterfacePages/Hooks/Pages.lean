/-
The hooks of an interface tree as a page map.

Accounts and programs have their hooks in the folder of hooks, instructions without sub-instructions and addresses in
folders of their own; each of these folders has an index. What several nodes put on one path is joined first, and the
outermost visit then makes a module of each path once.
-/
import InterfacePages.Hooks.Account
import InterfacePages.Hooks.Address
import InterfacePages.Hooks.Instruction
import InterfacePages.Hooks.Module
import InterfacePages.Hooks.Program
import InterfacePages.PageMap
import InterfacePages.Visit.Traversal

namespace InterfacePages

namespace Hooks

/-- the folder of generated code, unless another is given -/
def standardFolder : Text := "src/generated"

/-- what can be chosen about the content of modules: the client's specifier, where library symbols come from, and
transformers of names by role -/
structure Options where
  client : Text
  strategy : Text
  transformers : List (Text × Transformer)

/-- an action that makes pages -/
abbrev Rendering := Act (Traversal Unit) PageMap

def modulePath (folder name : Text) : Text := folder ++ "/" ++ name ++ ".ts"

def instructionFolder : Text := "hooks/instructions"

def addressFolder : Text := "hooks/pdas"

/-- makes something with the links known so far -/
def withScope {ρ : Type} (naming : Naming) (f : Scope → Except Fault ρ) : Act (Traversal Unit) ρ :=
  Act.ofOutcome fun s => (f ⟨naming, s.links⟩, s)

/-- the hooks of a node on the path of its module -/
def memberPage (folder : Text) (n : Node) (body : Fragment) : Except Fault PageMap := do
  return PageMap.page (modulePath folder (Name.camelCase (← n.nameText))) body

def indexPage (folder : Text) (nodes : List Node) : Except Fault PageMap := do
  return PageMap.page? (modulePath folder "index") (← index nodes)

section

variable (naming : Naming)

def onAccount : Handler Rendering := fun n _ => do
  let path ← Traversal.pathTo .account
  withScope naming fun scope => do memberPage hooksFolder n (← account scope path n)

def onInstruction : Handler Rendering := fun n _ => do
  let _ ← Traversal.pathTo .instruction
  withScope naming fun scope => do memberPage instructionFolder n (← instruction scope n)

def onAddress : Handler Rendering := fun n _ => do
  let _ ← Traversal.pathTo .pda
  withScope naming fun scope => do memberPage addressFolder n (← address scope n)

def onProgram : Handler Rendering := fun n visit => do
  let own ← withScope naming fun scope => do memberPage hooksFolder n (← program scope n)
  let pdas ← Traversal.visitAll visit (← Act.ofExcept (n.items .pdas))
  let accounts ← Traversal.visitAll visit (← Act.ofExcept (n.items .accounts))
  let instructions ← (← Act.ofExcept n.leafInstructions).mapM visit
  return PageMap.merge ([own] ++ pdas ++ accounts ++ instructions)

def indexes (n : Node) : Except Fault (List PageMap) := do
  let programs ← n.programs
  let accounts ← n.accounts
  let hooks ← indexPage hooksFolder (accounts ++ programs)
  let instructions ← indexPage instructionFolder (← n.leafInstructions)
  return [hooks, instructions, ← indexPage addressFolder (← n.pdas)]

def onRoot : Handler Rendering := fun n visit => do
  let own ← Act.ofExcept (indexes n)
  return PageMap.merge (own ++ (← (← Act.ofExcept n.programs).mapM visit))

def handlers : List (Kind × Handler Rendering) := [
  (.account, onAccount naming),
  (.instruction, onInstruction naming),
  (.pda, onAddress naming),
  (.program, onProgram naming),
  (.root, onRoot)]

/-- the visitor that makes the hooks of each path -/
def bodies : Visitor Rendering :=
  ((Visitor.constant (fun _ => return OrderedMap.empty) []).extend
    ((handlers naming).map fun h => (.known h.1, h.2))).keepingStack

end

/-- makes a module of every path -/
def modules (resolver : Resolver) (pages : PageMap) : Except Fault PageMap :=
  pages.tryMap fun path body => do return module (resolver.atDepth (← depth path)) body

/-- makes modules of what the outermost visit answers -/
def wrapping (resolver : Resolver) (v : Visitor Rendering) : Visitor Rendering :=
  v.intercept fun _ proceed => do
    let outermost := (← get).stack.isEmpty
    let pages ← proceed
    if outermost then Act.ofExcept (modules resolver pages) else return pages

/-- the visitor that makes modules -/
def visitor (naming : Naming) (resolver : Resolver) : Visitor Rendering :=
  (wrapping resolver (bodies naming)).keepingLinks

def pages (options : Options) (n : Node) : Except Fault PageMap := do
  let naming ← Naming.make Role.all options.transformers
  let strategy ← Strategy.ofLabel options.strategy
  (((visitor naming ⟨strategy, options.client, 0⟩).explore n).perform (Traversal.start ())).1

end Hooks

end InterfacePages

/-
The documentation of an interface tree as a page map.

Each account, instruction without sub-instructions, address and defined type has a page of its own, each program an
overview, and a program with errors a page of them; pages on one path are joined. Members of kinds without a page
leave no trace.
-/
import InterfacePages.Docs.Account
import InterfacePages.Docs.Address
import InterfacePages.Docs.DefinedType
import InterfacePages.Docs.Instruction
import InterfacePages.Docs.Program
import InterfacePages.PageMap
import InterfacePages.Visit.Traversal

namespace InterfacePages

namespace Docs

/-- the package of the client, unless another is given -/
def standardPackage : Text := "my-program-client"

/-- the folder of the documentation, unless another is given -/
def standardFolder : Text := "docs"

/-- what can be chosen about the content of pages: the client's package and transformers of names by role -/
structure Options where
  package : Text
  transformers : List (Text × Transformer)

/-- an action that makes pages -/
abbrev Rendering := Act (Traversal Unit) PageMap

/-- makes something with the links known so far -/
def withScope {ρ : Type} (naming : Naming) (package : Text) (f : Scope → Except Fault ρ) : Act (Traversal Unit) ρ :=
  Act.ofOutcome fun s => (f ⟨naming, package, s.links⟩, s)

def memberPage (folder : Text) (n : Node) (body : Fragment) : Except Fault PageMap := do
  return PageMap.page (memberPath folder (← n.nameText)) body

section

variable (naming : Naming) (package : Text)

def onAccount : Handler Rendering := fun n _ => do
  let path ← Traversal.pathTo .account
  withScope naming package fun scope => do memberPage "accounts" n (← account scope path n)

def onDefinedType : Handler Rendering := fun n _ => do
  let _ ← Traversal.pathTo .definedType
  withScope naming package fun scope => do memberPage "types" n (← definedType scope n)

def onInstruction : Handler Rendering := fun n _ => do
  let _ ← Traversal.pathTo .instruction
  withScope naming package fun scope => do memberPage "instructions" n (← instruction scope n)

def onAddress : Handler Rendering := fun n _ => do
  let _ ← Traversal.pathTo .pda
  withScope naming package fun scope => do memberPage "pdas" n (← address scope n)

def onProgram : Handler Rendering := fun n visit => do
  let path ← Traversal.pathTo .program
  let own ← withScope naming package fun scope => do
    let overviewPage ← overview scope path n
    return [PageMap.page "index.md" overviewPage, PageMap.page? "errors.md" (← errors scope n)]
  let pdas ← Traversal.visitAll visit (← Act.ofExcept (n.items .pdas))
  let accounts ← Traversal.visitAll visit (← Act.ofExcept (n.items .accounts))
  let types ← Traversal.visitAll visit (← Act.ofExcept (n.items .definedTypes))
  let instructions ← (← Act.ofExcept n.leafInstructions).mapM visit
  return PageMap.merge (own ++ pdas ++ accounts ++ types ++ instructions)

def onRoot : Handler Rendering := fun n visit => do
  return PageMap.merge (← (← Act.ofExcept n.programs).mapM visit)

def handlers : List (Kind × Handler Rendering) := [
  (.account, onAccount naming package),
  (.definedType, onDefinedType naming package),
  (.instruction, onInstruction naming package),
  (.pda, onAddress naming package),
  (.program, onProgram naming package),
  (.root, onRoot)]

/-- the visitor that makes pages -/
def visitor : Visitor Rendering :=
  ((Visitor.constant (fun _ => return OrderedMap.empty) []).extend
    ((handlers naming package).map fun h => (.known h.1, h.2))).keepingStack.keepingLinks

end

/-- the pages of a node as they are made -/
def draft (options : Options) (n : Node) : Except Fault PageMap := do
  let naming ← Naming.make Role.client options.transformers
  (((visitor naming options.package).explore n).perform (Traversal.start ())).1

/-- ends a text with exactly one line feed -/
def endWithLineFeed (t : Text) : Text := Text.dropEndWhile (· == 10) t ++ "\n"

/-- the documentation of an interface tree -/
def pages (options : Options) (root : Node) : Except Fault PageMap := do
  return (← draft options root).mapContent endWithLineFeed

end Docs

end InterfacePages

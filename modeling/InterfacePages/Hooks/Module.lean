/-
Modules of hooks: whole files, and the indexes that export them.

A module has a directive, a banner, its imports and its hooks. The aliases of the imports are resolved for the depth
of the file below the folder of hooks. An index exports each name of a family once, in code-point order.
-/
import InterfacePages.Files.Path
import InterfacePages.Fragment.Basic
import InterfacePages.Name.Role

namespace InterfacePages

namespace Hooks

def hooksFolder : Text := "hooks"

/-- how many folders a path leads below the folder of hooks -/
def depth (path : Text) : Except Fault Int := do
  let parts ← (Files.Path.ofText path).below (Files.Path.ofText hooksFolder)
  return (parts.length : Int) - 1

/-- what every module says about itself -/
def banner : Text := Text.joinLines [
  "/**",
  " * This code was AUTOGENERATED by idlrender.",
  " * Please DO NOT EDIT THIS FILE. Change the interface tree instead",
  " * and rerun the generator to update it.",
  " */"]

/-- the module around some hooks -/
def module (resolver : Resolver) (body : Fragment) : Fragment :=
  let imports := resolver.resolve body.imports
  let statements := imports.text
  let importBlock : List Text := if statements.isEmpty then [] else [statements]
  let blocks : List (List Text) := [["'use client';", banner], importBlock, [Text.trimBoth (· == 10) body.content]]
  ⟨Text.joinParagraphs blocks.flatten ++ "\n", imports⟩

/-- the name under which a node is exported; a name that is not given stays as it is -/
def exportName (n : Node) : Except Fault Value := do
  let name ← n.get .name
  match name with
  | .text t => return .text (Name.camelCase t)
  | other => if other.isGiven then throw .wrongType else return other

/-- drops values equal to earlier ones -/
def distinctValues (found : List Value) : List Value → List Value
  | [] => found
  | v :: rest => distinctValues (if found.any v.same then found else found ++ [v]) rest

/-- values in code-point order; only texts can be compared with each other -/
def sortedNames (names : List Value) : Except Fault (List Text) :=
  match names with
  | [name] => .ok [name.display]
  | names => do return Text.sorted (← names.mapM Value.asText)

/-- the index of some nodes, if there are any -/
def index (nodes : List Node) : Except Fault (Option Fragment) := do
  let names ← sortedNames (distinctValues [] (← nodes.mapM exportName))
  if names.isEmpty then return none
  return some (Fragment.lines (names.map fun name => Fragment.exportAll ("./" ++ name)))

end Hooks

end InterfacePages

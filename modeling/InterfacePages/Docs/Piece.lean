/-
The pieces of documentation pages.

A page is made of sections, code blocks and tables. What a page shows of a node is read in the order in which it
stands on the page, so of two faults the one that stands first is reported.
-/
import InterfacePages.Fragment.Basic
import InterfacePages.Markdown
import InterfacePages.Name.Role
import InterfacePages.Shape.ByteSize
import InterfacePages.Shape.TypeText

namespace InterfacePages

def Node.shown (n : Node) (a : Attr) : Except Fault Text := do return (← n.get a).display

def Node.gives (n : Node) (a : Attr) : Except Fault Bool := do return (← n.get a).isGiven

/-- the nodes of the collection that an attribute holds -/
def Node.children (n : Node) (a : Attr) : Except Fault (List Node) := do (← n.items a).mapM Value.asNode

namespace Docs

/-- what pages are made with: the names of generated symbols, the client's package and the link table -/
structure Scope where
  naming : Naming
  package : Text
  links : LinkTable

def Scope.identifier (scope : Scope) (role : Role) (n : Node) : Except Fault Text := do
  scope.naming.identifier role (← n.nameText)

def titled (title : Text) (body : Fragment) : Fragment :=
  Fragment.paragraphs [.plain (Markdown.heading title 2), body]

def titledText (title body : Text) : Fragment := titled title (.plain body)

def codeText (code : Text) : Text := Markdown.codeBlock code "ts"

def titledCode (title code : Text) : Fragment := titledText title (codeText code)

/-- the section that shows imports, which the page then has -/
def importSection (imports : ImportTable) : Fragment := titled "Import" ⟨codeText imports.text, imports⟩

def pageHeading (title : Text) : Fragment := .plain (Markdown.heading title 1)

/-- what a node says about itself, one line for each of its texts -/
def description (n : Node) : Except Fault (List Fragment) := do
  let docs ← n.get .docs
  if !docs.isGiven then return []
  return [.plain (← docs.joined "\n")]

def oneLine (n : Node) : Except Fault Text := do (← n.get .docs).joined " "

/-- the spelling of the type that an attribute holds, as code -/
def typeCode (a : Attr) (n : Node) : Except Fault Text := do return Markdown.code (← (← n.get a).typeText)

/-- the name of a node, as code -/
def nameCode (n : Node) : Except Fault Text := do return Markdown.code (← n.shown .name)

/-- how many octets a type takes -/
def sizeText (scope : Scope) (path : List Node) (type : Value) : Except Fault Text := do
  let size ← (← type.asNode).byteSize scope.links path
  if size.isAbsent then return "Variable"
  return (← size.displayNumber) ++ " bytes"

def discriminatorRow (v : Value) : Except Fault (List Text) := do
  let d ← v.asNode
  if d.isKind .fieldDiscriminator then
    return ["field", ← nameCode d, ← d.shown .offset]
  else if d.isKind .sizeDiscriminator then
    return ["size", ← d.shown .size, "0"]
  else
    return ["constant", "-", ((d.attr? .offset).getD (.int 0)).display]

/-- the section on discriminators, when there are any -/
def discriminators (headings : List Text) (n : Node) : Except Fault (List Fragment) := do
  let ds ← n.get .discriminators
  if !ds.isGiven then return []
  return [titledText "Discriminator" (Markdown.table headings (← (← ds.items).mapM discriminatorRow))]

/-- whether one of some fields says something about itself; those after it are not looked at -/
def anyDescribed : List Value → Except Fault Bool
  | [] => .ok false
  | v :: rest => do if ← (← v.asNode).gives .docs then return true else anyDescribed rest

def fieldRow (described : Bool) (v : Value) : Except Fault (List Text) := do
  let f ← v.asNode
  let name ← nameCode f
  let type ← typeCode .type f
  if described then return [name, type, ← oneLine f] else return [name, type]

/-- the table of some fields, with a column for descriptions when one of them has any -/
def fieldTable (fields : Value) : Except Fault Fragment := do
  if !fields.isGiven then return .plain "_No fields._"
  let described ← anyDescribed (← fields.items)
  let headings : List Text := if described then ["Field", "Type", "Description"] else ["Field", "Type"]
  return .plain (Markdown.table headings (← (← fields.items).mapM (fieldRow described)))

end Docs

end InterfacePages

/-
Fragments: generated text with the imports it needs.
-/
import InterfacePages.Import.Resolver

namespace InterfacePages

structure Fragment where
  content : Text
  imports : ImportTable
  deriving Repr

namespace Fragment

/-- a text that needs no imports -/
def plain (content : Text) : Fragment := ⟨content, OrderedMap.empty⟩

instance : Inhabited Fragment := ⟨plain []⟩

def merge (join : List Text → Text) (parts : List Fragment) : Fragment :=
  ⟨join (parts.map (·.content)), ImportTable.merge (parts.map (·.imports))⟩

def lines (parts : List Fragment) : Fragment := merge Text.joinLines parts

/-- joins contents with a blank line between neighbours -/
def paragraphs (parts : List Fragment) : Fragment := merge Text.joinParagraphs parts

/-- the first content with the imports of all; there has to be a first -/
def first (parts : List Fragment) : Except Fault Fragment :=
  if parts.isEmpty then .error (.index .listIndex) else .ok (merge (·.headD []) parts)

/-- adds symbols of one module, written in the syntax of imports -/
def addImports (f : Fragment) (module : Text) (imports : List Text) : Except Fault Fragment := do
  return { f with imports := ← f.imports.addTexts module imports }

def mapContent (change : Text → Text) (f : Fragment) : Fragment := { f with content := change f.content }

def exportAll (module : Text) : Fragment := plain ("export * from '" ++ module ++ "';")

end Fragment

end InterfacePages

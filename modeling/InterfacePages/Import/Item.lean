/-
Lists of imports as they are handed over: each item is a symbol or the syntax of one.
-/
import InterfacePages.Import.Table

namespace InterfacePages

inductive ImportItem where
  | symbol (i : Import)
  | written (t : Text)
  deriving DecidableEq, Repr

/-- the symbol an item stands for -/
def ImportItem.read : ImportItem → Except Fault Import
  | symbol i => .ok i
  | written t => Import.parse t

namespace ImportTable

/-- adds the symbols of some items under one module, after reading all of them -/
def addItems (table : ImportTable) (module : Text) (items : List ImportItem) : Except Fault ImportTable := do
  return add table module (← items.mapM ImportItem.read)

/-- a table of the symbols of some items under one module; without a module it is empty and no item is read -/
def createItems (module : Option Text) (items : List ImportItem) : Except Fault ImportTable :=
  match module with
  | none => .ok OrderedMap.empty
  | some module => addItems OrderedMap.empty module items

end ImportTable

end InterfacePages

/-
Import tables: for each module, the names used from it and what they stand for.

A table is a map from module and used name to the symbol, so a module without symbols does not occur. Merging goes
from left to right: the first symbol under a key stays, but a value import of the same symbol takes the place of a
type import. Statements come one per module, relative modules first.
-/
import InterfacePages.Import.Basic
import InterfacePages.OrderedMap

namespace InterfacePages

/-- where an imported symbol is found: its module and the name used for it -/
structure ImportKey where
  module : Text
  used : Text
  deriving DecidableEq, Repr

/-- what is imported: the name exported, and whether only its type is wanted -/
structure ImportSymbol where
  imported : Text
  isType : Bool
  deriving DecidableEq, Repr

/-- what a table keeps of an import under its key -/
def Import.symbol (i : Import) : ImportSymbol := ⟨i.imported, i.isType⟩

/-- symbols by module and used name -/
abbrev ImportTable := OrderedMap ImportKey ImportSymbol

namespace ImportTable

/-- the symbol to keep of an earlier one, if any, and a later one for the same key -/
def prefer (earlier : Option ImportSymbol) (later : ImportSymbol) : ImportSymbol :=
  match earlier with
  | none => later
  | some earlier => if earlier.imported = later.imported ∧ earlier.isType ∧ !later.isType then later else earlier

def absorb (table : ImportTable) (entry : ImportKey × ImportSymbol) : ImportTable :=
  table.upsert entry.1 fun earlier => prefer earlier entry.2

/-- takes in entries from left to right -/
def absorbAll (table : ImportTable) (entries : List (ImportKey × ImportSymbol)) : ImportTable :=
  entries.foldl absorb table

def merge (tables : List ImportTable) : ImportTable :=
  tables.foldl (fun merged table => absorbAll merged table.entries) OrderedMap.empty

/-- the symbols of one module; of two under one used name the later counts -/
def ofImports (module : Text) (imports : List Import) : ImportTable :=
  OrderedMap.ofList (imports.map fun i => (⟨module, i.used⟩, ⟨i.imported, i.isType⟩))

def add (table : ImportTable) (module : Text) (imports : List Import) : ImportTable :=
  merge [table, ofImports module imports]

def create (module : Text) (imports : List Import) : ImportTable := add OrderedMap.empty module imports

/-- adds symbols of one module, written in the syntax of imports -/
def addTexts (table : ImportTable) (module : Text) (imports : List Text) : Except Fault ImportTable := do
  return add table module (← imports.mapM Import.parse)

/-- a table of symbols of one module, written in the syntax of imports -/
def createTexts (module : Text) (imports : List Text) : Except Fault ImportTable :=
  addTexts OrderedMap.empty module imports

/-- the modules, each once -/
def modules (table : ImportTable) : List Text := Text.distinct (table.keys.map (·.module))

/-- the symbols used from a module -/
def importsOf (table : ImportTable) (module : Text) : List Import :=
  table.entries.filterMap fun e => if e.1.module = module then some ⟨e.2.imported, e.2.isType, e.1.used⟩ else none

def isRelative (specifier : Text) : Bool := Text.startsWith "." specifier

/-- the symbols used from a module, sorted by the name used -/
def sortedImportsOf (table : ImportTable) (module : Text) : List Import :=
  let imports := table.importsOf module
  (Text.sorted (imports.map (·.used))).filterMap fun used => imports.find? (·.used == used)

def statement (table : ImportTable) (module : Text) : Text :=
  let symbols := Text.joinWith ", " ((table.sortedImportsOf module).map Import.text)
  "import \x7b " ++ symbols ++ " \x7d from '" ++ module ++ "';"

def statementOrder (table : ImportTable) : List Text :=
  let modules := Text.sorted table.modules
  modules.filter isRelative ++ modules.filter (!isRelative ·)

/-- the import statements, one per module -/
def text (table : ImportTable) : Text := Text.joinLines (table.statementOrder.map table.statement)

end ImportTable

end InterfacePages

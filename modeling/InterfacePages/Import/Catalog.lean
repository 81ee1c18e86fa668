/-
Catalogs: imports as they are handed over to be merged.

A catalog files symbols by module and name. Nothing keeps a module from being listed without symbols, or a symbol from
being filed under another name than the one it is used by; where neither happens, a catalog says what an import table
says (`table`, `ofTable`).

Merging goes from left to right by the rule of import tables, place by place, and modules that are left without symbols
are dropped. Resolving merges what each alias has, in the order of the aliases.
-/
import InterfacePages.Import.Resolver

namespace InterfacePages

/-- symbols filed by name, for each module -/
abbrev ImportCatalog := OrderedMap Text (OrderedMap Text Import)

namespace ImportCatalog

def symbol? (catalog : ImportCatalog) (module used : Text) : Option Import :=
  (catalog.get? module).bind (·.get? used)

/-- the symbol to keep of an earlier one, if any, and a later one in the same place -/
def prefer (earlier : Option Import) (later : Import) : Import :=
  match earlier with
  | none => later
  | some earlier => if earlier.imported = later.imported ∧ earlier.isType ∧ !later.isType then later else earlier

/-- takes in the symbols of one module -/
def absorbSymbols (filed symbols : OrderedMap Text Import) : OrderedMap Text Import :=
  symbols.entries.foldl (fun filed e => filed.upsert e.1 fun earlier => prefer earlier e.2) filed

/-- takes in a catalog, module by module -/
def absorb (merged catalog : ImportCatalog) : ImportCatalog :=
  catalog.entries.foldl
    (fun merged e => merged.upsert e.1 fun filed => absorbSymbols (filed.getD OrderedMap.empty) e.2) merged

def inhabited (catalog : ImportCatalog) : ImportCatalog :=
  ⟨catalog.entries.filter fun e => !e.2.entries.isEmpty,
    catalog.nodup.sublist (List.filter_sublist.map Prod.fst)⟩

/-- merges catalogs from left to right, passing over the ones that are missing -/
def merge (catalogs : List (Option ImportCatalog)) : ImportCatalog :=
  inhabited <| catalogs.foldl (fun merged catalog => catalog.elim merged (absorb merged)) OrderedMap.empty

/-- the catalog under modules instead of aliases, merged in the order of the aliases -/
def resolve (r : Resolver) (catalog : ImportCatalog) : ImportCatalog :=
  merge ((Text.sorted catalog.keys).map fun name =>
    (catalog.get? name).map fun symbols => inhabited (OrderedMap.ofList [(r.module name, symbols)]))

/-- the table of what is filed, under the names it is filed by -/
def table (catalog : ImportCatalog) : ImportTable :=
  OrderedMap.ofList (catalog.entries.flatMap fun m => m.2.entries.map fun e => (⟨m.1, e.1⟩, e.2.symbol))

def ofTable (table : ImportTable) : ImportCatalog :=
  OrderedMap.ofList (table.modules.map fun module =>
    (module, OrderedMap.ofList ((table.importsOf module).map fun i => (i.used, i))))

end ImportCatalog

end InterfacePages

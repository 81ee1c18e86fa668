/-
What a merge of catalogs holds.

In each place the symbols of the catalogs meet in order (`symbol?_merge`), and what is left of them is one of them
(`foldl_prefer_mem`) and says what is left of their symbols in a table (`map_symbol_foldl`). So a merge can be read off
the catalogs (`merge_exact`), and its table is the merge of their tables. Tables are the catalogs whose symbols are all
filed under their own names (`table_ofTable`, `ofTable_table`).
-/
import InterfacePages.Import.Catalog
import InterfacePages.Proofs.SettledImports

namespace InterfacePages

namespace ImportCatalog

open OrderedMap (Same)
open ImportTable (settle mem_importsOf)

/-- every symbol is filed under the name it is used by -/
def Filed (catalog : ImportCatalog) : Prop :=
  ∀ module used i, catalog.symbol? module used = some i → i.used = used

/-- two catalogs have the same symbols in the same places -/
def Alike (catalog catalog' : ImportCatalog) : Prop :=
  ∀ module used, catalog.symbol? module used = catalog'.symbol? module used

theorem symbol?_eq_some {catalog : ImportCatalog} {module used : Text} {i : Import} :
    catalog.symbol? module used = some i ↔
      ∃ symbols, catalog.get? module = some symbols ∧ symbols.get? used = some i := Option.bind_eq_some_iff

/-! ## Taking in -/

/-- what a place holds after a catalog has been taken in that may have a symbol there -/
def kept (held later : Option Import) : Option Import := later.elim held fun i => some (prefer held i)

theorem get?_absorbSymbols (filed symbols : OrderedMap Text Import) (used : Text) :
    (absorbSymbols filed symbols).get? used = kept (filed.get? used) (symbols.get? used) := by
  refine (OrderedMap.get?_foldl_upsert prefer filed symbols.entries used).trans ?_
  rw [OrderedMap.valuesAt_entries]
  cases symbols.get? used <;> rfl

theorem get?_absorb (merged catalog : ImportCatalog) (module : Text) :
    (absorb merged catalog).get? module = (catalog.get? module).elim (merged.get? module) fun symbols =>
      some (absorbSymbols ((merged.get? module).getD OrderedMap.empty) symbols) := by
  refine (OrderedMap.get?_foldl_upsert (fun filed symbols => absorbSymbols (filed.getD OrderedMap.empty) symbols)
    merged catalog.entries module).trans ?_
  rw [OrderedMap.valuesAt_entries]
  cases catalog.get? module <;> rfl

theorem symbol?_absorb (merged catalog : ImportCatalog) (module used : Text) :
    (absorb merged catalog).symbol? module used =
      kept (merged.symbol? module used) (catalog.symbol? module used) := by
  unfold symbol?
  rw [get?_absorb]
  cases catalog.get? module with
  | none => rfl
  | some symbols =>
    rw [Option.elim_some, Option.bind_some, get?_absorbSymbols, Option.bind_some]
    cases merged.get? module <;> rfl

theorem get?_inhabited {catalog : ImportCatalog} {module : Text} {symbols : OrderedMap Text Import} :
    (inhabited catalog).get? module = some symbols ↔ catalog.get? module = some symbols ∧ symbols.entries ≠ [] := by
  rw [← OrderedMap.mem_entries, ← OrderedMap.mem_entries, inhabited, List.mem_filter]
  simp

/-- dropping the modules without symbols leaves every place as it is -/
theorem symbol?_inhabited (catalog : ImportCatalog) (module used : Text) :
    (inhabited catalog).symbol? module used = catalog.symbol? module used := by
  refine Option.ext fun i => ?_
  simp only [symbol?_eq_some, get?_inhabited]
  constructor
  · rintro ⟨symbols, ⟨hs, -⟩, hi⟩
    exact ⟨symbols, hs, hi⟩
  · rintro ⟨symbols, hs, hi⟩
    exact ⟨symbols, ⟨hs, List.ne_nil_of_mem (OrderedMap.mem_entries.2 hi)⟩, hi⟩

/-- the symbols that catalogs have in one place, in order -/
def symbolsAt (module used : Text) (catalogs : List (Option ImportCatalog)) : List Import :=
  catalogs.filterMap fun catalog => catalog.bind (·.symbol? module used)

theorem mem_symbolsAt {module used : Text} {catalogs : List (Option ImportCatalog)} {i : Import} :
    i ∈ symbolsAt module used catalogs ↔ ∃ catalog, some catalog ∈ catalogs ∧ catalog.symbol? module used = some i := by
  simp only [symbolsAt, List.mem_filterMap, Option.bind_eq_some_iff]
  constructor
  · rintro ⟨_, hc, catalog, rfl, hi⟩
    exact ⟨catalog, hc, hi⟩
  · rintro ⟨catalog, hc, hi⟩
    exact ⟨some catalog, hc, catalog, rfl, hi⟩

theorem symbol?_merge (catalogs : List (Option ImportCatalog)) (module used : Text) :
    (merge catalogs).symbol? module used =
      (symbolsAt module used catalogs).foldl (fun held i => some (prefer held i)) none := by
  have hfold : ∀ merged : ImportCatalog,
      (catalogs.foldl (fun merged catalog => catalog.elim merged (absorb merged)) merged).symbol? module used =
        (symbolsAt module used catalogs).foldl (fun held i => some (prefer held i)) (merged.symbol? module used) := by
    induction catalogs with
    | nil => exact fun _ => rfl
    | cons catalog rest ih =>
      intro merged
      rw [List.foldl_cons, ih]
      cases catalog with
      | none => rfl
      | some catalog =>
        rw [Option.elim_some, symbol?_absorb, symbolsAt, symbolsAt, List.filterMap_cons, Option.bind_some]
        cases catalog.symbol? module used <;> rfl
  rw [merge, symbol?_inhabited, hfold]
  rfl

/-! ## What is left -/

theorem prefer_mem (held : Option Import) (later : Import) :
    prefer held later = later ∨ held = some (prefer held later) := by
  unfold prefer
  split
  · exact .inl rfl
  · split
    · exact .inl rfl
    · exact .inr rfl

/-- what is left of symbols that meet is one of them -/
theorem foldl_prefer_mem {held : Option Import} {later : List Import} {i : Import}
    (h : later.foldl (fun held i => some (prefer held i)) held = some i) : held = some i ∨ i ∈ later := by
  induction later generalizing held with
  | nil => exact .inl h
  | cons j later ih =>
    rcases ih h with hi | hi
    · cases hi
      rcases prefer_mem held j with hp | hp
      · exact .inr (List.mem_cons.2 (.inl hp))
      · exact .inl hp
    · exact .inr (List.mem_cons_of_mem _ hi)

/-- whatever stands in a place of a merge stands there in one of the catalogs -/
theorem symbol_of_merge {catalogs : List (Option ImportCatalog)} {module used : Text} {i : Import}
    (h : (merge catalogs).symbol? module used = some i) :
    ∃ catalog, some catalog ∈ catalogs ∧ catalog.symbol? module used = some i := by
  rw [symbol?_merge] at h
  rcases foldl_prefer_mem h with h | h
  · cases h
  · exact mem_symbolsAt.1 h

theorem symbol_prefer (held : Option Import) (later : Import) :
    (prefer held later).symbol = ImportTable.prefer (held.map Import.symbol) later.symbol := by
  cases held with
  | none => rfl
  | some earlier => exact apply_ite Import.symbol _ later earlier

/-- what is left of symbols that meet says what is left of them in a table -/
theorem map_symbol_foldl (held : Option Import) (later : List Import) :
    (later.foldl (fun held i => some (prefer held i)) held).map Import.symbol =
      settle ((held.map Import.symbol).toList ++ later.map Import.symbol) := by
  rw [← ImportTable.foldl_prefer]
  induction later generalizing held with
  | nil => rfl
  | cons i later ih =>
    rw [List.foldl_cons, ih, Option.map_some, symbol_prefer]
    rfl

theorem map_symbol_merge (catalogs : List (Option ImportCatalog)) (module used : Text) :
    ((merge catalogs).symbol? module used).map Import.symbol =
      settle ((symbolsAt module used catalogs).map Import.symbol) := by
  rw [symbol?_merge, map_symbol_foldl]
  rfl

/-! ## Catalogs and tables -/

theorem get?_table (catalog : ImportCatalog) (k : ImportKey) :
    catalog.table.get? k = (catalog.symbol? k.module k.used).map Import.symbol := by
  have hd : ((catalog.entries.flatMap fun m => m.2.entries.map fun e => (ImportKey.mk m.1 e.1, e.2.symbol)).map
      Prod.fst).Nodup := by
    rw [List.map_flatMap]
    refine List.nodup_flatMap.2 ⟨fun m _ => ?_, (List.pairwise_map.1 catalog.nodup).imp fun hne => ?_⟩
    · have hkeys := m.2.nodup.map (fun _ _ h => (ImportKey.mk.inj h).2 : Function.Injective (ImportKey.mk m.1))
      rw [List.map_map] at hkeys ⊢
      exact hkeys
    · intro k hk hk'
      simp only [List.map_map, List.mem_map, Function.comp_apply] at hk hk'
      obtain ⟨_, _, rfl⟩ := hk
      obtain ⟨_, _, he⟩ := hk'
      exact hne (ImportKey.mk.inj he).1.symm
  refine Option.ext fun s => ?_
  rw [table, OrderedMap.get?_ofList hd]
  simp only [List.mem_flatMap, List.mem_map, Option.map_eq_some_iff, symbol?_eq_some, Prod.exists, Prod.mk.injEq,
    OrderedMap.mem_entries]
  constructor
  · rintro ⟨module, symbols, hs, used, i, hi, rfl, rfl⟩
    exact ⟨i, ⟨symbols, hs, hi⟩, rfl⟩
  · rintro ⟨i, ⟨symbols, hs, hi⟩, rfl⟩
    exact ⟨k.module, symbols, hs, k.used, i, hi, rfl, rfl⟩

theorem symbol?_ofTable (table : ImportTable) (module used : Text) :
    (ofTable table).symbol? module used =
      (table.get? ⟨module, used⟩).map fun s => ⟨s.imported, s.isType, used⟩ := by
  have hmodules : ((table.modules.map fun module =>
      (module, OrderedMap.ofList ((table.importsOf module).map fun i => (i.used, i)))).map Prod.fst).Nodup := by
    rw [List.map_map]
    exact (List.map_id' table.modules).symm ▸ Text.nodup_distinct _
  have hnames : (((table.importsOf module).map fun i => (i.used, i)).map Prod.fst).Nodup := by
    rw [List.map_map]
    exact ImportTable.nodup_used table module
  refine Option.ext fun i => ?_
  rw [symbol?_eq_some, Option.map_eq_some_iff]
  simp only [ofTable, OrderedMap.get?_ofList hmodules, List.mem_map, Prod.mk.injEq]
  constructor
  · rintro ⟨_, ⟨_, -, rfl, rfl⟩, hi⟩
    obtain ⟨j, hj, hji⟩ := List.mem_map.1 ((OrderedMap.get?_ofList hnames).1 hi)
    cases hji
    exact ⟨i.symbol, mem_importsOf.1 hj, rfl⟩
  · rintro ⟨s, hs, rfl⟩
    have hmem : (⟨s.imported, s.isType, used⟩ : Import) ∈ table.importsOf module := mem_importsOf.2 hs
    refine ⟨_, ⟨module, ?_, rfl, rfl⟩, (OrderedMap.get?_ofList hnames).2 (List.mem_map.2 ⟨_, hmem, rfl⟩)⟩
    exact ImportTable.mem_modules.2 ⟨_, OrderedMap.mem_entries.2 hs, rfl⟩

/-- every table is the table of a catalog -/
theorem table_ofTable (table : ImportTable) : Same (ofTable table).table table := by
  intro k
  rw [get?_table, symbol?_ofTable, Option.map_map]
  exact Option.map_id' ..

/-- a catalog whose symbols are filed under their own names has them where its table has them -/
theorem ofTable_table {catalog : ImportCatalog} (h : catalog.Filed) : Alike (ofTable catalog.table) catalog := by
  intro module used
  rw [symbol?_ofTable, get?_table]
  cases hi : catalog.symbol? module used with
  | none => rfl
  | some i =>
    obtain ⟨imported, isType, own⟩ := i
    cases h module used _ hi
    rfl

/-! ## Merging -/

/-- what a merge of catalogs holds, read off these -/
structure Merges (catalogs : List (Option ImportCatalog)) (merged : ImportCatalog) : Prop where
  /-- a place is taken exactly if it is in one of them -/
  places : ∀ module used, (∃ i, merged.symbol? module used = some i) ↔
    ∃ catalog i, some catalog ∈ catalogs ∧ catalog.symbol? module used = some i
  /-- the symbol there imports what that of the first of them imports -/
  first : ∀ module used i, merged.symbol? module used = some i →
    ∃ j, catalogs.findSome? (fun catalog => catalog.bind (·.symbol? module used)) = some j ∧ i.imported = j.imported
  /-- it is wanted as a type only exactly if all of them that import the same there want just its type -/
  mark : ∀ module used i, merged.symbol? module used = some i →
    (i.isType = true ↔ ∀ catalog j, some catalog ∈ catalogs → catalog.symbol? module used = some j →
      j.imported = i.imported → j.isType = true)
  /-- every module has symbols -/
  inhabited : ∀ module symbols, merged.get? module = some symbols → symbols.entries ≠ []
  /-- symbols are filed under their own names if they are in all of them -/
  filed : (∀ catalog, some catalog ∈ catalogs → catalog.Filed) → merged.Filed

theorem symbol?_merge_isSome {catalogs : List (Option ImportCatalog)} {module used : Text} :
    ((merge catalogs).symbol? module used).isSome = true ↔ symbolsAt module used catalogs ≠ [] := by
  rw [← Option.isSome_map (f := Import.symbol), map_symbol_merge, ImportTable.settle_isSome, ne_eq, List.map_eq_nil_iff]

theorem merged_symbol {catalogs : List (Option ImportCatalog)} {module used : Text} {i : Import}
    (h : (merge catalogs).symbol? module used = some i) :
    (∃ first, (symbolsAt module used catalogs).head? = some first ∧ i.imported = first.imported) ∧
      (i.isType = true ↔ ∀ j ∈ symbolsAt module used catalogs, j.imported = i.imported → j.isType = true) := by
  have hsettled := map_symbol_merge catalogs module used
  rw [h, Option.map_some] at hsettled
  obtain ⟨⟨first, hfirst, himported⟩, hmark⟩ := ImportTable.settle_eq_some hsettled.symm
  rw [List.head?_map, Option.map_eq_some_iff] at hfirst
  obtain ⟨first, hfirst, rfl⟩ := hfirst
  exact ⟨⟨first, hfirst, himported⟩, hmark.trans List.forall_mem_map⟩

theorem symbols_of_tables (catalogs : List (Option ImportCatalog)) (k : ImportKey) :
    (catalogs.filterMap fun catalog => catalog.map table).filterMap (·.get? k) =
      (symbolsAt k.module k.used catalogs).map Import.symbol := by
  rw [symbolsAt, List.filterMap_filterMap, List.map_filterMap]
  refine List.filterMap_congr fun catalog _ => ?_
  cases catalog with
  | none => rfl
  | some catalog => exact get?_table catalog k

/-- **What a merge holds can be read off the catalogs that are merged**, and its table is the merge of their tables. -/
theorem merge_exact (catalogs : List (Option ImportCatalog)) :
    Merges catalogs (merge catalogs) ∧
      Same (merge catalogs).table (ImportTable.merge (catalogs.filterMap fun catalog => catalog.map table)) := by
  refine ⟨⟨fun module used => ?_, fun module used i hi => ?_, fun module used i hi => ?_, fun module symbols hs => ?_,
    fun hfiled module used i hi => ?_⟩, fun k => ?_⟩
  · refine ⟨fun ⟨i, hi⟩ => ?_, fun ⟨catalog, i, hc, hi⟩ => ?_⟩
    · obtain ⟨catalog, hc, hi⟩ := symbol_of_merge hi
      exact ⟨catalog, i, hc, hi⟩
    · have hne := List.ne_nil_of_mem (mem_symbolsAt.2 ⟨catalog, hc, hi⟩)
      exact Option.isSome_iff_exists.1 (symbol?_merge_isSome.2 hne)
  · obtain ⟨⟨first, hfirst, himported⟩, -⟩ := merged_symbol hi
    rw [symbolsAt, List.head?_filterMap] at hfirst
    exact ⟨first, hfirst, himported⟩
  · refine (merged_symbol hi).2.trans ⟨fun h catalog j hc hj => h j (mem_symbolsAt.2 ⟨catalog, hc, hj⟩), fun h j hj => ?_⟩
    obtain ⟨catalog, hc, hj⟩ := mem_symbolsAt.1 hj
    exact h catalog j hc hj
  · exact (get?_inhabited.1 hs).2
  · obtain ⟨catalog, hc, hi⟩ := symbol_of_merge hi
    exact hfiled catalog hc module used i hi
  · rw [get?_table, map_symbol_merge, ImportTable.get?_merge, symbols_of_tables]

/-- neither the first nor the last symbol of a place need be what is left there -/
example :
    let asking := fun i => some (ofTable (ImportTable.create "generatedClient" [i]))
    (merge [asking ⟨"Counter", true, "Item"⟩, none, asking ⟨"Other", false, "Item"⟩, asking ⟨"Counter", false, "Item"⟩,
      asking ⟨"Other", false, "Item"⟩]).symbol? "generatedClient" "Item" = some ⟨"Counter", false, "Item"⟩ := by
  decide +kernel

end ImportCatalog

end InterfacePages

/-
Going from aliases to modules, and merging.

Under a module a resolved table has what is left of the symbols of all the aliases that stand for it, met in the order of
the aliases (`get?_resolve`). For a catalog it is the same (`symbol?_resolve`): no symbol is lost, the smallest of the
aliases decides what is imported (`resolve_first`), and only what is held counts, not its order (`resolve_alike`).

Resolving and merging both condense entries. Where the entries that a resolver brings together agree, it makes no
difference which of the two comes first (`resolve_merges`); where they do not, it does, as the last example shows.
-/
import InterfacePages.Proofs.CatalogMerging

namespace InterfacePages

open OrderedMap (Same valuesAt)
open ImportCatalog (Alike)

namespace ImportTable

/-! ## What a resolved table holds -/

/-- what the aliases of a module hold, in order -/
def heldUnder {α : Type} (r : Resolver) (module : Text) (held : Text → Option α) (names : List Text) : List α :=
  names.filterMap fun name => if r.module name = module then held name else none

theorem map_heldUnder {α β : Type} (f : α → β) (r : Resolver) (module : Text) (held : Text → Option α)
    (names : List Text) :
    (heldUnder r module held names).map f = heldUnder r module (fun name => (held name).map f) names := by
  unfold heldUnder
  rw [List.map_filterMap]
  refine List.filterMap_congr fun name _ => ?_
  split <;> rfl

/-- aliases that hold nothing do not matter -/
theorem heldUnder_sorted_congr {α : Type} (r : Resolver) (module : Text) {held : Text → Option α}
    {names names' : List Text} (hd : names.Nodup) (hd' : names'.Nodup)
    (h : ∀ name v, held name = some v → (name ∈ names ↔ name ∈ names')) :
    heldUnder r module held (Text.sorted names) = heldUnder r module held (Text.sorted names') := by
  refine Text.filterMap_sorted_congr hd hd' fun name v hv => ?_
  split at hv
  · exact h name v hv
  · cases hv

theorem valuesAt_rekeyed (r : Resolver) (table : ImportTable) (k : ImportKey) (name : Text) :
    valuesAt k (r.rekeyed table name) =
      (if r.module name = k.module then table.get? ⟨name, k.used⟩ else none).toList := by
  have hentries : valuesAt k (r.rekeyed table name) =
      if r.module name = k.module then valuesAt ⟨name, k.used⟩ table.entries else [] := by
    unfold Resolver.rekeyed
    obtain ⟨module, used⟩ := k
    induction table.entries with
    | nil => simp [valuesAt]
    | cons e rest ih =>
      obtain ⟨⟨name', used'⟩, symbol⟩ := e
      rw [OrderedMap.valuesAt_cons, List.filterMap_cons]
      by_cases hn : name' = name
      · subst hn
        rw [if_pos rfl, OrderedMap.valuesAt_cons, ih]
        by_cases hm : r.module name' = module <;> simp [hm]
      · simpa [hn] using ih
  rw [hentries, OrderedMap.valuesAt_entries]
  split <;> rfl

theorem valuesAt_flatMap_rekeyed (r : Resolver) (table : ImportTable) (k : ImportKey) (names : List Text) :
    valuesAt k (names.flatMap (r.rekeyed table)) =
      heldUnder r k.module (fun name => table.get? ⟨name, k.used⟩) names := by
  induction names with
  | nil => rfl
  | cons name rest ih =>
    rw [List.flatMap_cons, OrderedMap.valuesAt_append, valuesAt_rekeyed, ih, heldUnder, heldUnder, List.filterMap_cons]
    cases (if r.module name = k.module then table.get? ⟨name, k.used⟩ else none) <;> rfl

theorem get?_resolve (r : Resolver) (table : ImportTable) (k : ImportKey) :
    (r.resolve table).get? k =
      settle (heldUnder r k.module (fun name => table.get? ⟨name, k.used⟩) (Text.sorted table.modules)) := by
  rw [Resolver.resolve, get?_absorbAll, valuesAt_flatMap_rekeyed]
  rfl

/-- among sorted texts, the first one that gives something is the smallest that does -/
theorem least_of_findSome? {α : Type} {f : Text → Option α} {ts : List Text}
    (hs : ts.Pairwise fun a b => Text.le a b = true) {v : α} (h : ts.findSome? f = some v) :
    ∃ t, f t = some v ∧ ∀ u ∈ ts, f u ≠ none → Text.le t u = true := by
  obtain ⟨before, t, after, rfl, ht, hbefore⟩ := List.findSome?_eq_some_iff.1 h
  refine ⟨t, ht, fun u hu hne => ?_⟩
  rcases List.mem_append.1 hu with hu | hu
  · exact absurd (hbefore u hu) hne
  · rcases List.mem_cons.1 hu with rfl | hu
    · exact Text.le_refl u
    · exact (List.pairwise_cons.1 (List.pairwise_append.1 hs).2.1).1 u hu

/-- the smallest alias of a module that holds something, and what it holds -/
structure FirstAlias {α : Type} (r : Resolver) (module : Text) (held : Text → Option α) (name : Text) (v : α) :
    Prop where
  holds : held name = some v
  leads : r.module name = module
  least : ∀ other w, held other = some w → r.module other = module → Text.le name other = true

theorem firstAlias_of_head? {α : Type} {r : Resolver} {module : Text} {held : Text → Option α} {names : List Text}
    {v : α} (hlisted : ∀ name w, held name = some w → name ∈ names)
    (h : (heldUnder r module held (Text.sorted names)).head? = some v) : ∃ name, FirstAlias r module held name v := by
  rw [heldUnder, List.head?_filterMap] at h
  obtain ⟨name, hname, hleast⟩ := least_of_findSome? (Text.sorted_pairwise names) h
  split at hname
  · next hmodule =>
    refine ⟨name, hname, hmodule, fun other w hw hother => hleast other (Text.mem_sorted.2 (hlisted other w hw)) ?_⟩
    rw [if_pos hother, hw]
    exact Option.some_ne_none w
  · cases hname

end ImportTable

/-! ## Catalogs -/

namespace ImportCatalog

open ImportTable (settle heldUnder FirstAlias)

theorem symbol?_alone (module' module used : Text) (symbols : OrderedMap Text Import) :
    (inhabited (OrderedMap.ofList [(module', symbols)])).symbol? module used =
      if module' = module then symbols.get? used else none := by
  have hone : (OrderedMap.ofList [(module', symbols)]).get? module = if module' = module then some symbols else none := by
    rw [OrderedMap.get?_ofList_last, OrderedMap.valuesAt_cons]
    split <;> rfl
  rw [symbol?_inhabited, symbol?, hone]
  split <;> rfl

theorem symbolsAt_aliases (r : Resolver) (catalog : ImportCatalog) (module used : Text) (names : List Text) :
    symbolsAt module used (names.map fun name =>
        (catalog.get? name).map fun symbols => inhabited (OrderedMap.ofList [(r.module name, symbols)])) =
      heldUnder r module (catalog.symbol? · used) names := by
  rw [symbolsAt, List.filterMap_map, heldUnder]
  refine List.filterMap_congr fun name _ => ?_
  rw [Function.comp_apply, Option.bind_map, symbol?]
  simp only [Function.comp_def, symbol?_alone]
  cases catalog.get? name <;> split <;> rfl

theorem symbol?_resolve (r : Resolver) (catalog : ImportCatalog) (module used : Text) :
    (resolve r catalog).symbol? module used =
      (heldUnder r module (catalog.symbol? · used) (Text.sorted catalog.keys)).foldl
        (fun held i => some (prefer held i)) none := by
  rw [resolve, symbol?_merge, symbolsAt_aliases]

theorem map_symbol_resolve (r : Resolver) (catalog : ImportCatalog) (module used : Text) :
    ((resolve r catalog).symbol? module used).map Import.symbol =
      settle ((heldUnder r module (catalog.symbol? · used) (Text.sorted catalog.keys)).map Import.symbol) := by
  rw [symbol?_resolve, map_symbol_foldl]
  rfl

theorem mem_keys_of_symbol? {catalog : ImportCatalog} {module used : Text} {i : Import}
    (h : catalog.symbol? module used = some i) : module ∈ catalog.keys := by
  obtain ⟨symbols, hs, -⟩ := symbol?_eq_some.1 h
  exact OrderedMap.mem_keys.2 ⟨symbols, hs⟩

/-- catalogs with the same symbols are resolved to such -/
theorem resolve_alike (r : Resolver) {catalog catalog' : ImportCatalog} (h : Alike catalog catalog') :
    Alike (resolve r catalog) (resolve r catalog') := by
  intro module used
  rw [symbol?_resolve, symbol?_resolve, funext fun name => h name used]
  refine congrArg (List.foldl _ none) (ImportTable.heldUnder_sorted_congr r module catalog.nodup catalog'.nodup
    fun name i hi => ?_)
  exact iff_of_true (mem_keys_of_symbol? ((h name used).trans hi)) (mem_keys_of_symbol? hi)

/-- resolving a catalog resolves its table -/
theorem table_resolve (r : Resolver) (catalog : ImportCatalog) :
    Same (resolve r catalog).table (r.resolve catalog.table) := by
  intro k
  rw [get?_table, map_symbol_resolve, ImportTable.map_heldUnder, ImportTable.get?_resolve]
  simp only [get?_table]
  refine congrArg settle (ImportTable.heldUnder_sorted_congr r k.module catalog.nodup (Text.nodup_distinct _)
    fun name s hs => iff_of_true ?_ ?_)
  · obtain ⟨i, hi, -⟩ := Option.map_eq_some_iff.1 hs
    exact mem_keys_of_symbol? hi
  · have hk : catalog.table.get? ⟨name, k.used⟩ = some s := (get?_table catalog _).trans hs
    exact ImportTable.mem_modules.2 ⟨_, OrderedMap.mem_entries.2 hk, rfl⟩

/-- no symbol is lost, and what a resolved catalog has comes from the smallest alias -/
theorem resolve_first (r : Resolver) {catalog : ImportCatalog} {name used : Text} {i : Import}
    (h : catalog.symbol? name used = some i) :
    ∃ smallest first kept, FirstAlias r (r.module name) (catalog.symbol? · used) smallest first ∧
      (resolve r catalog).symbol? (r.module name) used = some kept ∧ kept.imported = first.imported := by
  have hmem : i ∈ heldUnder r (r.module name) (catalog.symbol? · used) (Text.sorted catalog.keys) :=
    List.mem_filterMap.2 ⟨name, Text.mem_sorted.2 (mem_keys_of_symbol? h), by rw [if_pos rfl]; exact h⟩
  have hkept := map_symbol_resolve r catalog (r.module name) used
  obtain ⟨s, hs⟩ := Option.isSome_iff_exists.1
    (ImportTable.settle_isSome.2 (List.ne_nil_of_mem (List.mem_map_of_mem hmem)))
  obtain ⟨⟨t, ht, himported⟩, -⟩ := ImportTable.settle_eq_some hs
  rw [List.head?_map, Option.map_eq_some_iff] at ht
  obtain ⟨first, hfirst, rfl⟩ := ht
  obtain ⟨kept, hk, rfl⟩ := Option.map_eq_some_iff.1 (hkept.trans hs)
  obtain ⟨smallest, hsmallest⟩ := ImportTable.firstAlias_of_head? (fun _ _ => mem_keys_of_symbol?) hfirst
  exact ⟨smallest, first, kept, hsmallest, hk, himported⟩

end ImportCatalog

/-! ## Merging and resolving -/

namespace ImportTable

theorem condenses_resolve_merge (r : Resolver) (tables : List ImportTable) :
    Condenses (r.resolve (merge tables)).entries
      ((tables.flatMap (·.entries)).map fun e => (moduleKey r e.1, e.2)) :=
  (condenses_resolve r (merge tables)).trans ((condenses_merge tables).map (moduleKey r))

theorem condenses_merge_resolve (r : Resolver) (tables : List ImportTable) :
    Condenses (merge (tables.map r.resolve)).entries
      ((tables.flatMap (·.entries)).map fun e => (moduleKey r e.1, e.2)) := by
  have hresolved := condenses_flatMap fun table (_ : table ∈ tables) => condenses_resolve r table
  refine (condenses_merge _).trans ?_
  rw [List.flatMap_map, List.map_flatMap]
  exact hresolved

/-- tables that hold the same in another order have the same entries -/
theorem mem_entries_of_same {tables tables' : List ImportTable} (h : List.Forall₂ Same tables tables') (e : Entry) :
    e ∈ tables'.flatMap (·.entries) ↔ e ∈ tables.flatMap (·.entries) := by
  induction h with
  | nil => exact Iff.rfl
  | cons ht _ ih => rw [List.flatMap_cons, List.flatMap_cons, List.mem_append, List.mem_append, ih, ht.mem_iff]

/-- **Resolving goes through merging.** Where the entries agree that a resolver brings together, tables may be merged
before they are resolved or after, whatever the order of their entries. In any case no symbol of a catalog is lost, the
smallest alias decides what is imported, catalogs with the same symbols are resolved to such, and their tables alike. -/
theorem resolve_merges (r : Resolver) :
    (∀ tables, AgreeUnder (moduleKey r) tables → ∀ tables', List.Forall₂ Same tables tables' →
      Same (r.resolve (merge tables)) (merge (tables.map r.resolve)) ∧
      Same (r.resolve (merge tables')) (r.resolve (merge tables)) ∧
      Same (merge (tables'.map r.resolve)) (merge (tables.map r.resolve))) ∧
    (∀ (catalog : ImportCatalog) name used i, catalog.symbol? name used = some i →
      ∃ smallest first kept, FirstAlias r (r.module name) (catalog.symbol? · used) smallest first ∧
        (ImportCatalog.resolve r catalog).symbol? (r.module name) used = some kept ∧ kept.imported = first.imported) ∧
    (∀ catalog catalog', Alike catalog catalog' →
      Alike (ImportCatalog.resolve r catalog) (ImportCatalog.resolve r catalog')) ∧
    ∀ catalog, Same (ImportCatalog.resolve r catalog).table (r.resolve catalog.table) := by
  refine ⟨fun tables hagree tables' hsame => ?_, fun _ _ _ _ => ImportCatalog.resolve_first r,
    fun _ _ => ImportCatalog.resolve_alike r, ImportCatalog.table_resolve r⟩
  have hentries : Condenses ((tables'.flatMap (·.entries)).map fun e => (moduleKey r e.1, e.2))
      ((tables.flatMap (·.entries)).map fun e => (moduleKey r e.1, e.2)) :=
    (Condenses.of_mem_iff (mem_entries_of_same hsame)).map (moduleKey r)
  have hresolved := condenses_resolve_merge r tables
  have hmerged := condenses_merge_resolve r tables
  exact ⟨hresolved.same hmerged hagree.uniform,
    ((condenses_resolve_merge r tables').trans hentries).same hresolved hagree.uniform,
    ((condenses_merge_resolve r tables').trans hentries).same hmerged hagree.uniform⟩

/-- resolves every capability to the client, for files one folder down -/
def clientOnly : Resolver := ⟨.callerRelative, "../", 1⟩

/-- the client's vault as a type, and the same symbol as a value of a capability -/
def vaultUses : List ImportTable := [
  create "solanaAccounts" [⟨"Vault", true, "Vault"⟩, ⟨"Account", true, "Account"⟩],
  create "generatedClient" [⟨"Vault", false, "Vault"⟩]]

theorem vault_resolved : AgreeUnder (moduleKey clientOnly) vaultUses ∧
    Same (clientOnly.resolve (merge vaultUses)) (merge (vaultUses.map clientOnly.resolve)) ∧
    (clientOnly.resolve (merge vaultUses)).get? ⟨"../../", "Vault"⟩ = some ⟨"Vault", false⟩ ∧
    ∃ smallest first, FirstAlias clientOnly (clientOnly.module "solanaAccounts")
      ((ImportCatalog.ofTable (merge vaultUses)).symbol? · "Vault") smallest first := by
  have hagree : AgreeUnder (moduleKey clientOnly) vaultUses := by decide +kernel
  obtain ⟨hmerges, hfirst, -⟩ := resolve_merges clientOnly
  obtain ⟨hsame, -⟩ := hmerges vaultUses hagree vaultUses (List.forall₂_same.2 fun _ _ _ => rfl)
  obtain ⟨smallest, first, -, hf, -⟩ := hfirst (ImportCatalog.ofTable (merge vaultUses)) "solanaAccounts" "Vault"
    ⟨"Vault", true, "Vault"⟩ (by decide +kernel)
  exact ⟨hagree, hsame, by decide +kernel, smallest, first, hf⟩

/-- symbols that do not agree: the smallest alias counts before merging, the first table after it -/
example :
    let mine := create "solanaRpc" [⟨"Mine", false, "Item"⟩]
    let other := create "generatedClient" [⟨"Other", false, "Item"⟩]
    (clientOnly.resolve (merge [mine, other])).get? ⟨"../../", "Item"⟩ = some ⟨"Other", false⟩ ∧
      (merge [clientOnly.resolve mine, clientOnly.resolve other]).get? ⟨"../../", "Item"⟩ = some ⟨"Mine", false⟩ := by
  decide +kernel

end ImportTable

end InterfacePages

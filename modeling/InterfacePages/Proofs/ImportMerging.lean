/-
What merging, re-keying and printing do to the entries of import tables.

`Condenses` relates the entries a table ends up with to all the entries that went into it: no key is lost or made up,
what stands under a key imports what one of its entries imported, and if all entries of a key import the same, it is
wanted as a type only if every one of them was. The relation is a preorder and goes through lists and through changes
of the keys, so it survives any nesting of merges (`condenses_merge`) and the step from aliases to modules
(`condenses_resolve`).

`text_lists`: the statements of a table list each of its entries exactly once.
-/
import Mathlib.Data.List.Nodup
import Mathlib.Data.List.Perm.Basic
import InterfacePages.Fragment.Basic
import InterfacePages.Proofs.OrderedMaps
import InterfacePages.Proofs.Texts

namespace InterfacePages

namespace ImportTable

/-- an entry of an import table -/
abbrev Entry := ImportKey × ImportSymbol

/-! ## Condensing -/

/-- all entries of a key import the same symbol -/
def Uniform (es : List Entry) (k : ImportKey) : Prop :=
  ∀ a b, (k, a) ∈ es → (k, b) ∈ es → a.imported = b.imported

/-- all entries of a key want a type only -/
def TypeOnly (es : List Entry) (k : ImportKey) : Prop := ∀ a, (k, a) ∈ es → a.isType = true

/-- the first entries are what is left of the second ones -/
structure Condenses (short long : List Entry) : Prop where
  kept : ∀ k b, (k, b) ∈ long → ∃ a, (k, a) ∈ short
  source : ∀ k a, (k, a) ∈ short → ∃ b, (k, b) ∈ long ∧ b.imported = a.imported
  mark : ∀ k, Uniform long k → (TypeOnly short k ↔ TypeOnly long k)

theorem Condenses.refl (es : List Entry) : Condenses es es where
  kept _ b h := ⟨b, h⟩
  source _ a h := ⟨a, h, rfl⟩
  mark _ _ := Iff.rfl

variable {short middle long : List Entry}

theorem Condenses.eq_nil (h : Condenses short long) : short = [] ↔ long = [] := by
  simp only [List.eq_nil_iff_forall_not_mem, Prod.forall]
  constructor
  · intro hs k b hb
    obtain ⟨a, ha⟩ := h.kept k b hb
    exact hs k a ha
  · intro hl k a ha
    obtain ⟨b, hb, _⟩ := h.source k a ha
    exact hl k b hb

theorem Condenses.uniform (h : Condenses short long) {k : ImportKey} (hu : Uniform long k) : Uniform short k := by
  intro a b ha hb
  obtain ⟨a', ha', hae⟩ := h.source k a ha
  obtain ⟨b', hb', hbe⟩ := h.source k b hb
  rw [← hae, ← hbe]
  exact hu a' b' ha' hb'

theorem Condenses.trans (h : Condenses short middle) (h' : Condenses middle long) : Condenses short long where
  kept k c hc := by
    obtain ⟨b, hb⟩ := h'.kept k c hc
    exact h.kept k b hb
  source k a ha := by
    obtain ⟨b, hb, hbe⟩ := h.source k a ha
    obtain ⟨c, hc, hce⟩ := h'.source k b hb
    exact ⟨c, hc, hce.trans hbe⟩
  mark k hu := (h.mark k (h'.uniform hu)).trans (h'.mark k hu)

theorem typeOnly_append {es es' : List Entry} {k : ImportKey} :
    TypeOnly (es ++ es') k ↔ TypeOnly es k ∧ TypeOnly es' k := by
  simp only [TypeOnly, List.mem_append, or_imp, forall_and]

theorem Condenses.append {short' long' : List Entry} (h : Condenses short long) (h' : Condenses short' long') :
    Condenses (short ++ short') (long ++ long') where
  kept k b hb := by
    rcases List.mem_append.1 hb with hb | hb
    · exact (h.kept k b hb).imp fun _ ha => List.mem_append_left _ ha
    · exact (h'.kept k b hb).imp fun _ ha => List.mem_append_right _ ha
  source k a ha := by
    rcases List.mem_append.1 ha with ha | ha
    · exact (h.source k a ha).imp fun _ hb => ⟨List.mem_append_left _ hb.1, hb.2⟩
    · exact (h'.source k a ha).imp fun _ hb => ⟨List.mem_append_right _ hb.1, hb.2⟩
  mark k hu := by
    have hl : Uniform long k := fun a b ha hb => hu a b (List.mem_append_left _ ha) (List.mem_append_left _ hb)
    have hr : Uniform long' k := fun a b ha hb => hu a b (List.mem_append_right _ ha) (List.mem_append_right _ hb)
    rw [typeOnly_append, typeOnly_append, h.mark k hl, h'.mark k hr]

theorem condenses_flatMap {ι : Type} {short long : ι → List Entry} {is : List ι}
    (h : ∀ i ∈ is, Condenses (short i) (long i)) : Condenses (is.flatMap short) (is.flatMap long) := by
  induction is with
  | nil => exact .refl _
  | cons i rest ih =>
    rw [List.flatMap_cons, List.flatMap_cons]
    exact (h i List.mem_cons_self).append (ih fun j hj => h j (List.mem_cons_of_mem _ hj))

/-- only which entries there are counts, not how often or in which order -/
theorem Condenses.of_mem_iff (h : ∀ e, e ∈ short ↔ e ∈ long) : Condenses short long where
  kept k b hb := ⟨b, (h (k, b)).2 hb⟩
  source k a ha := ⟨a, (h (k, a)).1 ha, rfl⟩
  mark k _ := by simp only [TypeOnly, h]

/-- changing keys may bring several of them together, but loses nothing either -/
theorem Condenses.map (h : Condenses short long) (change : ImportKey → ImportKey) :
    Condenses (short.map fun e => (change e.1, e.2)) (long.map fun e => (change e.1, e.2)) := by
  have hmem : ∀ (es : List Entry) k a,
      (k, a) ∈ es.map (fun e => (change e.1, e.2)) ↔ ∃ k', (k', a) ∈ es ∧ change k' = k := by
    intro es k a
    simp only [List.mem_map, Prod.mk.injEq, Prod.exists]
    exact ⟨fun ⟨k', a', hm, hk, ha⟩ => ⟨k', ha ▸ hm, hk⟩, fun ⟨k', hm, hk⟩ => ⟨k', a, hm, hk, rfl⟩⟩
  refine ⟨fun k b hb => ?_, fun k a ha => ?_, fun k hu => ?_⟩
  · obtain ⟨k', hb, hk⟩ := (hmem _ _ _).1 hb
    obtain ⟨a, ha⟩ := h.kept k' b hb
    exact ⟨a, (hmem _ _ _).2 ⟨k', ha, hk⟩⟩
  · obtain ⟨k', ha, hk⟩ := (hmem _ _ _).1 ha
    obtain ⟨b, hb, he⟩ := h.source k' a ha
    exact ⟨b, (hmem _ _ _).2 ⟨k', hb, hk⟩, he⟩
  · have hfibre : ∀ k', change k' = k → (TypeOnly short k' ↔ TypeOnly long k') := fun k' hk =>
      h.mark k' fun a b ha hb => hu a b ((hmem _ _ _).2 ⟨k', ha, hk⟩) ((hmem _ _ _).2 ⟨k', hb, hk⟩)
    refine ⟨fun ht b hb => ?_, fun ht a ha => ?_⟩
    · obtain ⟨k', hb, hk⟩ := (hmem _ _ _).1 hb
      exact (hfibre k' hk).1 (fun a ha => ht a ((hmem _ _ _).2 ⟨k', ha, hk⟩)) b hb
    · obtain ⟨k', ha, hk⟩ := (hmem _ _ _).1 ha
      exact (hfibre k' hk).2 (fun b hb => ht b ((hmem _ _ _).2 ⟨k', hb, hk⟩)) a ha

/-! ## Merging -/

theorem prefer_imported (earlier : Option ImportSymbol) (later : ImportSymbol) :
    (prefer earlier later).imported = later.imported ∨
      ∃ symbol, earlier = some symbol ∧ (prefer earlier later).imported = symbol.imported := by
  unfold prefer
  split
  · exact .inl rfl
  · next symbol =>
    split
    · exact .inl rfl
    · exact .inr ⟨symbol, rfl, rfl⟩

theorem prefer_isType {earlier later : ImportSymbol} (h : earlier.imported = later.imported) :
    (prefer (some earlier) later).isType = true ↔ earlier.isType = true ∧ later.isType = true := by
  unfold prefer
  cases he : earlier.isType <;> cases hl : later.isType <;> simp [h, he, hl]

theorem get?_absorb (table : ImportTable) (e : Entry) (k : ImportKey) :
    (absorb table e).get? k = if e.1 = k then some (prefer (table.get? e.1) e.2) else table.get? k :=
  OrderedMap.get?_upsert table e.1 k _

theorem typeOnly_entries {table : ImportTable} {k : ImportKey} {a : ImportSymbol} (h : table.get? k = some a) :
    TypeOnly table.entries k ↔ a.isType = true := by
  simp only [TypeOnly, OrderedMap.mem_entries, h, Option.some.injEq, forall_eq']

theorem condenses_absorb (table : ImportTable) (e : Entry) :
    Condenses (absorb table e).entries (table.entries ++ [e]) := by
  obtain ⟨k₀, v⟩ := e
  have hmem : ∀ k a, (k, a) ∈ table.entries ++ [(k₀, v)] ↔ table.get? k = some a ∨ (k = k₀ ∧ a = v) := by
    intro k a
    rw [List.mem_append, OrderedMap.mem_entries, List.mem_singleton, Prod.mk.injEq]
  have hnew : (absorb table (k₀, v)).get? k₀ = some (prefer (table.get? k₀) v) := by
    rw [get?_absorb, if_pos rfl]
  have hold : ∀ k, k ≠ k₀ → (absorb table (k₀, v)).get? k = table.get? k := fun k hk => by
    rw [get?_absorb, if_neg (Ne.symm hk)]
  refine ⟨fun k b hb => ?_, fun k a ha => ?_, fun k hu => ?_⟩
  · by_cases hk : k = k₀
    · subst hk
      exact ⟨_, OrderedMap.mem_entries.2 hnew⟩
    · rcases (hmem k b).1 hb with hb | hb
      · exact ⟨b, OrderedMap.mem_entries.2 ((hold k hk).trans hb)⟩
      · exact absurd hb.1 hk
  · rw [OrderedMap.mem_entries] at ha
    by_cases hk : k = k₀
    · subst hk
      rw [hnew, Option.some.injEq] at ha
      subst ha
      rcases prefer_imported (table.get? k) v with hp | ⟨symbol, hs, hp⟩
      · exact ⟨v, (hmem k v).2 (.inr ⟨rfl, rfl⟩), hp.symm⟩
      · exact ⟨symbol, (hmem k symbol).2 (.inl hs), hp.symm⟩
    · exact ⟨a, (hmem k a).2 (.inl (hold k hk ▸ ha)), rfl⟩
  · by_cases hk : k = k₀
    · subst hk
      rw [typeOnly_entries hnew, typeOnly_append]
      have hv : TypeOnly [(k, v)] k ↔ v.isType = true := by simp [TypeOnly]
      rw [hv]
      cases hs : table.get? k with
      | none => simp [TypeOnly, OrderedMap.mem_entries, hs, prefer]
      | some symbol =>
        have hsame := hu symbol v ((hmem k symbol).2 (.inl hs)) ((hmem k v).2 (.inr ⟨rfl, rfl⟩))
        rw [typeOnly_entries hs, prefer_isType hsame]
    · have hv : TypeOnly [(k₀, v)] k := fun a ha => absurd (Prod.mk.inj (List.mem_singleton.1 ha)).1 hk
      rw [typeOnly_append]
      simp only [TypeOnly, OrderedMap.mem_entries, hold k hk]
      exact ⟨fun h => ⟨h, hv⟩, And.left⟩

theorem condenses_absorbAll (table : ImportTable) (es : List Entry) :
    Condenses (absorbAll table es).entries (table.entries ++ es) := by
  induction es generalizing table with
  | nil =>
    rw [List.append_nil]
    exact .refl _
  | cons e rest ih =>
    have hstep := (condenses_absorb table e).append (.refl rest)
    rw [List.append_assoc] at hstep
    exact (ih (absorb table e)).trans hstep

theorem merge_eq_absorbAll (tables : List ImportTable) :
    merge tables = absorbAll OrderedMap.empty (tables.flatMap (·.entries)) := List.foldl_flatMap.symm

/-- **Merging tables keeps every entry's key, and what all its entries agree on.** -/
theorem condenses_merge (tables : List ImportTable) :
    Condenses (merge tables).entries (tables.flatMap (·.entries)) := by
  rw [merge_eq_absorbAll]
  exact condenses_absorbAll OrderedMap.empty _

theorem mem_keys_merge {tables : List ImportTable} {k : ImportKey} :
    k ∈ (merge tables).keys ↔ ∃ table ∈ tables, k ∈ table.keys := by
  have hc := condenses_merge tables
  simp only [OrderedMap.keys, List.mem_map, Prod.exists, exists_and_right, exists_eq_right]
  constructor
  · rintro ⟨a, ha⟩
    obtain ⟨b, hb, -⟩ := hc.source k a ha
    obtain ⟨table, ht, hb⟩ := List.mem_flatMap.1 hb
    exact ⟨table, ht, b, hb⟩
  · rintro ⟨table, ht, b, hb⟩
    exact hc.kept k b (List.mem_flatMap.2 ⟨table, ht, hb⟩)

theorem mem_keys_add {table : ImportTable} {module : Text} {imports : List Import} {k : ImportKey} :
    k ∈ (add table module imports).keys ↔ k ∈ table.keys ∨ ∃ i ∈ imports, ⟨module, i.used⟩ = k := by
  simp only [add, mem_keys_merge, ofImports, List.mem_cons, List.not_mem_nil, or_false, exists_eq_or_imp,
    exists_eq_left, OrderedMap.mem_keys_ofList, List.map_map, List.mem_map, Function.comp_apply]

/-! ## From aliases to modules -/

/-- a key under the module that its alias stands for -/
def moduleKey (r : Resolver) (k : ImportKey) : ImportKey := ⟨r.module k.module, k.used⟩

theorem mem_modules {table : ImportTable} {name : Text} :
    name ∈ table.modules ↔ ∃ e ∈ table.entries, e.1.module = name := by
  simp only [modules, OrderedMap.keys, Text.mem_distinct, List.map_map, List.mem_map, Function.comp_apply]

/-- **Going from aliases to modules keeps every entry's key, and what all entries brought together agree on.** -/
theorem condenses_resolve (r : Resolver) (table : ImportTable) :
    Condenses (r.resolve table).entries (table.entries.map fun e => (moduleKey r e.1, e.2)) := by
  refine (condenses_absorbAll OrderedMap.empty _).trans (.of_mem_iff fun e => ?_)
  change e ∈ (Text.sorted table.modules).flatMap (r.rekeyed table) ↔ _
  simp only [List.mem_flatMap, Text.mem_sorted, Resolver.rekeyed, List.mem_filterMap, List.mem_map]
  constructor
  · rintro ⟨name, -, entry, he, hk⟩
    split at hk
    · next hn =>
      cases hk
      exact ⟨entry, he, by rw [moduleKey, hn]⟩
    · cases hk
  · rintro ⟨entry, he, rfl⟩
    exact ⟨entry.1.module, mem_modules.2 ⟨entry, he, rfl⟩, entry, he, by simp [moduleKey]⟩

/-! ## Statements -/

/-- an import statement: a module and what is imported from it -/
abbrev Line := Text × List Import

def lineText (line : Line) : Text :=
  "import \x7b " ++ Text.joinWith ", " (line.2.map Import.text) ++ " \x7d from '" ++ line.1 ++ "';"

theorem lineText_ne_nil (line : Line) : lineText line ≠ [] := by
  unfold lineText
  exact List.append_ne_nil_of_right_ne_nil _ (by decide)

def entryOf (module : Text) (i : Import) : Entry := (⟨module, i.used⟩, ⟨i.imported, i.isType⟩)

def lineEntries (line : Line) : List Entry := line.2.map (entryOf line.1)

def lines (table : ImportTable) : List Line :=
  table.statementOrder.map fun module => (module, table.sortedImportsOf module)

theorem text_eq_lines (table : ImportTable) : table.text = Text.joinLines (table.lines.map lineText) := by
  unfold text lines
  rw [List.map_map]
  rfl

theorem map_entryOf_importsOf (table : ImportTable) (module : Text) :
    (table.importsOf module).map (entryOf module) = table.entries.filter fun e => decide (e.1.module = module) := by
  unfold importsOf
  induction table.entries with
  | nil => rfl
  | cons e rest ih =>
    obtain ⟨⟨m, used⟩, symbol⟩ := e
    by_cases h : m = module
    · simpa [h, entryOf] using ih
    · simpa [h] using ih

theorem mem_importsOf {table : ImportTable} {module : Text} {i : Import} :
    i ∈ table.importsOf module ↔ table.get? ⟨module, i.used⟩ = some i.symbol := by
  rw [← OrderedMap.mem_entries, importsOf, List.mem_filterMap]
  constructor
  · rintro ⟨⟨⟨_, used⟩, symbol⟩, he, hi⟩
    split at hi
    · next hm =>
      cases hi
      cases hm
      exact he
    · cases hi
  · exact fun he => ⟨_, he, by simp [Import.symbol]⟩

theorem nodup_used (table : ImportTable) (module : Text) : ((table.importsOf module).map (·.used)).Nodup := by
  have hkeys : ((table.importsOf module).map fun i => (entryOf module i).1).Nodup := by
    have h := table.nodup.sublist ((List.filter_sublist (p := fun e => decide (e.1.module = module))).map Prod.fst)
    rwa [← map_entryOf_importsOf, List.map_map] at h
  refine (List.nodup_map_iff_inj_on hkeys.of_map).2 fun i hi j hj hij => ?_
  exact List.inj_on_of_nodup_map hkeys hi hj (congrArg (ImportKey.mk module) hij)

theorem find?_used {is : List Import} (hd : (is.map (·.used)).Nodup) {i : Import} (hi : i ∈ is) :
    is.find? (·.used == i.used) = some i := by
  cases hf : is.find? (·.used == i.used) with
  | none => exact absurd (List.find?_eq_none.1 hf i hi) (by simp)
  | some j =>
    have hj := List.mem_of_find?_eq_some hf
    have hu := List.find?_some hf
    rw [beq_iff_eq] at hu
    rw [List.inj_on_of_nodup_map hd hj hi hu]

theorem sortedImportsOf_perm (table : ImportTable) (module : Text) :
    (table.sortedImportsOf module).Perm (table.importsOf module) := by
  have hd := nodup_used table module
  unfold sortedImportsOf
  generalize table.importsOf module = is at hd
  refine ((Text.sorted_perm _).filterMap _).trans (List.Perm.of_eq ?_)
  rw [List.filterMap_map]
  have hself : ∀ i ∈ is, ((fun used => is.find? (·.used == used)) ∘ fun i => i.used) i = some i :=
    fun i hi => find?_used hd hi
  rw [List.filterMap_congr hself, List.filterMap_some]

theorem statementOrder_perm (table : ImportTable) : table.statementOrder.Perm table.modules :=
  (List.filter_append_perm _ _).trans (Text.sorted_perm _)

theorem lines_eq_nil {table : ImportTable} : table.lines = [] ↔ table.entries = [] := by
  have hmodules : table.statementOrder = [] ↔ table.modules = [] := by
    rw [← List.perm_nil, (statementOrder_perm table).congr_left, List.perm_nil]
  rw [lines, List.map_eq_nil_iff, hmodules]
  simp only [List.eq_nil_iff_forall_not_mem, mem_modules, not_exists, not_and]
  exact ⟨fun h e he => h e.1.module e he rfl, fun h name e he => absurd he (h e)⟩

/-- **The statements of a table list each of its entries exactly once, one statement for each module.** -/
theorem lines_perm (table : ImportTable) :
    (table.lines.flatMap lineEntries).Perm table.entries ∧ (table.lines.map Prod.fst).Nodup := by
  have hmodules : table.modules.Nodup := Text.nodup_distinct _
  refine ⟨?_, ?_⟩
  · have hlines : (table.lines.flatMap lineEntries).Perm
        (table.modules.flatMap fun module => table.entries.filter fun e => decide (e.1.module = module)) := by
      unfold lines
      rw [List.flatMap_map]
      refine ((statementOrder_perm table).flatMap_right _).trans (List.Perm.flatMap_left _ fun module _ => ?_)
      rw [← map_entryOf_importsOf]
      exact (sortedImportsOf_perm table module).map _
    refine hlines.trans ((List.perm_ext_iff_of_nodup ?_ table.nodup.of_map).2 fun e => ?_)
    · refine List.nodup_flatMap.2 ⟨fun module _ => table.nodup.of_map.filter _, hmodules.imp fun hne => ?_⟩
      intro e he he'
      exact hne ((of_decide_eq_true (List.mem_filter.1 he).2).symm.trans (of_decide_eq_true (List.mem_filter.1 he').2))
    · simp only [List.mem_flatMap, List.mem_filter, decide_eq_true_eq]
      exact ⟨fun ⟨_, _, he, _⟩ => he, fun he => ⟨e.1.module, mem_modules.2 ⟨e, he, rfl⟩, he, rfl⟩⟩
  · unfold lines
    rw [List.map_map]
    exact ((statementOrder_perm table).map _).nodup_iff.2 (by simpa [Function.comp_def] using hmodules)

end ImportTable

end InterfacePages

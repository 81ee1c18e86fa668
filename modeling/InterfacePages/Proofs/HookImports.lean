/-
What a module of hooks imports.

On its way to a module an import is merged with the others of its hook, of its page and of the pages of the trees
around it, brought from its alias to a module and printed. Every one of these steps condenses, so the module imports
what the drafts of its path ask for and nothing else (`hooks_keep_imports`): no symbol is lost, none is wanted as a
type only unless all who ask for it want just the type, and the block of imports lists each symbol once.
-/
import InterfacePages.Node.Decode
import InterfacePages.Proofs.HookDrafts

namespace InterfacePages

namespace Hooks

open ImportTable (Condenses Uniform TypeOnly Line lineText lineEntries moduleKey)
open PageMap (Draft contentsAt importsAt)

/-- a draft of a path asks for a symbol, which a module with a resolver finds under a key -/
def Asked (r : Resolver) (ds : List Draft) (path : Text) (k : ImportKey) (wanted : ImportSymbol) : Prop :=
  ∃ body aliasKey, (path, body) ∈ ds ∧ body.imports.get? aliasKey = some wanted ∧ moduleKey r aliasKey = k

/-- the content of a module: its directive, its banner, the block of its imports, if it has any, and its hooks -/
def moduleText (lines : List Line) (hooks : Text) : Text :=
  let importBlock : List Text := if lines.isEmpty then [] else [Text.joinLines (lines.map lineText)]
  let blocks : List (List Text) := [["'use client';", banner], importBlock, [Text.trimBoth (· == 10) hooks]]
  Text.joinParagraphs blocks.flatten ++ "\n"

/-- what is left of the hooks stands in a module -/
theorem hooks_infix_moduleText (lines : List Line) {hooks u : Text} (h : u <:+: Text.trimBoth (· == 10) hooks) :
    u <:+: moduleText lines hooks := by
  refine h.trans ((Text.infix_joinWith _ ?_).trans (List.prefix_append _ _).isInfix)
  exact List.mem_flatten.2 ⟨[Text.trimBoth (· == 10) hooks], by simp, List.mem_singleton_self _⟩

/-- a module imports what the drafts of its path ask for -/
structure KeepsImports (r : Resolver) (ds : List Draft) (path : Text) (page : Fragment) : Prop where
  /-- whatever is asked for is there -/
  kept : ∀ k wanted, Asked r ds path k wanted → ∃ symbol, page.imports.get? k = some symbol
  /-- whatever is there was asked for -/
  source : ∀ k symbol, page.imports.get? k = some symbol → ∃ wanted, Asked r ds path k wanted ∧
    wanted.imported = symbol.imported
  /-- if all who ask under a key ask for the same, that is imported, as a type only if all want just the type -/
  mark : ∀ k symbol, page.imports.get? k = some symbol →
    (∀ a b, Asked r ds path k a → Asked r ds path k b → a.imported = b.imported) →
      (∀ a, Asked r ds path k a → symbol.imported = a.imported) ∧
      (symbol.isType = true ↔ ∀ a, Asked r ds path k a → a.isType = true)
  /-- the statements above the hooks of the path list each symbol exactly once, one statement for each module -/
  block : ∃ lines, page.content = moduleText lines (Text.joinParagraphs (contentsAt path ds)) ∧
    (lines.flatMap lineEntries).Perm page.imports.entries ∧ (lines.map Prod.fst).Nodup

theorem asked_iff {r : Resolver} {ds : List Draft} {path : Text} {k : ImportKey} {wanted : ImportSymbol} :
    Asked r ds path k wanted ↔ (k, wanted) ∈ (importsAt path ds).map fun e => (moduleKey r e.1, e.2) := by
  simp only [Asked, importsAt, List.mem_map, List.mem_flatMap, List.mem_filter, decide_eq_true_eq, Prod.mk.injEq,
    Prod.exists, OrderedMap.mem_entries]
  constructor
  · rintro ⟨body, key, hd, hg, hk⟩
    exact ⟨key, wanted, ⟨path, body, ⟨hd, rfl⟩, hg⟩, hk, rfl⟩
  · rintro ⟨key, symbol, ⟨p, body, ⟨hd, rfl⟩, hg⟩, hk, rfl⟩
    exact ⟨body, key, hd, hg, hk⟩

theorem module_content (r : Resolver) (body : Fragment) :
    (module r body).content = moduleText (r.resolve body.imports).lines body.content := by
  have hempty : (Text.joinLines ((r.resolve body.imports).lines.map lineText)).isEmpty =
      (r.resolve body.imports).lines.isEmpty := by
    cases (r.resolve body.imports).lines with
    | nil => rfl
    | cons line rest =>
      rw [List.map_cons, List.isEmpty_cons, List.isEmpty_eq_false_iff]
      exact Text.joinWith_ne_nil _ (ImportTable.lineText_ne_nil line) _
  unfold module moduleText
  simp only [ImportTable.text_eq_lines, hempty]

theorem condenses_module {r : Resolver} {ds : List Draft} {merged : PageMap} (hm : PageMap.Holds merged ds)
    {path : Text} {body : Fragment} (hb : merged.get? path = some body) :
    Condenses (r.resolve body.imports).entries ((importsAt path ds).map fun e => (moduleKey r e.1, e.2)) := by
  have hc := (hm.imports path).map (moduleKey r)
  rw [PageMap.importsAt_entries, hb] at hc
  exact (ImportTable.condenses_resolve r body.imports).trans hc

/-- a module that merging leaves has the hooks of its drafts, and no statements exactly if they import nothing -/
theorem module_text {r : Resolver} {ds : List Draft} {merged : PageMap} (hm : PageMap.Holds merged ds) {path : Text}
    {body : Fragment} (hb : merged.get? path = some body) :
    (module r body).content =
        moduleText (r.resolve body.imports).lines (Text.joinParagraphs (contentsAt path ds)) ∧
      ((r.resolve body.imports).lines = [] ↔ importsAt path ds = []) := by
  refine ⟨?_, ?_⟩
  · have hcontent := hm.contents path
    rw [PageMap.contentsAt_entries, hb] at hcontent
    rw [module_content, ← hcontent]
    rfl
  · rw [ImportTable.lines_eq_nil, (condenses_module hm hb).eq_nil, List.map_eq_nil_iff]

theorem keepsImports_module {r : Resolver} {ds : List Draft} {merged : PageMap} (hm : PageMap.Holds merged ds)
    {path : Text} {body : Fragment} (hb : merged.get? path = some body) :
    KeepsImports r ds path (module r body) := by
  have hc := condenses_module (r := r) hm hb
  change Condenses (module r body).imports.entries _ at hc
  refine ⟨fun k wanted hw => ?_, fun k symbol hs => ?_, fun k symbol hs hu => ?_, ?_⟩
  · obtain ⟨symbol, hs⟩ := hc.kept k wanted (asked_iff.1 hw)
    exact ⟨symbol, OrderedMap.mem_entries.1 hs⟩
  · obtain ⟨wanted, hw, he⟩ := hc.source k symbol (OrderedMap.mem_entries.2 hs)
    exact ⟨wanted, asked_iff.2 hw, he⟩
  · simp only [asked_iff] at hu ⊢
    obtain ⟨wanted, hw, he⟩ := hc.source k symbol (OrderedMap.mem_entries.2 hs)
    refine ⟨fun a ha => he.symm.trans (hu wanted a hw ha), ?_⟩
    rw [← ImportTable.typeOnly_entries hs]
    exact hc.mark k hu
  · exact ⟨_, (module_text hm hb).1, ImportTable.lines_perm _⟩

/-- **Modules of hooks keep their imports.** What a tree's hooks come to is made of drafts, each for a path that is a
page; and at every page, resolved for the page's depth, the imports are those that the drafts of its path ask for. -/
theorem hooks_keep_imports {options : Options} {root : Node} {m : PageMap} (h : pages options root = .ok m) :
    ∃ naming strategy links ds, Naming.make Role.all options.transformers = .ok naming ∧
      Strategy.ofLabel options.strategy = .ok strategy ∧
      (LinkTable.recordTree root).perform OrderedMap.empty = (.ok (), links) ∧
      drafts naming links (root.height + 1) [] root = .ok ds ∧
      (∀ d ∈ ds, ∃ page, m.get? d.1 = some page) ∧
      ∀ path page, m.get? path = some page →
        ∃ d, depth path = .ok d ∧ KeepsImports ⟨strategy, options.client, d⟩ ds path page := by
  obtain ⟨naming, strategy, links, ds, merged, hnaming, hstrategy, hlinks, hds, hm, hmodules⟩ := pages_eq_ok h
  obtain ⟨hkeys, hvalues⟩ := OrderedMap.tryMap_eq_ok hmodules
  refine ⟨naming, strategy, links, ds, hnaming, hstrategy, hlinks, hds, fun d hd => ?_, fun path page hp => ?_⟩
  · have hk : d.1 ∈ m.keys := by
      rw [hkeys]
      exact (hm.paths d.1).2 (List.mem_map_of_mem hd)
    exact OrderedMap.mem_keys.1 hk
  · obtain ⟨body, hb, hpage⟩ := hvalues path page hp
    obtain ⟨d, hd, hpage⟩ := except_bind_ok.1 hpage
    cases hpage
    exact ⟨d, hd, keepsImports_module hm hb⟩

/-- a tree with one account, on whose module the hooks of its program stand too -/
def vaultTree : Node :=
  Node.rootOf (.known .program (Node.fillSlots Kind.program.slots [
    (.name, .text "vault"),
    (.accounts, .tuple [.node (.known .account (Node.fillSlots Kind.account.slots [(.name, .text "vault")]))])]))

theorem vault_keeps_imports : ∃ m r ds page, pages ⟨"../client", "granular", []⟩ vaultTree = .ok m ∧
    m.get? "hooks/vault.ts" = some page ∧ KeepsImports r ds "hooks/vault.ts" page := by
  obtain ⟨m, hm⟩ := exists_of_isOk (x := pages ⟨"../client", "granular", []⟩ vaultTree) (by decide +kernel)
  have hpage :
      ((pages ⟨"../client", "granular", []⟩ vaultTree).toOption.bind (·.get? "hooks/vault.ts")).isSome = true := by
    decide +kernel
  rw [hm] at hpage
  obtain ⟨page, hpage⟩ := Option.isSome_iff_exists.1 hpage
  obtain ⟨naming, strategy, links, ds, -, -, -, -, -, hkeeps⟩ := hooks_keep_imports hm
  obtain ⟨d, -, hd⟩ := hkeeps "hooks/vault.ts" page hpage
  exact ⟨m, _, ds, page, hm, hpage, hd⟩

end Hooks

end InterfacePages

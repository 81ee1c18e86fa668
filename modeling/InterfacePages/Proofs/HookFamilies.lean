/-
How the indexes of a root and the hooks below it fit.

The indexes are made from the listings of the root, the hooks by visits of what its programs hold. For a tree whose
members fit their places both are about the same nodes: what a root puts on paths is, for each of its three families,
one index if the family has nodes and one body for each node, and nothing else (`families_match`). What an index exports
is said by its lines (`exportLine`), which stand in the module on its path.
-/
import Mathlib.Algebra.Order.Group.Multiset
import Mathlib.Tactic.Abel
import InterfacePages.Proofs.HookImports
import InterfacePages.Proofs.NameCharacters
import InterfacePages.Proofs.Texts
import InterfacePages.Proofs.TreeListings

namespace InterfacePages

namespace Hooks

open PageMap (Draft Holds contentsAt)

/-! ## Indexes -/

/-- the names under which nodes with some names are exported -/
def exportedNames (names : List Text) : List Text := Text.sorted (Text.distinct (names.map Name.camelCase))

/-- the line by which an index exports a module -/
def exportLine (name : Text) : Text := "export * from './" ++ name ++ "';"

/-- the lines by which an index exports modules -/
def exportLines (names : List Text) : Text := Text.joinLines (names.map exportLine)

/-- an index of some names has the lines that export them and imports nothing -/
def indexBody (names : List Text) : Fragment := ⟨exportLines names, OrderedMap.empty⟩

theorem lines_exportAll (names : List Text) :
    Fragment.lines (names.map fun name => Fragment.exportAll ("./" ++ name)) = indexBody names := by
  have himports : ImportTable.merge ((names.map fun name => Fragment.exportAll ("./" ++ name)).map (·.imports)) =
      OrderedMap.empty := by
    induction names with
    | nil => rfl
    | cons name rest ih => exact ih
  rw [Fragment.lines, Fragment.merge, himports, List.map_map]
  rfl

/-- the lines of an index can be read back -/
theorem splitOn_exportLines {names : List Text} (hne : names ≠ []) (h : ∀ name ∈ names, 10 ∉ name) :
    Text.splitOn 10 (exportLines names) = names.map exportLine := by
  refine Text.splitOn_joinWith (mt List.map_eq_nil_iff.1 hne) fun line hline hmem => ?_
  obtain ⟨t, ht, rfl⟩ := List.mem_map.1 hline
  rw [exportLine, List.mem_append, List.mem_append] at hmem
  exact hmem.elim (fun hmem => hmem.elim (by decide) (h t ht)) (by decide)

theorem head?_exportLines {names : List Text} (hne : names ≠ []) : (exportLines names).head? = some 101 := by
  obtain ⟨name, rest, rfl⟩ := List.exists_cons_of_ne_nil hne
  exact Text.head?_joinWith _ rfl _

theorem getLast?_exportLine (name : Text) : (exportLine name).getLast? = some 59 :=
  List.getLast?_append_of_ne_nil _ (by decide)

theorem getLast?_exportLines {names : List Text} (hne : names ≠ []) : (exportLines names).getLast? = some 59 := by
  refine Text.getLast?_joinWith _ (mt List.map_eq_nil_iff.1 hne) fun t ht => ?_
  obtain ⟨name, _, rfl⟩ := List.mem_map.1 ht
  exact getLast?_exportLine name

theorem any_same (found : List Text) (t : Text) :
    (found.map Value.text).any (Value.text t).same = found.contains t := by
  rw [List.any_map]
  simp only [Function.comp_def, Value.same]
  exact List.any_beq

theorem distinctValues_texts (found ts : List Text) : distinctValues (found.map .text) (ts.map .text) =
    (found ++ (Text.distinct ts).filter fun t => !found.contains t).map .text := by
  induction ts generalizing found with
  | nil => simp [distinctValues, Text.distinct]
  | cons t ts ih =>
    rw [List.map_cons, distinctValues, any_same, Text.distinct]
    by_cases ht : t ∈ found
    · have hrest : ∀ u, (!found.contains u && (u != t)) = !found.contains u := fun u => by
        by_cases hu : u = t
        · simp [hu, ht]
        · simp [hu]
      rw [if_pos (List.contains_iff_mem.2 ht), ih, List.filter_cons_of_neg (by simpa using ht), List.filter_filter]
      simp only [hrest]
    · have hrest : ∀ u, (!(found ++ [t]).contains u) = (!found.contains u && (u != t)) := fun u => by
        by_cases hu : u = t
        · simp [hu]
        · simp [hu]
      have hsnoc : found.map Value.text ++ [.text t] = (found ++ [t]).map .text := by
        rw [List.map_append, List.map_singleton]
      rw [if_neg (by simpa using ht), hsnoc, ih, List.filter_cons_of_pos (by simpa using ht), List.filter_filter,
        List.append_assoc, List.singleton_append]
      simp only [hrest]

theorem sortedNames_texts (ts : List Text) : sortedNames (ts.map .text) = .ok (Text.sorted ts) := by
  have hall : (ts.map Value.text).mapM Value.asText = .ok ts :=
    mapM_eq_ok.2 (List.forall₂_map_left_iff.2 (List.forall₂_same.2 fun _ _ => rfl))
  match ts with
  | [] => rfl
  | [t] => rfl
  | t :: u :: rest =>
    change (do return Text.sorted (← ((t :: u :: rest).map Value.text).mapM Value.asText)) = _
    rw [hall]
    rfl

theorem exportName_eq {n : Node} {name : Text} (h : n.nameText = .ok name) :
    exportName n = .ok (.text (Name.camelCase name)) := by
  obtain ⟨v, hv, hname⟩ := except_bind_ok.1 h
  cases v with
  | text t =>
    cases hname
    exact except_bind_ok.2 ⟨_, hv, rfl⟩
  | _ => cases hname

theorem mem_exportedNames {names : List Text} {t : Text} :
    t ∈ exportedNames names ↔ ∃ name ∈ names, Name.camelCase name = t := by
  rw [exportedNames, Text.mem_sorted, Text.mem_distinct, List.mem_map]

theorem exportedNames_eq_nil {names : List Text} : exportedNames names = [] ↔ names = [] := by
  rw [List.eq_nil_iff_forall_not_mem, List.eq_nil_iff_forall_not_mem]
  constructor
  · exact fun h name hname => h _ (mem_exportedNames.2 ⟨name, hname, rfl⟩)
  · intro h t ht
    obtain ⟨name, hname, _⟩ := mem_exportedNames.1 ht
    exact h name hname

/-- the index of nodes with names exports the names in camel case -/
theorem index_eq {nodes : List Node} {names : List Text} (h : nodes.mapM Node.nameText = .ok names) :
    index nodes = .ok (if nodes.isEmpty then none else some (indexBody (exportedNames names))) := by
  have hvalues : nodes.mapM exportName = .ok ((names.map Name.camelCase).map .text) := by
    rw [List.map_map]
    exact mapM_eq_ok.2 (List.forall₂_map_right_iff.2 ((mapM_eq_ok.1 h).imp fun n name hn => exportName_eq hn))
  have hsorted : sortedNames (distinctValues [] ((names.map Name.camelCase).map .text)) =
      .ok (exportedNames names) := by
    have hdistinct := distinctValues_texts [] (names.map Name.camelCase)
    simp only [List.map_nil, List.nil_append, List.contains_nil, Bool.not_false, List.filter_true] at hdistinct
    rw [hdistinct]
    exact sortedNames_texts _
  refine except_bind_ok.2 ⟨_, hvalues, except_bind_ok.2 ⟨_, hsorted, ?_⟩⟩
  rw [← lines_exportAll]
  cases mapM_eq_ok.1 h with
  | nil => rfl
  | cons hn hrest =>
    rw [List.isEmpty_eq_false_iff.2 (mt exportedNames_eq_nil.1 (List.cons_ne_nil _ _))]
    rfl

/-! ## Hooks of nodes -/

def memberKinds : List Kind := [.account, .instruction, .pda]

def folderOf : Kind → Text
  | .instruction => instructionFolder
  | .pda => addressFolder
  | _ => hooksFolder

/-- the drafts that a visit puts for the visited node itself -/
def ownDrafts (naming : Naming) (links : LinkTable) (above : NodeStack) (n : Node) : Except Fault (List Draft) :=
  match n.kind? with
  | some .account => do memberDrafts hooksFolder n (← account ⟨naming, links⟩ (n :: above).reverse n)
  | some .program => do memberDrafts hooksFolder n (← program ⟨naming, links⟩ n)
  | some .instruction => do memberDrafts instructionFolder n (← instruction ⟨naming, links⟩ n)
  | some .pda => do memberDrafts addressFolder n (← address ⟨naming, links⟩ n)
  | _ => .ok []

/-- a node below others with the draft of its hooks -/
structure Hook where
  above : NodeStack
  node : Node
  draft : Draft

/-- the visit of a node puts its draft -/
def Hook.Made (naming : Naming) (links : LinkTable) (h : Hook) : Prop :=
  ownDrafts naming links h.above h.node = .ok [h.draft]

variable {naming : Naming} {links : LinkTable} {depth : Nat} {above : NodeStack}

theorem memberDrafts_ok {folder : Text} {n : Node} {body : Fragment} {ds : List Draft}
    (h : memberDrafts folder n body = .ok ds) :
    ∃ name, n.nameText = .ok name ∧ ds = [(modulePath folder (Name.camelCase name), body)] := by
  obtain ⟨name, hname, h⟩ := except_bind_ok.1 h
  cases h
  exact ⟨name, hname, rfl⟩

/-- a node with hooks puts one draft, in the folder of its kind -/
theorem ownDrafts_ok {k : Kind} (hk : k ∈ Kind.program :: memberKinds) {n : Node} (hn : n.isKind k = true)
    {ds : List Draft} (h : ownDrafts naming links above n = .ok ds) :
    ∃ name body, n.nameText = .ok name ∧ ds = [(modulePath (folderOf k) (Name.camelCase name), body)] := by
  unfold ownDrafts at h
  rw [beq_iff_eq.1 hn] at h
  simp only [memberKinds, List.mem_cons, List.not_mem_nil, or_false] at hk
  rcases hk with rfl | rfl | rfl | rfl
  all_goals
    obtain ⟨body, _, h⟩ := except_bind_ok.1 h
    obtain ⟨name, hname, rfl⟩ := memberDrafts_ok h
    exact ⟨name, body, hname, rfl⟩

/-- the visit of a node inside a program puts what is the node's own -/
theorem drafts_member {k : Kind} (hk : k ∈ memberKinds) {n : Node} (hn : n.isKind k = true) :
    drafts naming links (depth + 1) above n = ownDrafts naming links above n := by
  unfold drafts ownDrafts
  rw [beq_iff_eq.1 hn]
  simp only [memberKinds, List.mem_cons, List.not_mem_nil, or_false] at hk
  rcases hk with rfl | rfl | rfl <;> rfl

theorem drafts_unknown {n : Node} {ds : List Draft} (hn : n.kind? = none)
    (h : drafts naming links depth above n = .ok ds) : ds = [] := by
  cases depth with
  | zero => cases h
  | succ depth =>
    unfold drafts at h
    rw [hn] at h
    cases h
    rfl

/-- the hooks that visits of some nodes below others make -/
structure Made (naming : Naming) (links : LinkTable) (above : NodeStack) (ns : List Node) (hooks : List Hook) : Prop where
  nodes : hooks.map Hook.node = ns
  above : ∀ h ∈ hooks, h.above = above
  made : ∀ h ∈ hooks, h.Made naming links

theorem made_of_drafts {k : Kind} (hk : k ∈ memberKinds) {ns : List Node} (hns : ∀ n ∈ ns, n.isKind k = true)
    {dss : List (List Draft)} (h : List.Forall₂ (fun n ds => drafts naming links depth above n = .ok ds) ns dss) :
    ∃ hooks, hooks.map Hook.draft = dss.flatten ∧ Made naming links above ns hooks := by
  induction h with
  | nil => exact ⟨[], rfl, rfl, fun _ h => absurd h List.not_mem_nil, fun _ h => absurd h List.not_mem_nil⟩
  | @cons n ds _ _ hds _ ih =>
    obtain ⟨hooks, hdrafts, hmade⟩ := ih fun m hm => hns m (List.mem_cons_of_mem _ hm)
    have hn := hns n List.mem_cons_self
    have hown : ownDrafts naming links above n = .ok ds := by
      cases depth with
      | zero => cases hds
      | succ depth => rwa [drafts_member hk hn] at hds
    obtain ⟨name, body, _, rfl⟩ := ownDrafts_ok (List.mem_cons_of_mem _ hk) hn hown
    refine ⟨⟨above, n, modulePath (folderOf k) (Name.camelCase name), body⟩ :: hooks, ?_, ?_, ?_, ?_⟩
    · rw [List.map_cons, hdrafts, List.flatten_cons, List.singleton_append]
    · rw [List.map_cons, hmade.nodes]
    · exact List.forall_mem_cons.2 ⟨rfl, hmade.above⟩
    · exact List.forall_mem_cons.2 ⟨hown, hmade.made⟩

/-- visits of a collection of a program make the hooks of the program's members -/
theorem made_of_collection {a : Attr} {k : Kind} (hk : k ∈ memberKinds) (ha : (a, k) ∈ Node.visitedCollections)
    {p : Node} (hp : p.isKind .program = true) {vs : List Value} (hvs : p.items a = .ok vs)
    (hfit : ∀ a k, (a, k) ∈ Node.visitedCollections → ∀ vs, p.items a = .ok vs → ∀ v ∈ vs, v.fits k = true)
    {dss : List (List Draft)} (h : eachNode (drafts naming links depth above) vs = .ok dss) :
    ∃ ms hooks, p.members a k = .ok ms ∧ hooks.map Hook.draft = dss.flatten ∧ Made naming links above ms hooks := by
  obtain ⟨ns, nss, hns, hnss, hflat⟩ := Node.eachNode_ofKind (hfit a k ha vs hvs) (fun _ _ => drafts_unknown) h
  obtain ⟨hooks, hdrafts, hmade⟩ := made_of_drafts hk (Node.isKind_of_ofKind hns) hnss
  refine ⟨ns, hooks, (Node.members_program hp).2 ?_, hdrafts.trans hflat.symm, hmade⟩
  exact except_bind_ok.2 ⟨vs, hvs, hns⟩

/-! ## Programs -/

/-- the hooks that the visit of a program makes -/
structure ProgramHooks where
  own : Hook
  pdas : List Hook
  accounts : List Hook
  instructions : List Hook

namespace ProgramHooks

/-- the drafts of a program, in the order of the visits -/
def drafts (hs : ProgramHooks) : List Draft := (hs.own :: (hs.pdas ++ hs.accounts ++ hs.instructions)).map Hook.draft

/-- some hooks are those of a program below other nodes -/
structure Of (naming : Naming) (links : LinkTable) (above : NodeStack) (p : Node) (hs : ProgramHooks) : Prop where
  own : Made naming links above [p] [hs.own]
  pdas : ∃ ns, p.pdas = .ok ns ∧ Made naming links (p :: above) ns hs.pdas
  accounts : ∃ ns, p.accounts = .ok ns ∧ Made naming links (p :: above) ns hs.accounts
  instructions : ∃ ns, p.leafInstructions = .ok ns ∧ Made naming links (p :: above) ns hs.instructions

end ProgramHooks

theorem programHooks_of_drafts {p : Node} (hp : p.isKind .program = true)
    (hfit : ∀ a k, (a, k) ∈ Node.visitedCollections → ∀ vs, p.items a = .ok vs → ∀ v ∈ vs, v.fits k = true)
    {ds : List Draft} (h : programDrafts naming links (drafts naming links depth (p :: above)) p = .ok ds) :
    ∃ hs : ProgramHooks, hs.drafts = ds ∧ hs.Of naming links above p := by
  obtain ⟨body, hbody, h⟩ := except_bind_ok.1 h
  obtain ⟨own, hown, h⟩ := except_bind_ok.1 h
  obtain ⟨vs, hvs, h⟩ := except_bind_ok.1 h
  obtain ⟨pdaDrafts, hpdas, h⟩ := except_bind_ok.1 h
  obtain ⟨vs', hvs', h⟩ := except_bind_ok.1 h
  obtain ⟨accountDrafts, haccounts, h⟩ := except_bind_ok.1 h
  obtain ⟨leaves, hleaves, h⟩ := except_bind_ok.1 h
  obtain ⟨instructionDrafts, hinstructions, h⟩ := except_bind_ok.1 h
  cases h
  have hself : ownDrafts naming links above p = .ok own := by
    unfold ownDrafts
    rw [beq_iff_eq.1 hp]
    exact except_bind_ok.2 ⟨body, hbody, hown⟩
  obtain ⟨name, _, rfl⟩ := memberDrafts_ok hown
  have hp₁ := made_of_collection (k := .pda) (by decide) (by decide) hp hvs hfit hpdas
  have ha₁ := made_of_collection (k := .account) (by decide) (by decide) hp hvs' hfit haccounts
  have hi₁ := made_of_drafts (by decide) (Node.isKind_of_leafInstructions hleaves) (mapM_eq_ok.1 hinstructions)
  obtain ⟨pdas, pdaHooks, hpdas, hpd, hpm⟩ := hp₁
  obtain ⟨accounts, accountHooks, haccounts, had, ham⟩ := ha₁
  obtain ⟨instructionHooks, hid, him⟩ := hi₁
  refine ⟨⟨⟨above, p, modulePath hooksFolder (Name.camelCase name), body⟩, pdaHooks, accountHooks, instructionHooks⟩,
    ?_, ?_, ?_, ?_, ?_⟩
  · simp only [ProgramHooks.drafts, List.map_cons, List.map_append, hpd, had, hid, List.flatten_append,
      List.append_assoc, List.singleton_append]
    rfl
  · exact ⟨rfl, List.forall_mem_singleton.2 rfl, List.forall_mem_singleton.2 hself⟩
  · exact ⟨pdas, hpdas, hpm⟩
  · exact ⟨accounts, haccounts, ham⟩
  · exact ⟨leaves, hleaves, him⟩

/-! ## Families -/

/-- nodes that share an index: the folder of their modules, their hooks, and the names that the index exports -/
structure Family where
  folder : Text
  hooks : List Hook
  names : List Text

namespace Family

variable (f : Family)

def nodes : List Node := f.hooks.map Hook.node

/-- the index of a family on its path, if the family has nodes -/
def barrel : List Draft := if f.nodes.isEmpty then [] else [(modulePath f.folder "index", indexBody f.names)]

def drafts : List Draft := f.barrel ++ f.hooks.map Hook.draft

/-- the paths of a family: that of its index, and one for each name -/
def paths : List Text := f.barrel.map Prod.fst ++ f.names.map (modulePath f.folder)

/-- the index of a family is about the hooks of its nodes, which visits of the programs of a root and in them make -/
structure Matches (naming : Naming) (links : LinkTable) (root : Node) (programs : List Node) : Prop where
  made : ∀ h ∈ f.hooks, h.Made naming links
  visited : ∀ h ∈ f.hooks, h.above = [root] ∨ ∃ p ∈ programs, h.above = [p, root]
  /-- there is an index exactly if there are nodes -/
  index : Hooks.index f.nodes = .ok (if f.nodes.isEmpty then none else some (indexBody f.names))
  /-- the lines of the index can be read back, and there is one for each name -/
  lines : f.nodes ≠ [] → Text.splitOn 10 (exportLines f.names) = f.names.map exportLine
  increasing : f.names.Pairwise fun a b => Text.lt a b = true
  /-- the modules that the index exports are those that have hooks -/
  modules : ∀ path, path ∈ f.names.map (modulePath f.folder) ↔ path ∈ f.hooks.map (·.draft.1)

end Family

variable {root : Node} {programs : List Node}

theorem matches_of_made {folder : Text} {hooks : List Hook} (hmade : ∀ h ∈ hooks, h.Made naming links)
    (hkind : ∀ h ∈ hooks, ∃ k ∈ Kind.program :: memberKinds, folderOf k = folder ∧ h.node.isKind k = true)
    (hvisited : ∀ h ∈ hooks, h.above = [root] ∨ ∃ p ∈ programs, h.above = [p, root]) :
    ∃ names, Family.Matches ⟨folder, hooks, names⟩ naming links root programs := by
  have hname : ∀ h ∈ hooks, ∃ name, h.node.nameText = .ok name ∧
      h.draft.1 = modulePath folder (Name.camelCase name) := fun h hh => by
    obtain ⟨k, hk, hfolder, hn⟩ := hkind h hh
    obtain ⟨name, body, hname, hdraft⟩ := ownDrafts_ok hk hn (hmade h hh)
    exact ⟨name, hname, by rw [(List.cons.inj hdraft).1, hfolder]⟩
  obtain ⟨names, hnames⟩ := exists_mapM_ok fun h hh => (hname h hh).imp fun _ hn => hn.1
  have hpairs := mapM_eq_ok.1 hnames
  have hnodes : (hooks.map Hook.node).mapM Node.nameText = .ok names :=
    mapM_eq_ok.2 (List.forall₂_map_left_iff.2 hpairs)
  -- the names are those of the nodes, so the paths are those of the hooks
  have hpath : ∀ {h name}, h ∈ hooks → h.node.nameText = .ok name →
      h.draft.1 = modulePath folder (Name.camelCase name) := fun {h name} hh hn => by
    obtain ⟨name', hn', hd⟩ := hname h hh
    rw [hn] at hn'
    cases hn'
    exact hd
  have hlines : hooks.map Hook.node ≠ [] →
      Text.splitOn 10 (exportLines (exportedNames names)) = (exportedNames names).map exportLine := fun hne => by
    refine splitOn_exportLines (fun hnone => hne ?_) fun t ht hfeed => ?_
    · rw [exportedNames_eq_nil] at hnone
      rw [hnone] at hpairs
      cases hpairs
      rfl
    · obtain ⟨name, _, rfl⟩ := mem_exportedNames.1 ht
      exact absurd (Name.solid_camelCase name 10 hfeed) (by decide)
  refine ⟨exportedNames names, hmade, hvisited, index_eq hnodes, hlines, Text.sorted_distinct_increasing _,
    fun path => ?_⟩
  simp only [List.mem_map, mem_exportedNames, exists_exists_and_eq_and]
  constructor
  · rintro ⟨name, hmem, rfl⟩
    obtain ⟨h, hh, hn⟩ := exists_of_forall₂ hpairs hmem
    exact ⟨h, hh, hpath hh hn⟩
  · rintro ⟨h, hh, rfl⟩
    obtain ⟨name, hmem, hn⟩ := exists_of_forall₂ hpairs.flip hh
    exact ⟨name, hmem, (hpath hh hn).symm⟩

theorem Family.barrel_of_nodes {f : Family} (hne : f.nodes ≠ []) :
    f.barrel = [(modulePath f.folder "index", indexBody f.names)] := by
  rw [Family.barrel, List.isEmpty_eq_false_iff.2 hne]
  rfl

theorem Family.Matches.indexDraft {f : Family} (h : f.Matches naming links root programs) :
    indexDraft f.folder f.nodes = .ok f.barrel := by
  refine except_bind_ok.2 ⟨_, h.index, ?_⟩
  unfold Family.barrel
  cases f.nodes.isEmpty <;> rfl

theorem Family.Matches.mem_paths {f : Family} (h : f.Matches naming links root programs) (path : Text) :
    path ∈ f.drafts.map Prod.fst ↔ path ∈ f.paths := by
  have hmodules := h.modules path
  simp only [Family.drafts, Family.paths, List.map_append, List.mem_append, List.map_map, Function.comp_def] at hmodules ⊢
  rw [hmodules]

/-! ## Roots -/

/-- the drafts of programs, by family -/
theorem programHooks_perm (hss : List ProgramHooks) : (hss.map ProgramHooks.drafts).flatten.Perm
    ((hss.flatMap ProgramHooks.accounts ++ hss.map ProgramHooks.own).map Hook.draft ++
      (hss.flatMap ProgramHooks.instructions).map Hook.draft ++ (hss.flatMap ProgramHooks.pdas).map Hook.draft) := by
  induction hss with
  | nil => exact .refl _
  | cons hs rest ih =>
    rw [← Multiset.coe_eq_coe] at ih ⊢
    simp only [List.map_cons, List.flatten_cons, List.flatMap_cons, List.map_append, ProgramHooks.drafts,
      ← Multiset.coe_add, ← Multiset.cons_coe, ← Multiset.singleton_add] at ih ⊢
    rw [ih]
    abel

/-- the nodes of which programs make hooks, as the programs list them -/
theorem listed_nodes {list : Node → Except Fault (List Node)} {part : ProgramHooks → List Hook} {programs : List Node}
    {hss : List ProgramHooks}
    (h : List.Forall₂ (fun p hs => ∃ ns, list p = .ok ns ∧ Made naming links [p, root] ns (part hs)) programs hss) :
    List.Forall₂ (fun p ns => list p = .ok ns) programs (hss.map fun hs => (part hs).map Hook.node) := by
  refine List.forall₂_map_right_iff.2 (h.imp ?_)
  rintro p hs ⟨ns, hns, hmade⟩
  rw [hmade.nodes]
  exact hns

theorem nodes_flatMap (part : ProgramHooks → List Hook) (hss : List ProgramHooks) :
    (hss.flatMap part).map Hook.node = (hss.map fun hs => (part hs).map Hook.node).flatten := by
  rw [List.map_flatMap, List.flatMap_def]

/-- the hooks of the members that programs hold are made below the programs -/
theorem made_of_programs {list : Node → Except Fault (List Node)} {part : ProgramHooks → List Hook}
    {programs : List Node} {hss : List ProgramHooks}
    (h : List.Forall₂ (fun p hs => ∃ ns, list p = .ok ns ∧ Made naming links [p, root] ns (part hs)) programs hss) :
    ∀ h ∈ hss.flatMap part, h.Made naming links ∧ ∃ p ∈ programs, h.above = [p, root] := by
  intro hook hhook
  obtain ⟨hs, hhs, hhook⟩ := List.mem_flatMap.1 hhook
  obtain ⟨p, hp, ns, _, hmade⟩ := exists_of_forall₂ h hhs
  exact ⟨hmade.made hook hhook, p, hp, hmade.above hook hhook⟩

/-- the three families of a root -/
structure Families where
  hooks : Family
  instructions : Family
  addresses : Family

namespace Families

variable (fs : Families)

def all : List Family := [fs.hooks, fs.instructions, fs.addresses]

/-- the families have the nodes that a root lists: accounts and programs, instructions without sub-instructions, and
addresses -/
structure Of (root : Node) (programs : List Node) : Prop where
  listed : root.programs = .ok programs
  hooks : fs.hooks.folder = hooksFolder ∧ ∃ accounts, root.accounts = .ok accounts ∧
    fs.hooks.nodes = accounts ++ programs
  instructions : fs.instructions.folder = instructionFolder ∧ root.leafInstructions = .ok fs.instructions.nodes
  addresses : fs.addresses.folder = addressFolder ∧ root.pdas = .ok fs.addresses.nodes

end Families

/-- the hooks that the visits of some programs make -/
structure RootHooks (naming : Naming) (links : LinkTable) (root : Node) (programs : List Node)
    (hss : List ProgramHooks) : Prop where
  fit : root.isKind .root = true
  listed : root.programs = .ok programs
  each : List.Forall₂ (ProgramHooks.Of naming links [root]) programs hss

namespace RootHooks

variable {hss : List ProgramHooks} (h : RootHooks naming links root programs hss)

include h

theorem accounts : root.accounts = .ok ((hss.flatMap ProgramHooks.accounts).map Hook.node) := by
  rw [nodes_flatMap]
  exact Node.members_of_programs h.listed (listed_nodes (h.each.imp fun _ _ hof => hof.accounts))

theorem pdas : root.pdas = .ok ((hss.flatMap ProgramHooks.pdas).map Hook.node) := by
  rw [nodes_flatMap]
  exact Node.members_of_programs h.listed (listed_nodes (h.each.imp fun _ _ hof => hof.pdas))

theorem instructions : root.leafInstructions = .ok ((hss.flatMap ProgramHooks.instructions).map Hook.node) := by
  rw [nodes_flatMap]
  refine (Node.leafInstructions_ok (Node.not_instruction h.fit (by decide))).2 ⟨programs, _, h.listed, ?_, rfl⟩
  exact listed_nodes (h.each.imp fun _ _ hof => hof.instructions)

theorem own_nodes : (hss.map ProgramHooks.own).map Hook.node = programs := by
  have heach : List.Forall₂ Eq programs ((hss.map ProgramHooks.own).map Hook.node) := by
    rw [List.map_map]
    refine List.forall₂_map_right_iff.2 (h.each.imp fun p hs hof => ?_)
    exact (List.cons.inj hof.own.nodes).1.symm
  rw [List.forall₂_eq_eq_eq] at heach
  exact heach.symm

theorem own : ∀ hook ∈ hss.map ProgramHooks.own, hook.Made naming links ∧ hook.above = [root] := by
  intro hook hhook
  obtain ⟨hs, hhs, rfl⟩ := List.mem_map.1 hhook
  obtain ⟨p, _, hof⟩ := exists_of_forall₂ h.each hhs
  exact ⟨hof.own.made _ (List.mem_singleton_self _), hof.own.above _ (List.mem_singleton_self _)⟩

/-- the members of one kind that programs hold make a family -/
theorem members_match {k : Kind} (hk : k ∈ memberKinds) {part : ProgramHooks → List Hook}
    {list : Node → Except Fault (List Node)}
    (hpart : ∀ p hs, ProgramHooks.Of naming links [root] p hs →
      ∃ ns, list p = .ok ns ∧ Made naming links [p, root] ns (part hs))
    (hkind : ∀ n ∈ (hss.flatMap part).map Hook.node, n.isKind k = true) :
    ∃ names, Family.Matches ⟨folderOf k, hss.flatMap part, names⟩ naming links root programs := by
  have hmade := made_of_programs (h.each.imp hpart)
  refine matches_of_made (fun hook hh => (hmade hook hh).1) (fun hook hh => ?_) fun hook hh => .inr (hmade hook hh).2
  exact ⟨k, List.mem_cons_of_mem _ hk, rfl, hkind _ (List.mem_map_of_mem hh)⟩

/-- accounts and programs make a family together -/
theorem hooks_match : ∃ names, Family.Matches
    ⟨hooksFolder, hss.flatMap ProgramHooks.accounts ++ hss.map ProgramHooks.own, names⟩ naming links root programs := by
  have hmade := made_of_programs (h.each.imp fun _ _ hof => hof.accounts)
  refine matches_of_made (fun hook hh => ?_) (fun hook hh => ?_) fun hook hh => ?_
  · exact (List.mem_append.1 hh).elim (fun hh => (hmade hook hh).1) fun hh => (h.own hook hh).1
  · rcases List.mem_append.1 hh with hh | hh
    · exact ⟨.account, by decide, rfl, Node.isKind_of_members h.accounts _ (List.mem_map_of_mem hh)⟩
    · refine ⟨.program, by decide, rfl, Node.isKind_of_programs h.listed _ ?_⟩
      rw [← h.own_nodes]
      exact List.mem_map_of_mem hh
  · exact (List.mem_append.1 hh).elim (fun hh => .inr (hmade hook hh).2) fun hh => .inl (h.own hook hh).2

/-- the families of the root -/
theorem families : ∃ fs : Families, fs.Of root programs ∧ (∀ f ∈ fs.all, f.Matches naming links root programs) ∧
    fs.hooks.hooks = hss.flatMap ProgramHooks.accounts ++ hss.map ProgramHooks.own ∧
    fs.instructions.hooks = hss.flatMap ProgramHooks.instructions ∧
    fs.addresses.hooks = hss.flatMap ProgramHooks.pdas := by
  obtain ⟨hookNames, hhooks⟩ := h.hooks_match
  obtain ⟨instructionNames, hinstructions⟩ := h.members_match (k := .instruction) (by decide)
    (fun _ _ hof => hof.instructions) (Node.isKind_of_leafInstructions h.instructions)
  obtain ⟨addressNames, haddresses⟩ := h.members_match (k := .pda) (by decide) (fun _ _ hof => hof.pdas)
    (Node.isKind_of_members h.pdas)
  refine ⟨⟨⟨hooksFolder, _, hookNames⟩, ⟨instructionFolder, _, instructionNames⟩,
    ⟨addressFolder, _, addressNames⟩⟩, ⟨h.listed, ?_, ?_, ?_⟩, ?_, rfl, rfl, rfl⟩
  · refine ⟨rfl, _, h.accounts, ?_⟩
    simp only [Family.nodes, List.map_append, h.own_nodes]
  · exact ⟨rfl, h.instructions⟩
  · exact ⟨rfl, h.pdas⟩
  · simp only [Families.all, List.forall_mem_cons]
    exact ⟨hhooks, hinstructions, haddresses, fun f hf => absurd hf List.not_mem_nil⟩

end RootHooks

/-- the drafts of a root, by family -/
theorem families_of_drafts (hroot : root.isKind .root = true) (hfit : root.membersFit = true) {ds : List Draft}
    (h : drafts naming links (root.height + 1) [] root = .ok ds) :
    ∃ programs, ∃ fs : Families, fs.Of root programs ∧ (∀ f ∈ fs.all, f.Matches naming links root programs) ∧
      ds.Perm (fs.all.flatMap Family.drafts) := by
  obtain ⟨depth, hdepth⟩ := Nat.exists_eq_add_one.2 root.height_pos
  unfold drafts at h
  rw [beq_iff_eq.1 hroot, hdepth] at h
  obtain ⟨own, hown, h⟩ := except_bind_ok.1 h
  obtain ⟨programs, hprograms, h⟩ := except_bind_ok.1 h
  obtain ⟨dss, hdss, h⟩ := except_bind_ok.1 h
  cases h
  obtain ⟨hss, rfl, hhss⟩ := exists_forall₂ (S := ProgramHooks.Of naming links [root]) (mapM_eq_ok.1 hdss)
    fun p hp ds hds => by
      have hkind := Node.isKind_of_programs hprograms p hp
      unfold drafts at hds
      rw [beq_iff_eq.1 hkind] at hds
      exact programHooks_of_drafts hkind (fun a k ha vs => Node.fits_of_membersFit hfit hprograms hp ha) hds
  obtain ⟨fs, hof, hmatches, hh, hi, ha⟩ := RootHooks.families ⟨hroot, hprograms, hhss⟩
  refine ⟨programs, fs, hof, hmatches, ?_⟩
  have hindexes : indexDrafts root = .ok [fs.hooks.barrel, fs.instructions.barrel, fs.addresses.barrel] := by
    obtain ⟨hfolder, accounts, haccounts, hnodes⟩ := hof.hooks
    have hhooks := (hmatches fs.hooks (by simp [Families.all])).indexDraft
    have hinstructions := (hmatches fs.instructions (by simp [Families.all])).indexDraft
    have haddresses := (hmatches fs.addresses (by simp [Families.all])).indexDraft
    rw [hfolder, hnodes] at hhooks
    rw [hof.instructions.1] at hinstructions
    rw [hof.addresses.1] at haddresses
    refine except_bind_ok.2 ⟨_, hprograms, except_bind_ok.2 ⟨_, haccounts, except_bind_ok.2 ⟨_, hhooks, ?_⟩⟩⟩
    refine except_bind_ok.2 ⟨_, hof.instructions.2, except_bind_ok.2 ⟨_, hinstructions, ?_⟩⟩
    exact except_bind_ok.2 ⟨_, hof.addresses.2, except_bind_ok.2 ⟨_, haddresses, rfl⟩⟩
  rw [hindexes] at hown
  cases hown
  have hperm := programHooks_perm hss
  rw [← hh, ← hi, ← ha] at hperm
  rw [← Multiset.coe_eq_coe] at hperm ⊢
  simp only [List.flatten_append, List.flatten_cons, List.flatten_nil, List.append_nil, Families.all, List.flatMap_cons,
    List.flatMap_nil, Family.drafts, ← Multiset.coe_add] at hperm ⊢
  rw [hperm]
  abel

/-- an index stands in the module on its path as a block of lines that export its names -/
theorem Family.Matches.block {f : Family} (h : f.Matches naming links root programs) (hne : f.nodes ≠ [])
    {ds : List Draft} (hd : ∀ d ∈ f.drafts, d ∈ ds) (lines : List ImportTable.Line) :
    ∃ block, block <:+: moduleText lines (Text.joinParagraphs (contentsAt (modulePath f.folder "index") ds)) ∧
      Text.splitOn 10 block = f.names.map exportLine := by
  have hlines := h.lines hne
  have hnames : f.names ≠ [] := by
    intro hnone
    rw [hnone] at hlines
    cases hlines
  have hbarrel : (modulePath f.folder "index", indexBody f.names) ∈ f.drafts := by
    rw [Family.drafts, Family.barrel_of_nodes hne]
    exact List.mem_cons_self
  have hcontent : exportLines f.names ∈ contentsAt (modulePath f.folder "index") ds :=
    List.mem_map.2 ⟨_, List.mem_filter.2 ⟨hd _ hbarrel, decide_eq_true rfl⟩, rfl⟩
  refine ⟨exportLines f.names, hooks_infix_moduleText _ ?_, hlines⟩
  exact Text.infix_trimBoth (Text.infix_joinWith _ hcontent) (head?_exportLines hnames) rfl
    (getLast?_exportLines hnames) rfl

/-- **Indexes and modules match.** What a root puts on paths is, for each of its families, an index if the family has
nodes and the hooks of each node; each index exports the modules that have hooks of its family, in strictly increasing
order and by lines that stand in the module on its path; and the paths of the families are all there are. -/
theorem families_match {options : Options} {root : Node} (hroot : root.isKind .root = true)
    (hfit : root.membersFit = true) {m : PageMap} (h : pages options root = .ok m) :
    ∃ naming links ds programs, ∃ fs : Families, Naming.make Role.all options.transformers = .ok naming ∧
      (LinkTable.recordTree root).perform OrderedMap.empty = (.ok (), links) ∧
      drafts naming links (root.height + 1) [] root = .ok ds ∧ fs.Of root programs ∧
      (∀ f ∈ fs.all, f.Matches naming links root programs) ∧ ds.Perm (fs.all.flatMap Family.drafts) ∧
      (∀ path, path ∈ m.keys ↔ ∃ f ∈ fs.all, path ∈ f.paths) ∧
      (∀ path page, m.get? path = some page →
        ∃ lines, page.content = moduleText lines (Text.joinParagraphs (contentsAt path ds))) ∧
      ∀ f ∈ fs.all, f.nodes ≠ [] → ∃ page block, m.get? (modulePath f.folder "index") = some page ∧
        block <:+: page.content ∧ Text.splitOn 10 block = f.names.map exportLine := by
  obtain ⟨naming, strategy, links, ds, merged, hnaming, _, hlinks, hds, hheld, hmodules⟩ := pages_eq_ok h
  obtain ⟨programs, fs, hof, hmatches, hperm⟩ := families_of_drafts hroot hfit hds
  obtain ⟨hkeys, hvalues⟩ := OrderedMap.tryMap_eq_ok hmodules
  have hpaths : ∀ path, path ∈ m.keys ↔ ∃ f ∈ fs.all, path ∈ f.paths := fun path => by
    rw [hkeys]
    refine (hheld.paths path).trans ((hperm.map Prod.fst).mem_iff.trans ?_)
    rw [List.map_flatMap, List.mem_flatMap]
    exact exists_congr fun f => and_congr_right fun hf => (hmatches f hf).mem_paths path
  have htexts : ∀ path page, m.get? path = some page →
      ∃ lines, page.content = moduleText lines (Text.joinParagraphs (contentsAt path ds)) := fun path page hp => by
    obtain ⟨body, hb, hpage⟩ := hvalues path page hp
    obtain ⟨d, _, hpage⟩ := except_bind_ok.1 hpage
    cases hpage
    obtain ⟨lines, hcontent, -⟩ := (keepsImports_module (r := ⟨strategy, options.client, d⟩) hheld hb).block
    exact ⟨lines, hcontent⟩
  refine ⟨naming, links, ds, programs, fs, hnaming, hlinks, hds, hof, hmatches, hperm, hpaths, htexts,
    fun f hf hne => ?_⟩
  have hindex : modulePath f.folder "index" ∈ f.paths := by
    rw [Family.paths, Family.barrel_of_nodes hne]
    exact List.mem_cons_self
  obtain ⟨page, hpage⟩ := OrderedMap.mem_keys.1 ((hpaths _).2 ⟨f, hf, hindex⟩)
  obtain ⟨lines, hcontent⟩ := htexts _ page hpage
  have hdrafts : ∀ d ∈ f.drafts, d ∈ ds := fun d hd => hperm.mem_iff.2 (List.mem_flatMap.2 ⟨f, hf, hd⟩)
  obtain ⟨block, hblock, hlines⟩ := (hmatches f hf).block hne hdrafts lines
  exact ⟨page, block, hpage, hcontent ▸ hblock, hlines⟩

theorem escrow_families_match : Node.escrowTree.isKind .root = true ∧ Node.escrowTree.membersFit = true ∧
    ∃ m naming links programs, ∃ (fs : Families) (ds : List Draft),
      pages ⟨"../client", "granular", []⟩ Node.escrowTree = .ok m ∧
      fs.Of Node.escrowTree programs ∧ (∀ f ∈ fs.all, f.Matches naming links Node.escrowTree programs) ∧
      ds.Perm (fs.all.flatMap Family.drafts) ∧ (∀ path, path ∈ m.keys ↔ ∃ f ∈ fs.all, path ∈ f.paths) ∧
      ∀ f ∈ fs.all, f.nodes ≠ [] → ∃ page block, m.get? (modulePath f.folder "index") = some page ∧
        block <:+: page.content ∧ Text.splitOn 10 block = f.names.map exportLine := by
  have hroot : Node.escrowTree.isKind .root = true := by decide
  have hfit : Node.escrowTree.membersFit = true := by decide +kernel
  obtain ⟨m, hm⟩ := exists_of_isOk (x := pages ⟨"../client", "granular", []⟩ Node.escrowTree) (by decide +kernel)
  obtain ⟨naming, links, ds, programs, fs, -, -, -, hof, hmatches, hperm, hkeys, -, hlines⟩ :=
    families_match hroot hfit hm
  exact ⟨hroot, hfit, m, naming, links, programs, fs, ds, hm, hof, hmatches, hperm, hkeys, hlines⟩

end Hooks

end InterfacePages

/-
Which pages the documentation of a tree has, and what its overviews link to.

An overview is the rendering of an outline (`overview_eq`), in which every link is kept as such. The pages come from
visits of what programs hold, the rows of an outline from the listings of the program; for a tree whose members fit
their places both are the same nodes, so the links of all overviews together lead to every page but the one that they
are on, and nowhere else (`pages_linked`).
-/
import InterfacePages.Proofs.PagePaths
import InterfacePages.Proofs.TreeListings

namespace InterfacePages

namespace Docs

open Node (Listing)
open PageMap (Draft Holds contentsAt)

/-! ## Outlines -/

/-- a link to a page -/
structure PageLink where
  title : Text
  url : Text

def PageLink.text (link : PageLink) : Text := Markdown.link link.title link.url

def pagePath (folder : Text) (n : Node) : Except Fault Text := do return memberPath folder (← n.nameText)

def pageLink (folder : Text) (n : Node) : Except Fault PageLink := do
  return ⟨Name.pascalCase (← n.nameText), ← pagePath folder n⟩

/-- the section of an overview on a family of members: a table with a link and a remark in each row -/
structure FamilyTable where
  title : Text
  headings : List Text
  rows : List (PageLink × Text)

/-- a section as it is written, if there are rows -/
def FamilyTable.fragments (t : FamilyTable) : List Fragment :=
  if t.rows.isEmpty then []
  else [titledText t.title (Markdown.table t.headings (t.rows.map fun row => [row.1.text, row.2]))]

def familyTable (title : Text) (headings : List Text) (folder : Text) (remark : Node → Except Fault Text)
    (members : List Node) : Except Fault FamilyTable := do
  return ⟨title, headings, ← members.mapM fun n => do return (← pageLink folder n, ← remark n)⟩

def errorLink : PageLink := ⟨"Errors", "errors.md"⟩

/-- an overview with its links -/
structure Outline where
  opening : List Fragment
  families : List FamilyTable
  errors : Nat

/-- what is said about some errors, if there are any -/
def errorNote (count : Nat) : List Fragment :=
  if count = 0 then []
  else [titledText "Errors" ("This program defines " ++ plural count "error" ++ ". See " ++ errorLink.text ++ ".")]

namespace Outline

def fragment (o : Outline) : Fragment :=
  Fragment.paragraphs (o.opening ++ o.families.flatMap FamilyTable.fragments ++ errorNote o.errors)

def links (o : Outline) : List PageLink :=
  (o.families.flatMap fun t => t.rows.map Prod.fst) ++ if o.errors = 0 then [] else [errorLink]

/-- where the links of an overview lead -/
def urls (o : Outline) : List Text := o.links.map PageLink.url

end Outline

def accountRemark (scope : Scope) (path : List Node) (n : Node) : Except Fault Text := do
  sizeText scope (path ++ [n]) (← n.get .data)

def instructionRemark (n : Node) : Except Fault Text := do
  let docs ← oneLine n
  return if docs.isEmpty then "-" else docs

def addressRemark (n : Node) : Except Fault Text := do
  let seeds ← n.get .seeds
  if seeds.isGiven then return plural (← seeds.length) "seed" else return "None"

/-- what the row of a defined type says -/
def typeRemark (n : Node) : Except Fault Text := do typeKind (← n.get .type)

/-- the outline of the overview of a program at the end of a path -/
def outline (scope : Scope) (path : List Node) (n : Node) : Except Fault Outline := do
  let path := if path.isEmpty then [n] else path
  let accounts ← familyTable "Accounts" ["Account", "Size"] "accounts" (accountRemark scope path) (← n.accounts)
  let instructions ←
    familyTable "Instructions" ["Instruction", "Description"] "instructions" instructionRemark (← n.leafInstructions)
  let pdas ← familyTable "PDAs" ["PDA", "Seeds"] "pdas" addressRemark (← n.pdas)
  let types ← familyTable "Types" ["Type", "Kind"] "types" typeRemark (← n.definedTypes)
  let errors ← n.errors
  let constant ← scope.identifier .programAddressConstant n
  let name ← n.nameText
  let docs ← description n
  return {
    opening := [pageHeading (Name.titleCase name), .plain ("Program address: " ++ Markdown.code constant)] ++ docs ++
      [titledText "Installation" (Markdown.codeBlock ("npm install " ++ scope.package) "bash")]
    families := [accounts, instructions, pdas, types]
    errors := errors.length }

theorem memberLink_eq (folder : Text) (n : Node) : memberLink folder n = do return (← pageLink folder n).text := by
  unfold memberLink pageLink pagePath
  cases n.nameText <;> rfl

theorem familySection_eq {row : Node → Except Fault (List Text)} {folder : Text} {remark : Node → Except Fault Text}
    (hrow : ∀ n, row n = do return [← memberLink folder n, ← remark n]) (title : Text) (headings : List Text)
    (members : List Node) : familySection title headings row members = do
      return (← familyTable title headings folder remark members).fragments := by
  have hrows : ∀ ns : List Node, ns.mapM row = do
      return (← ns.mapM fun n => do return (← pageLink folder n, ← remark n)).map fun row => [row.1.text, row.2] := by
    intro ns
    induction ns with
    | nil => rfl
    | cons n rest ih =>
      rw [List.mapM_cons, List.mapM_cons, ih, hrow, memberLink_eq]
      simp only [bind_assoc, pure_bind, List.map_cons]
  unfold familySection familyTable
  cases members with
  | nil => rfl
  | cons n rest =>
    have hrest : ∀ rows, (n :: rest).mapM (fun n => do return (← pageLink folder n, ← remark n)) = .ok rows →
        rows.isEmpty = false := fun rows h => by
      cases mapM_eq_ok.1 h with
      | cons _ _ => rfl
    rw [List.isEmpty_cons, if_neg Bool.false_ne_true, hrows]
    cases hm : (n :: rest).mapM (fun n => do return (← pageLink folder n, ← remark n)) with
    | error e => rfl
    | ok rows =>
      change Except.ok _ = Except.ok (FamilyTable.fragments _)
      rw [FamilyTable.fragments, hrest rows hm]
      rfl

theorem errorSummary_eq (errors : List Node) : errorSummary errors = errorNote errors.length := by
  cases errors <;> rfl

theorem accountSummary_eq (scope : Scope) (path : List Node) (n : Node) :
    accountSummary scope path n = do return [← memberLink "accounts" n, ← accountRemark scope path n] := by
  simp only [accountSummary, accountRemark, bind_assoc]

theorem instructionSummary_eq (n : Node) :
    instructionSummary n = do return [← memberLink "instructions" n, ← instructionRemark n] := by
  simp only [instructionSummary, instructionRemark, bind_assoc, pure_bind]

theorem addressSummary_eq (n : Node) :
    addressSummary n = do return [← memberLink "pdas" n, ← addressRemark n] := by
  unfold addressSummary addressRemark
  refine congrArg _ (funext fun link => ?_)
  cases n.get .seeds with
  | error e => rfl
  | ok seeds =>
    change (if seeds.isGiven then _ else _) = (if seeds.isGiven then _ else _) >>= _
    cases seeds.isGiven with
    | false => rfl
    | true => simp only [if_true, bind_assoc, pure_bind]

theorem typeSummary_eq (n : Node) : typeSummary n = do return [← memberLink "types" n, ← typeRemark n] := by
  simp only [typeSummary, typeRemark, bind_assoc]

/-- **An overview is the rendering of its outline.** -/
theorem overview_eq (scope : Scope) (path : List Node) (n : Node) :
    overview scope path n = do return (← outline scope path n).fragment := by
  unfold overview outline
  simp only [familySection_eq (accountSummary_eq scope _), familySection_eq instructionSummary_eq,
    familySection_eq addressSummary_eq, familySection_eq typeSummary_eq, errorSummary_eq, Outline.fragment,
    List.flatMap_cons, List.flatMap_nil, List.append_assoc, List.append_nil, List.cons_append, List.nil_append,
    bind_assoc, pure_bind]

/-! ## Pages of members -/

def overviewPath : Text := "index.md"

def errorPath : Text := "errors.md"

/-- a path that there is if there are some nodes -/
def pathIf (path : Text) (nodes : List Node) : List Text := if nodes.isEmpty then [] else [path]

theorem mem_pathIf {path x : Text} {nodes : List Node} : x ∈ pathIf path nodes ↔ x = path ∧ nodes ≠ [] := by
  cases nodes <;> simp [pathIf]

theorem length_pathIf (path : Text) (nodes : List Node) :
    ((pathIf path nodes).length : Int) = if nodes = [] then 0 else 1 := by
  cases nodes <;> simp [pathIf]

theorem nodup_pathIf (path : Text) (nodes : List Node) : (pathIf path nodes).Nodup := by
  cases nodes <;> simp [pathIf]

/-- the kinds of member that have pages, with the folders of their pages -/
def memberFolders : List (Kind × Text) :=
  [(.account, "accounts"), (.instruction, "instructions"), (.pda, "pdas"), (.definedType, "types")]

/-- the families of members that have pages, in the order of an overview, with the folders of their pages -/
def families : List (Text × (Listing → List Node)) := [
  ("accounts", Listing.accounts), ("instructions", Listing.instructions), ("pdas", Listing.pdas),
  ("types", Listing.definedTypes)]

/-- the members that have pages, each with the folder of its page -/
def placed (l : Listing) : List (Text × Node) := families.flatMap fun f => (f.2 l).map (f.1, ·)

def memberPaths (l : Listing) : Except Fault (List Text) := (placed l).mapM fun m => pagePath m.1 m.2

/-- some members have their pages at some paths in a folder -/
def PlacedAt (folder : Text) (ns : List Node) (paths : List Text) : Prop :=
  List.Forall₂ (fun n path => pagePath folder n = .ok path) ns paths

theorem memberPaths_eq_ok {l : Listing} {accounts instructions pdas types : List Text}
    (ha : PlacedAt "accounts" l.accounts accounts) (hi : PlacedAt "instructions" l.instructions instructions)
    (hp : PlacedAt "pdas" l.pdas pdas) (ht : PlacedAt "types" l.definedTypes types) :
    memberPaths l = .ok (accounts ++ (instructions ++ (pdas ++ types))) := by
  refine mapM_eq_ok.2 ?_
  simp only [placed, families, List.flatMap_cons, List.flatMap_nil, List.append_nil]
  refine List.rel_append ?_ (List.rel_append ?_ (List.rel_append ?_ ?_))
  · exact List.forall₂_map_left_iff.2 ha
  · exact List.forall₂_map_left_iff.2 hi
  · exact List.forall₂_map_left_iff.2 hp
  · exact List.forall₂_map_left_iff.2 ht

theorem mem_placed_join {m : Text × Node} {ls : List Listing} :
    m ∈ placed (.join ls) ↔ ∃ l ∈ ls, m ∈ placed l := by
  have hfield : ∀ f ∈ families, f.2 (.join ls) = ls.flatMap f.2 := by simp [families, Listing.join]
  simp only [placed, List.mem_flatMap, List.mem_map]
  constructor
  · rintro ⟨f, hf, n, hn, rfl⟩
    rw [hfield f hf] at hn
    obtain ⟨l, hl, hn⟩ := List.mem_flatMap.1 hn
    exact ⟨l, hl, f, hf, n, hn, rfl⟩
  · rintro ⟨l, hl, f, hf, n, hn, rfl⟩
    refine ⟨f, hf, n, ?_, rfl⟩
    rw [hfield f hf]
    exact List.mem_flatMap.2 ⟨l, hl, hn⟩

/-- the paths of what several listings list -/
theorem memberPaths_join {ls : List Listing} {pss : List (List Text)}
    (h : List.Forall₂ (fun l ps => memberPaths l = .ok ps) ls pss) :
    ∃ paths, memberPaths (.join ls) = .ok paths ∧ ∀ path, path ∈ paths ↔ path ∈ pss.flatten := by
  have hone : ∀ m ∈ placed (.join ls), ∃ path ∈ pss.flatten, pagePath m.1 m.2 = .ok path := fun m hm => by
    obtain ⟨l, hl, hm⟩ := mem_placed_join.1 hm
    obtain ⟨ps, hps, hl⟩ := exists_of_forall₂ h.flip hl
    obtain ⟨path, hpath, hm⟩ := exists_of_forall₂ (mapM_eq_ok.1 hl).flip hm
    exact ⟨path, List.mem_flatten.2 ⟨ps, hps, hpath⟩, hm⟩
  obtain ⟨paths, hpaths⟩ := exists_mapM_ok fun m hm => (hone m hm).imp fun _ h => h.2
  refine ⟨paths, hpaths, fun path => ⟨fun hp => ?_, fun hp => ?_⟩⟩
  · obtain ⟨m, hm, hpath⟩ := exists_of_forall₂ (mapM_eq_ok.1 hpaths) hp
    obtain ⟨path', hmem, hpath'⟩ := hone m hm
    rw [hpath] at hpath'
    cases hpath'
    exact hmem
  · obtain ⟨ps, hps, hp⟩ := List.mem_flatten.1 hp
    obtain ⟨l, hl, hlps⟩ := exists_of_forall₂ h hps
    obtain ⟨m, hm, hpath⟩ := exists_of_forall₂ (mapM_eq_ok.1 hlps) hp
    obtain ⟨path', hmem, hpath'⟩ := exists_of_forall₂ (mapM_eq_ok.1 hpaths).flip (mem_placed_join.2 ⟨l, hl, hm⟩)
    rw [hpath] at hpath'
    cases hpath'
    exact hmem

theorem length_of_memberPaths {l : Listing} {paths : List Text} (h : memberPaths l = .ok paths) :
    (paths.length : Int) = l.counts.accounts + l.counts.instructions + l.counts.pdas + l.counts.definedTypes := by
  rw [← (mapM_eq_ok.1 h).length_eq]
  simp [placed, families, Listing.counts]
  omega

/-- a path of a member leads into a folder -/
theorem slash_in_pagePath {folder path : Text} {n : Node} (h : pagePath folder n = .ok path) : 47 ∈ path := by
  obtain ⟨name, _, h⟩ := except_bind_ok.1 h
  cases h
  simp [memberPath, Text.ofString]

theorem slash_in_memberPaths {l : Listing} {paths : List Text} (h : memberPaths l = .ok paths) :
    ∀ path ∈ paths, 47 ∈ path := fun path hp => by
  obtain ⟨m, _, hm⟩ := exists_of_forall₂ (mapM_eq_ok.1 h) hp
  exact slash_in_pagePath hm

/-! ## Links -/

theorem familyTable_ok {title : Text} {headings : List Text} {folder : Text} {remark : Node → Except Fault Text}
    {members : List Node} {t : FamilyTable} (h : familyTable title headings folder remark members = .ok t) :
    t.title = title ∧
      List.Forall₂ (fun n row => pageLink folder n = .ok row.1 ∧ remark n = .ok row.2) members t.rows := by
  obtain ⟨rows, hrows, h⟩ := except_bind_ok.1 h
  cases h
  refine ⟨rfl, (mapM_eq_ok.1 hrows).imp fun n row hrow => ?_⟩
  obtain ⟨link, hlink, hrow⟩ := except_bind_ok.1 hrow
  obtain ⟨said, hsaid, hrow⟩ := except_bind_ok.1 hrow
  cases hrow
  exact ⟨hlink, hsaid⟩

theorem urls_familyTable {title : Text} {headings : List Text} {folder : Text} {remark : Node → Except Fault Text}
    {members : List Node} {t : FamilyTable} (h : familyTable title headings folder remark members = .ok t) :
    PlacedAt folder members (t.rows.map fun row => row.1.url) := by
  refine List.forall₂_map_right_iff.2 ((familyTable_ok h).2.imp fun n row hrow => ?_)
  obtain ⟨name, _, hlink⟩ := except_bind_ok.1 hrow.1
  obtain ⟨path, hpath, hlink⟩ := except_bind_ok.1 hlink
  rw [← Except.ok.inj hlink]
  exact hpath

/-- the families of an outline are those of the members of its program -/
theorem families_of_outline {scope : Scope} {path : List Node} {p : Node} {o : Outline}
    (h : outline scope path p = .ok o) : ∃ l : Listing,
      p.accounts = .ok l.accounts ∧ p.leafInstructions = .ok l.instructions ∧ p.pdas = .ok l.pdas ∧
      p.definedTypes = .ok l.definedTypes ∧ p.errors = .ok l.errors ∧ o.errors = l.errors.length ∧
      ∃ path' accounts instructions pdas types, o.families = [accounts, instructions, pdas, types] ∧
        familyTable "Accounts" ["Account", "Size"] "accounts" (accountRemark scope path') l.accounts = .ok accounts ∧
        familyTable "Instructions" ["Instruction", "Description"] "instructions" instructionRemark l.instructions =
          .ok instructions ∧
        familyTable "PDAs" ["PDA", "Seeds"] "pdas" addressRemark l.pdas = .ok pdas ∧
        familyTable "Types" ["Type", "Kind"] "types" typeRemark l.definedTypes = .ok types := by
  unfold outline at h
  obtain ⟨accounts, haccounts, h⟩ := except_bind_ok.1 h
  obtain ⟨accountTable, ha, h⟩ := except_bind_ok.1 h
  obtain ⟨leaves, hleaves, h⟩ := except_bind_ok.1 h
  obtain ⟨instructionTable, hi, h⟩ := except_bind_ok.1 h
  obtain ⟨pdas, hpdas, h⟩ := except_bind_ok.1 h
  obtain ⟨addressTable, hd, h⟩ := except_bind_ok.1 h
  obtain ⟨types, htypes, h⟩ := except_bind_ok.1 h
  obtain ⟨typeTable, ht, h⟩ := except_bind_ok.1 h
  obtain ⟨errors, herrors, h⟩ := except_bind_ok.1 h
  obtain ⟨constant, _, h⟩ := except_bind_ok.1 h
  obtain ⟨name, _, h⟩ := except_bind_ok.1 h
  obtain ⟨docs, _, h⟩ := except_bind_ok.1 h
  cases h
  exact ⟨⟨[p], accounts, leaves, pdas, types, errors⟩, haccounts, hleaves, hpdas, htypes, herrors, rfl,
    _, accountTable, instructionTable, addressTable, typeTable, rfl, ha, hi, hd, ht⟩

/-- an overview links to the page of each member of its program and to the page of errors -/
theorem outline_ok {scope : Scope} {path : List Node} {p : Node} (hp : p.isKind .program = true) {o : Outline}
    (h : outline scope path p = .ok o) : ∃ l paths, p.listing = .ok l ∧ memberPaths l = .ok paths ∧
      o.urls = paths ++ pathIf errorPath l.errors := by
  obtain ⟨l, haccounts, hleaves, hpdas, htypes, herrors, hcount, _, accountTable, instructionTable, addressTable,
    typeTable, hfamilies, ha, hi, hd, ht⟩ := families_of_outline h
  refine ⟨{ l with programs := [p] }, _,
    Node.listing_eq_ok.2 ⟨Node.programs_program hp, haccounts, hleaves, hpdas, htypes, herrors⟩,
    memberPaths_eq_ok (urls_familyTable ha) (urls_familyTable hi) (urls_familyTable hd) (urls_familyTable ht), ?_⟩
  have herrorLinks : (if o.errors = 0 then [] else [errorLink]).map PageLink.url = pathIf errorPath l.errors := by
    rw [hcount]
    cases l.errors <;> rfl
  simp only [Outline.urls, Outline.links, List.map_append, herrorLinks, hfamilies, List.flatMap_cons,
    List.flatMap_nil, List.append_nil, List.map_map, Function.comp_def, List.append_assoc]

/-! ## Drafts -/

variable {scope : Scope} {depth : Nat} {above : NodeStack}

theorem memberDrafts_ok {folder : Text} {n : Node} {body : Fragment} {ds : List Draft}
    (h : memberDrafts folder n body = .ok ds) : ∃ path, pagePath folder n = .ok path ∧ ds = [(path, body)] := by
  obtain ⟨name, hname, h⟩ := except_bind_ok.1 h
  cases h
  exact ⟨memberPath folder name, except_bind_ok.2 ⟨name, hname, rfl⟩, rfl⟩

/-- a member has one draft, for the page in the folder of its kind -/
theorem drafts_member {k : Kind} {folder : Text} (hk : (k, folder) ∈ memberFolders) {n : Node} (hn : n.isKind k = true)
    {ds : List Draft} (h : drafts scope depth above n = .ok ds) :
    ∃ path body, pagePath folder n = .ok path ∧ ds = [(path, body)] := by
  cases depth with
  | zero => cases h
  | succ depth =>
    unfold drafts at h
    rw [beq_iff_eq.1 hn] at h
    simp only [memberFolders, List.mem_cons, Prod.mk.injEq, List.not_mem_nil, or_false] at hk
    rcases hk with ⟨rfl, rfl⟩ | ⟨rfl, rfl⟩ | ⟨rfl, rfl⟩ | ⟨rfl, rfl⟩
    all_goals
      obtain ⟨body, _, h⟩ := except_bind_ok.1 h
      obtain ⟨path, hpath, rfl⟩ := memberDrafts_ok h
      exact ⟨path, body, hpath, rfl⟩

theorem drafts_unknown {n : Node} {ds : List Draft} (hn : n.kind? = none)
    (h : drafts scope depth above n = .ok ds) : ds = [] := by
  cases depth with
  | zero => cases h
  | succ depth =>
    unfold drafts at h
    rw [hn] at h
    cases h
    rfl

/-- the drafts of some members are for their pages -/
theorem placedAt_drafts {k : Kind} {folder : Text} (hk : (k, folder) ∈ memberFolders) {ns : List Node}
    (hns : ∀ n ∈ ns, n.isKind k = true) {dss : List (List Draft)}
    (h : List.Forall₂ (fun n ds => drafts scope depth above n = .ok ds) ns dss) :
    PlacedAt folder ns (dss.flatten.map Prod.fst) := by
  induction h with
  | nil => exact .nil
  | @cons n ds _ _ hds _ ih =>
    obtain ⟨path, body, hpath, rfl⟩ := drafts_member hk (hns n List.mem_cons_self) hds
    exact .cons hpath (ih fun m hm => hns m (List.mem_cons_of_mem _ hm))

/-- the drafts of a collection of a program are for the pages of the program's members -/
theorem placedAt_collection {a : Attr} {k : Kind} {folder : Text} (hk : (k, folder) ∈ memberFolders) {p : Node}
    (hp : p.isKind .program = true) {vs : List Value} (hvs : p.items a = .ok vs) (hfit : ∀ v ∈ vs, v.fits k = true)
    {ms : List Node} (hms : p.members a k = .ok ms) {dss : List (List Draft)}
    (h : eachNode (drafts scope depth above) vs = .ok dss) : PlacedAt folder ms (dss.flatten.map Prod.fst) := by
  obtain ⟨ns, nss, hns, hnss, hflat⟩ := Node.eachNode_ofKind hfit (fun _ _ => drafts_unknown) h
  have hown := (Node.members_program hp).1 hms
  obtain ⟨vs', hvs', hof⟩ := except_bind_ok.1 hown
  rw [hvs] at hvs'
  cases hvs'
  rw [hns] at hof
  cases hof
  rw [hflat]
  exact placedAt_drafts hk (Node.isKind_of_ofKind hns) hnss

theorem errors_ok {n : Node} {page : Option Fragment} (h : errors scope n = .ok page) :
    ∃ es, n.errors = .ok es ∧ (page.toList.map fun f => (errorPath, f)).map Prod.fst = pathIf errorPath es := by
  obtain ⟨es, hes, h⟩ := except_bind_ok.1 h
  refine ⟨es, hes, ?_⟩
  unfold pathIf
  cases hempty : es.isEmpty with
  | true =>
    rw [hempty] at h
    cases h
    rfl
  | false =>
    rw [hempty, if_neg Bool.false_ne_true] at h
    obtain ⟨isError, _, h⟩ := except_bind_ok.1 h
    obtain ⟨getMessage, _, h⟩ := except_bind_ok.1 h
    obtain ⟨imports, _, h⟩ := except_bind_ok.1 h
    obtain ⟨rows, _, h⟩ := except_bind_ok.1 h
    obtain ⟨name, _, h⟩ := except_bind_ok.1 h
    obtain ⟨cells, _, h⟩ := except_bind_ok.1 h
    cases h
    rfl

/-! ## Chapters -/

/-- what the documentation of a program consists of -/
structure Chapter where
  listing : Listing
  outline : Outline
  paths : List Text
  drafts : List Draft

/-- a chapter is that of a program at the end of a path -/
structure Chapter.Of (scope : Scope) (path : List Node) (p : Node) (c : Chapter) : Prop where
  listing : p.listing = .ok c.listing
  outline : Docs.outline scope path p = .ok c.outline
  paths : memberPaths c.listing = .ok c.paths
  urls : c.outline.urls = c.paths ++ pathIf errorPath c.listing.errors
  drafts : ∃ others, c.drafts = (overviewPath, c.outline.fragment) :: others ∧
    ∀ path, path ∈ others.map Prod.fst ↔ path ∈ c.outline.urls

theorem chapter_of_drafts {p : Node} (hp : p.isKind .program = true) {path : List Node}
    (hfit : ∀ a k, (a, k) ∈ Node.visitedCollections → ∀ vs, p.items a = .ok vs → ∀ v ∈ vs, v.fits k = true)
    {ds : List Draft} (h : programDrafts scope (drafts scope depth above) path p = .ok ds) :
    ∃ c : Chapter, c.drafts = ds ∧ c.Of scope path p := by
  obtain ⟨own, hown, h⟩ := except_bind_ok.1 h
  obtain ⟨vs, hvs, h⟩ := except_bind_ok.1 h
  obtain ⟨pdas, hpdas, h⟩ := except_bind_ok.1 h
  obtain ⟨vs', hvs', h⟩ := except_bind_ok.1 h
  obtain ⟨accounts, haccounts, h⟩ := except_bind_ok.1 h
  obtain ⟨vs'', hvs'', h⟩ := except_bind_ok.1 h
  obtain ⟨types, htypes, h⟩ := except_bind_ok.1 h
  obtain ⟨leaves, hleaves, h⟩ := except_bind_ok.1 h
  obtain ⟨instructions, hinstructions, h⟩ := except_bind_ok.1 h
  obtain ⟨overviewPage, hoverview, hown⟩ := except_bind_ok.1 hown
  obtain ⟨errorPage, herrors, hown⟩ := except_bind_ok.1 hown
  cases hown
  cases h
  rw [overview_eq] at hoverview
  obtain ⟨o, ho, hoverview⟩ := except_bind_ok.1 hoverview
  cases hoverview
  obtain ⟨l, paths, hl, hpaths, hurls⟩ := outline_ok hp ho
  obtain ⟨-, hla, hli, hlp, hlt, hle⟩ := Node.listing_eq_ok.1 hl
  rw [hli] at hleaves
  cases hleaves
  obtain ⟨es, hes, herrorPage⟩ := errors_ok herrors
  rw [hle] at hes
  cases hes
  -- the pages of the members are those that the overview links to
  have hmembers := memberPaths_eq_ok
    (placedAt_collection (by decide) hp hvs' (hfit _ _ (by decide) vs' hvs') hla haccounts)
    (placedAt_drafts (by decide) (Node.isKind_of_leafInstructions hli) (mapM_eq_ok.1 hinstructions))
    (placedAt_collection (by decide) hp hvs (hfit _ _ (by decide) vs hvs) hlp hpdas)
    (placedAt_collection (by decide) hp hvs'' (hfit _ _ (by decide) vs'' hvs'') hlt htypes)
  rw [hpaths] at hmembers
  cases hmembers
  refine ⟨⟨l, o, _, _⟩, rfl, hl, ho, hpaths, hurls,
    ([errorPage.toList.map (errorPath, ·)] ++ pdas ++ accounts ++ types ++ instructions).flatten, rfl, fun x => ?_⟩
  rw [hurls, ← herrorPage]
  simp only [List.map_append, List.flatten_append, List.flatten_singleton, List.mem_append]
  tauto

namespace Chapter

variable {path : List Node} {p : Node} {c : Chapter}

theorem Of.overview_not_linked (h : c.Of scope path p) : overviewPath ∉ c.outline.urls := by
  rw [h.urls, List.mem_append, mem_pathIf]
  rintro (hmem | ⟨hmem, -⟩)
  · exact absurd (slash_in_memberPaths h.paths _ hmem) (by decide)
  · exact absurd hmem (by decide)

theorem Of.mem_paths (h : c.Of scope path p) (x : Text) :
    x ∈ c.drafts.map Prod.fst ↔ x = overviewPath ∨ x ∈ c.outline.urls := by
  obtain ⟨others, hdrafts, hothers⟩ := h.drafts
  rw [hdrafts, List.map_cons, List.mem_cons, hothers]

/-- a program has one overview -/
theorem Of.overview (h : c.Of scope path p) : contentsAt overviewPath c.drafts = [c.outline.fragment.content] := by
  obtain ⟨others, hdrafts, hothers⟩ := h.drafts
  have hnone : contentsAt overviewPath others = [] :=
    PageMap.contentsAt_eq_nil.2 fun hmem => h.overview_not_linked ((hothers _).1 hmem)
  rw [hdrafts, ← List.singleton_append, PageMap.contentsAt_append, hnone, List.append_nil]
  rfl

end Chapter

/-- the drafts of a root are the chapters of its programs -/
theorem chapters_of_drafts {root : Node} (hroot : root.isKind .root = true) (hfit : root.membersFit = true)
    {ds : List Draft} (h : drafts scope (root.height + 1) [] root = .ok ds) :
    ∃ ps cs, root.programs = .ok ps ∧ (cs.map Chapter.drafts).flatten = ds ∧
      List.Forall₂ (fun p c => Chapter.Of scope [root, p] p c) ps cs := by
  obtain ⟨depth, hdepth⟩ := Nat.exists_eq_add_one.2 root.height_pos
  unfold drafts at h
  rw [beq_iff_eq.1 hroot, hdepth] at h
  obtain ⟨ps, hps, h⟩ := except_bind_ok.1 h
  obtain ⟨dss, hdss, h⟩ := except_bind_ok.1 h
  cases h
  obtain ⟨cs, rfl, hcs⟩ := exists_forall₂ (mapM_eq_ok.1 hdss) fun p hp ds hds => by
    have hkind := Node.isKind_of_programs hps p hp
    unfold drafts at hds
    rw [beq_iff_eq.1 hkind] at hds
    exact chapter_of_drafts hkind (fun a k ha vs => Node.fits_of_membersFit hfit hps hp ha) hds
  exact ⟨ps, cs, hps, rfl, hcs⟩

/-! ## Pages -/

/-- the pages of a tree that lists some nodes, whose members have their pages at some paths and whose programs have some
outlines -/
structure Covers (l : Listing) (paths : List Text) (outlines : List Outline) (m : PageMap) : Prop where
  /-- there is a page of overviews if there are programs, a page of errors if there are errors, and one for each member -/
  pages : ∀ path, path ∈ m.keys ↔
    (path = overviewPath ∧ l.programs ≠ []) ∨ (path = errorPath ∧ l.errors ≠ []) ∨ path ∈ paths
  /-- the overviews stand on their page one after another -/
  overviews : ∀ page, m.get? overviewPath = some page →
    page.content = endWithLineFeed (Text.joinParagraphs (outlines.map (·.fragment.content)))
  /-- the overviews link to every page but their own, and nowhere else -/
  links : ∀ path, (∃ o ∈ outlines, path ∈ o.urls) ↔ path ∈ m.keys ∧ path ≠ overviewPath
  /-- if no two members share a path, the tree's counts give the number of pages -/
  size : paths.Nodup → (m.size : Int) =
    l.counts.accounts + l.counts.instructions + l.counts.pdas + l.counts.definedTypes +
      (if l.programs = [] then 0 else 1) + (if l.errors = [] then 0 else 1)

/-- pages at distinct paths are as many as the paths -/
theorem size_of_pages {l : Listing} {paths : List Text} (hpaths : memberPaths l = .ok paths) {m : PageMap}
    (hm : ∀ path, path ∈ m.keys ↔
      (path = overviewPath ∧ l.programs ≠ []) ∨ (path = errorPath ∧ l.errors ≠ []) ∨ path ∈ paths)
    (hd : paths.Nodup) : (m.size : Int) =
      l.counts.accounts + l.counts.instructions + l.counts.pdas + l.counts.definedTypes +
        (if l.programs = [] then 0 else 1) + (if l.errors = [] then 0 else 1) := by
  -- the two pages that no member has stand in no folder
  have herrors : (pathIf errorPath l.errors ++ paths).Nodup := by
    refine List.nodup_append.2 ⟨nodup_pathIf _ _, hd, fun a ha b hb hab => ?_⟩
    rw [(mem_pathIf.1 ha).1] at hab
    exact absurd (slash_in_memberPaths hpaths b hb) (hab ▸ by decide)
  have hall : (pathIf overviewPath l.programs ++ (pathIf errorPath l.errors ++ paths)).Nodup := by
    refine List.nodup_append.2 ⟨nodup_pathIf _ _, herrors, fun a ha b hb hab => ?_⟩
    rw [(mem_pathIf.1 ha).1] at hab
    rcases List.mem_append.1 hb with hb | hb
    · exact absurd (hab.trans (mem_pathIf.1 hb).1) (by decide)
    · exact absurd (slash_in_memberPaths hpaths b hb) (hab ▸ by decide)
  have hperm : m.keys.Perm (pathIf overviewPath l.programs ++ (pathIf errorPath l.errors ++ paths)) :=
    (List.perm_ext_iff_of_nodup m.nodup hall).2 fun path => by
      rw [List.mem_append, List.mem_append, mem_pathIf, mem_pathIf]
      exact hm path
  have hsize : m.size = m.keys.length := (List.length_map _).symm
  rw [hsize, hperm.length_eq, List.length_append, List.length_append]
  push_cast
  rw [length_pathIf, length_pathIf, length_of_memberPaths hpaths]
  omega

theorem contentsAt_flatten (path : Text) (dss : List (List Draft)) :
    contentsAt path dss.flatten = dss.flatMap (contentsAt path) := by
  induction dss with
  | nil => rfl
  | cons ds rest ih => rw [List.flatten_cons, PageMap.contentsAt_append, ih, List.flatMap_cons]

section

variable {root : Node} {cs : List Chapter} (hcs : ∀ c ∈ cs, ∃ p, Chapter.Of scope [root, p] p c)

include hcs

theorem mem_chapter_drafts (path : Text) : path ∈ (cs.map Chapter.drafts).flatten.map Prod.fst ↔
    ∃ c ∈ cs, path = overviewPath ∨ path ∈ c.outline.urls := by
  rw [List.map_flatten, List.map_map, List.mem_flatten]
  simp only [List.mem_map, Function.comp_apply, exists_exists_and_eq_and]
  refine exists_congr fun c => and_congr_right fun hc => ?_
  obtain ⟨p, hpc⟩ := hcs c hc
  exact List.mem_map.symm.trans (hpc.mem_paths path)

theorem overviews_of_chapters : contentsAt overviewPath (cs.map Chapter.drafts).flatten =
    (cs.map Chapter.outline).map fun o => o.fragment.content := by
  rw [contentsAt_flatten, List.flatMap_map, List.map_map, List.map_eq_flatMap]
  refine List.flatMap_congr fun c hc => ?_
  obtain ⟨p, hpc⟩ := hcs c hc
  exact hpc.overview

/-- all overviews together link to the pages of all members, and to that of errors if there are any -/
theorem mem_chapter_urls {l : Listing} (herrors : l.errors = cs.flatMap fun c => c.listing.errors) {paths : List Text}
    (hmem : ∀ path, path ∈ paths ↔ path ∈ (cs.map Chapter.paths).flatten) (path : Text) :
    (∃ c ∈ cs, path ∈ c.outline.urls) ↔ (path = errorPath ∧ l.errors ≠ []) ∨ path ∈ paths := by
  have hurls : ∀ c ∈ cs, path ∈ c.outline.urls ↔ path ∈ c.paths ∨ (path = errorPath ∧ c.listing.errors ≠ []) :=
    fun c hc => by
      obtain ⟨p, hpc⟩ := hcs c hc
      rw [hpc.urls, List.mem_append, mem_pathIf]
  rw [hmem, List.mem_flatten, herrors]
  constructor
  · rintro ⟨c, hc, h⟩
    rcases (hurls c hc).1 h with h | ⟨h, hne⟩
    · exact .inr ⟨c.paths, List.mem_map_of_mem hc, h⟩
    · exact .inl ⟨h, fun hnil => hne (List.flatMap_eq_nil_iff.1 hnil c hc)⟩
  · rintro (⟨h, hne⟩ | ⟨ps, hps, h⟩)
    · obtain ⟨e, he⟩ := List.exists_mem_of_ne_nil _ hne
      obtain ⟨c, hc, he⟩ := List.mem_flatMap.1 he
      exact ⟨c, hc, (hurls c hc).2 (.inr ⟨h, List.ne_nil_of_mem he⟩)⟩
    · obtain ⟨c, hc, rfl⟩ := List.mem_map.1 hps
      exact ⟨c, hc, (hurls c hc).2 (.inl h)⟩

/-- what merging leaves of the chapters of some programs -/
theorem covers_of_chapters {merged : PageMap} (hm : Holds merged (cs.map Chapter.drafts).flatten) {l : Listing}
    (hprograms : l.programs = [] ↔ cs = []) (herrors : l.errors = cs.flatMap fun c => c.listing.errors)
    {paths : List Text} (hpaths : memberPaths l = .ok paths)
    (hmem : ∀ path, path ∈ paths ↔ path ∈ (cs.map Chapter.paths).flatten) :
    Covers l paths (cs.map Chapter.outline) (merged.mapContent endWithLineFeed) := by
  have hkeys : ∀ path, path ∈ (merged.mapContent endWithLineFeed).keys ↔
      ∃ c ∈ cs, path = overviewPath ∨ path ∈ c.outline.urls := fun path => by
    rw [PageMap.mapContent, OrderedMap.keys_mapValues]
    exact (hm.paths path).trans (mem_chapter_drafts hcs path)
  have hlinks := mem_chapter_urls hcs herrors hmem
  have hpages : ∀ path, path ∈ (merged.mapContent endWithLineFeed).keys ↔
      (path = overviewPath ∧ l.programs ≠ []) ∨ (path = errorPath ∧ l.errors ≠ []) ∨ path ∈ paths := fun path => by
    rw [hkeys, ← hlinks, Ne, hprograms]
    constructor
    · rintro ⟨c, hc, h | h⟩
      · exact .inl ⟨h, List.ne_nil_of_mem hc⟩
      · exact .inr ⟨c, hc, h⟩
    · rintro (⟨h, hne⟩ | ⟨c, hc, h⟩)
      · obtain ⟨c, hc⟩ := List.exists_mem_of_ne_nil _ hne
        exact ⟨c, hc, .inl h⟩
      · exact ⟨c, hc, .inr h⟩
  refine ⟨hpages, fun page hpage => ?_, fun path => ?_, size_of_pages hpaths hpages⟩
  · rw [PageMap.mapContent, OrderedMap.get?_mapValues] at hpage
    obtain ⟨body, hbody, rfl⟩ := Option.map_eq_some_iff.1 hpage
    have hcontent := hm.contents overviewPath
    rw [PageMap.contentsAt_entries, hbody, overviews_of_chapters hcs] at hcontent
    exact congrArg endWithLineFeed hcontent
  · rw [hkeys]
    simp only [List.mem_map, exists_exists_and_eq_and]
    constructor
    · rintro ⟨c, hc, h⟩
      obtain ⟨p, hpc⟩ := hcs c hc
      exact ⟨⟨c, hc, .inr h⟩, fun heq => hpc.overview_not_linked (heq ▸ h)⟩
    · rintro ⟨⟨c, hc, h⟩, hne⟩
      exact ⟨c, hc, h.resolve_left hne⟩

end

/-- **The overviews link to all pages of a tree and to nothing else.** The pages are those of the members that the tree
lists, one of overviews if there are programs and one of errors if there are errors. -/
theorem pages_linked {options : Options} {root : Node} (hroot : root.isKind .root = true)
    (hfit : root.membersFit = true) {m : PageMap} (h : pages options root = .ok m) :
    ∃ naming links l paths outlines, Naming.make Role.client options.transformers = .ok naming ∧
      (LinkTable.recordTree root).perform OrderedMap.empty = (.ok (), links) ∧
      root.listing = .ok l ∧ root.counts = .ok l.counts ∧ memberPaths l = .ok paths ∧
      List.Forall₂ (fun p o => outline ⟨naming, options.package, links⟩ [root, p] p = .ok o ∧
        overview ⟨naming, options.package, links⟩ [root, p] p = .ok o.fragment) l.programs outlines ∧
      Covers l paths outlines m := by
  obtain ⟨naming, links, ds, merged, hnaming, hlinks, hds, hheld, rfl⟩ := pages_eq_ok h
  obtain ⟨ps, cs, hps, rfl, hcs⟩ := chapters_of_drafts hroot hfit hds
  have hlistings : List.Forall₂ (fun p l => p.listing = .ok l) ps (cs.map Chapter.listing) :=
    List.forall₂_map_right_iff.2 (hcs.imp fun _ _ hc => hc.listing)
  have hlisting := Node.listing_of_programs (Node.not_instruction hroot (by decide)) hps hlistings
  have hprograms : (Listing.join (cs.map Chapter.listing)).programs = ps := by
    have hjoin := (Node.listing_eq_ok.1 hlisting).1
    rw [hps] at hjoin
    exact (Except.ok.inj hjoin).symm
  have hof : ∀ c ∈ cs, ∃ p, c.Of ⟨naming, options.package, links⟩ [root, p] p := fun c hc => by
    obtain ⟨p, _, hpc⟩ := exists_of_forall₂ hcs hc
    exact ⟨p, hpc⟩
  have hchapterPaths : List.Forall₂ (fun l ps => memberPaths l = .ok ps) (cs.map Chapter.listing)
      (cs.map Chapter.paths) := by
    refine List.forall₂_map_left_iff.2 (List.forall₂_map_right_iff.2 (List.forall₂_same.2 fun c hc => ?_))
    exact (hof c hc).choose_spec.paths
  obtain ⟨paths, hpaths, hmem⟩ := memberPaths_join hchapterPaths
  refine ⟨naming, links, _, paths, cs.map Chapter.outline, hnaming, hlinks, hlisting, ?_, hpaths, ?_, ?_⟩
  · rw [Node.counts_eq, hlisting]
    rfl
  · rw [hprograms]
    refine List.forall₂_map_right_iff.2 (hcs.imp fun p c hc => ⟨hc.outline, ?_⟩)
    rw [overview_eq, hc.outline]
    rfl
  · refine covers_of_chapters hof hheld ?_ ?_ hpaths hmem
    · rw [hprograms]
      cases hcs <;> simp
    · simp only [Listing.join, List.flatMap_map]

theorem escrow_pages_linked : Node.escrowTree.isKind .root = true ∧ Node.escrowTree.membersFit = true ∧
    ∃ m l paths outlines, pages ⟨"client", []⟩ Node.escrowTree = .ok m ∧ Node.escrowTree.listing = .ok l ∧
      memberPaths l = .ok paths ∧ Covers l paths outlines m := by
  have hroot : Node.escrowTree.isKind .root = true := by decide
  have hfit : Node.escrowTree.membersFit = true := by decide +kernel
  obtain ⟨m, hm⟩ := exists_of_isOk (x := pages ⟨"client", []⟩ Node.escrowTree) (by decide +kernel)
  obtain ⟨naming, links, l, paths, outlines, -, -, hl, -, hpaths, -, hcovers⟩ := pages_linked hroot hfit hm
  exact ⟨hroot, hfit, m, l, paths, outlines, hm, hl, hpaths, hcovers⟩

end Docs

end InterfacePages

/-
What stands in the modules that index the others.

The names of nodes decide about the paths of their modules, and an index has no path to itself: a name can lead to it.
The hooks of a node are merged into an index exactly if its name does (`IndexPlace.taken_iff`), and then the module
begins with imports. If no name does, the module consists of the directive, the banner and the lines that export other
modules (`index_modules`). A line exports the index itself exactly if the name in it, without leading slashes, is empty
or that of the index (`comesBack_iff`).
-/
import InterfacePages.Proofs.ClientSpecifiers
import InterfacePages.Proofs.VisitedNodes

namespace InterfacePages

open Files.Path (partsOf)

namespace Files

/-! ## Parts -/

theorem partsOf_single {t : Text} (hslash : 47 ∉ t) (hne : t ≠ []) (hpoint : t ≠ [46]) : partsOf t = [t] := by
  rw [partsOf, Text.splitOn_of_not_mem hslash]
  simp [hne, hpoint]

theorem partsOf_dropSlashes (t u : Text) : partsOf (t ++ u) = partsOf (t.dropWhile (· == 47) ++ u) := by
  induction t with
  | nil => rfl
  | cons c rest ih =>
    by_cases hc : c = 47
    · subst hc
      rw [List.dropWhile_cons_of_pos rfl, ← ih]
      exact partsOf_append [] (rest ++ u)
    · rw [List.dropWhile_cons_of_neg (by simpa using hc)]

/-- a module is a given one of its folder exactly if it has the name of it behind some slashes -/
theorem partsOf_eq_singleton {t : Text} (ht : 46 ∉ t) (name ending : Text) (hslash : 47 ∉ name ++ ending)
    (hlong : 3 ≤ ending.length) : partsOf (t ++ ending) = [name ++ ending] ↔ t.dropWhile (· == 47) = name := by
  have hending : 47 ∉ ending := fun h => hslash (List.mem_append_right _ h)
  have hsingle : ∀ u, 47 ∉ u → partsOf (u ++ ending) = [u ++ ending] := fun u hu => by
    have hlen : 3 ≤ (u ++ ending).length := by rw [List.length_append]; omega
    refine partsOf_single (fun h => (List.mem_append.1 h).elim hu hending) ?_ ?_
    · exact List.ne_nil_of_length_pos (by omega)
    · exact fun h => absurd (congrArg List.length h) (by rw [List.length_singleton]; omega)
  rw [partsOf_dropSlashes]
  constructor
  · intro h
    by_cases hrest : 47 ∈ t.dropWhile (· == 47)
    · -- there would be a part before the slash, and more behind it
      obtain ⟨first, rest, heq, hfirst⟩ := List.eq_append_cons_of_mem hrest
      have hne : first ≠ [] := by
        rintro rfl
        have hhead := List.head?_dropWhile_not (· == 47) t
        rw [heq] at hhead
        simp at hhead
      have hpoint : 46 ∉ first ++ 47 :: rest := heq ▸ fun h => ht ((List.dropWhile_suffix _).subset h)
      rw [List.mem_append, List.mem_cons, not_or, not_or] at hpoint
      rw [heq, List.append_assoc, List.cons_append, partsOf_append,
        partsOf_single hfirst hne fun h => hpoint.1 (h ▸ List.mem_singleton_self _)] at h
      exact absurd (List.cons.inj h).2 (partsOf_name hpoint.2.2 hending hlong).1
    · rw [hsingle _ hrest] at h
      exact List.append_cancel_right (List.cons.inj h).1
  · rintro rfl
    exact hsingle _ fun h => hslash (List.mem_append_left _ h)

end Files

namespace Hooks

open ImportTable (Line lineText)
open PageMap (Draft Holds contentsAt importsAt)

/-! ## Places -/

/-- where an index stands: its folder, the nodes of a root that it lists, and the names that lead there, by kind -/
structure IndexPlace where
  folder : Text
  listed : Node → Except Fault (List Node)
  taken : List (Kind × Text)

def accountsAndPrograms (r : Node) : Except Fault (List Node) := do
  let programs ← r.programs
  return (← r.accounts) ++ programs

def indexPlaces : List IndexPlace := [
  ⟨hooksFolder, accountsAndPrograms, [(.account, "index"), (.program, "index")]⟩,
  ⟨instructionFolder, Node.leafInstructions,
    [(.instruction, "index"), (.account, "instructions/index"), (.program, "instructions/index")]⟩,
  ⟨addressFolder, Node.pdas, [(.pda, "index"), (.account, "pdas/index"), (.program, "pdas/index")]⟩]

namespace IndexPlace

def path (place : IndexPlace) : Text := modulePath place.folder "index"

/-- the name of a node leads to the path of the index -/
def TakenBy (place : IndexPlace) (n : Node) : Prop :=
  ∃ k name, n.isKind k = true ∧ n.nameText = .ok name ∧ (k, Name.camelCase name) ∈ place.taken

/-- some visited root lists a node that is exported under a name -/
def Exports (place : IndexPlace) (root : Node) (t : Text) : Prop :=
  ∃ r ns n name, Visited root r ∧ r.isKind .root = true ∧ place.listed r = .ok ns ∧ n ∈ ns ∧ n.nameText = .ok name ∧
    Name.camelCase name = t

end IndexPlace

theorem modulePath_inj {folder t u : Text} : modulePath folder t = modulePath folder u ↔ t = u := by
  unfold modulePath
  rw [List.append_left_inj, List.append_right_inj]

/-- a module in a long folder begins with what the folder begins with -/
theorem modulePath_ne {folder path : Text} (hlong : 9 ≤ folder.length) (hne : folder.take 9 ≠ path.take 9) (t : Text) :
    modulePath folder t ≠ path := by
  rintro rfl
  refine hne ?_
  unfold modulePath
  rw [List.append_assoc, List.append_assoc, List.take_append_of_le_length hlong]

/-- **A name leads to an index exactly if it is among those that are told to.** -/
theorem IndexPlace.taken_iff {place : IndexPlace} (hplace : place ∈ indexPlaces) {k : Kind}
    (hk : k ∈ Kind.program :: memberKinds) {t : Text} :
    modulePath (folderOf k) t = place.path ↔ (k, t) ∈ place.taken := by
  -- below the folder of all hooks the other indexes have names, too
  have hinstructions : modulePath instructionFolder "index" = modulePath hooksFolder "instructions/index" := by decide
  have haddresses : modulePath addressFolder "index" = modulePath hooksFolder "pdas/index" := by decide
  have hlong : 9 ≤ instructionFolder.length ∧ 9 ≤ addressFolder.length := by decide
  simp only [indexPlaces, List.mem_cons, List.not_mem_nil, or_false] at hplace
  simp only [memberKinds, List.mem_cons, List.not_mem_nil, or_false] at hk
  rcases hplace with rfl | rfl | rfl
  · rcases hk with rfl | rfl | rfl | rfl
    · simp [IndexPlace.path, folderOf, modulePath_inj]
    · simp [IndexPlace.path, folderOf, modulePath_inj]
    · simpa [folderOf] using modulePath_ne hlong.1 (by decide) t
    · simpa [folderOf] using modulePath_ne hlong.2 (by decide) t
  · rcases hk with rfl | rfl | rfl | rfl
    · simp [IndexPlace.path, folderOf, hinstructions, modulePath_inj]
    · simp [IndexPlace.path, folderOf, hinstructions, modulePath_inj]
    · simp [IndexPlace.path, folderOf, modulePath_inj]
    · simpa [folderOf] using modulePath_ne hlong.2 (by decide) t
  · rcases hk with rfl | rfl | rfl | rfl
    · simp [IndexPlace.path, folderOf, haddresses, modulePath_inj]
    · simp [IndexPlace.path, folderOf, haddresses, modulePath_inj]
    · simpa [folderOf] using modulePath_ne hlong.1 (by decide) t
    · simp [IndexPlace.path, folderOf, modulePath_inj]

theorem kind_of_taken : ∀ place ∈ indexPlaces, ∀ e ∈ place.taken, e.1 ∈ Kind.program :: memberKinds := by decide

theorem indexPlaces_inj {place place' : IndexPlace} (h : place ∈ indexPlaces) (h' : place' ∈ indexPlaces)
    (heq : place.path = place'.path) : place = place' :=
  List.inj_on_of_nodup_map (show (indexPlaces.map IndexPlace.path).Nodup by decide) h h' heq

/-! ## Lines that come back -/

/-- the specifier by which an index exports a name leads from a folder to the folder's index: as a module, or as a
folder with an index -/
def ComesBack (folder t : Text) : Prop :=
  ∃ file ∈ [t, t ++ "/index"],
    Location.of (partsOf folder) ("./" ++ (file ++ ".ts")) = Location.of (partsOf folder) "index.ts"

/-- a specifier that never leads back leads on from a folder -/
theorem location_plain (folders : List Text) {specifier : Text} (h : Text.ofString ".." ∉ partsOf specifier) :
    Location.of folders specifier = ⟨0, folders ++ partsOf specifier⟩ := by
  unfold Location.of
  generalize partsOf specifier = parts at h
  induction parts generalizing folders with
  | nil =>
    rw [List.append_nil]
    rfl
  | cons part rest ih =>
    rw [List.mem_cons, not_or] at h
    rw [List.foldl_cons, Location.step, if_neg (Ne.symm h.1), ih _ h.2, List.append_assoc, List.singleton_append]

/-- **A line comes back exactly if its name, without leading slashes, is empty or that of the index.** -/
theorem comesBack_iff {folder t : Text} (ht : 46 ∉ t) :
    ComesBack folder t ↔ t.dropWhile (· == 47) = [] ∨ t.dropWhile (· == 47) = Text.ofString "index" := by
  have hfile : ∀ file, 46 ∉ file →
      (Location.of (partsOf folder) ("./" ++ (file ++ ".ts")) = Location.of (partsOf folder) "index.ts" ↔
        file.dropWhile (· == 47) = Text.ofString "index") := fun file hf => by
    have hparts : partsOf ("./" ++ (file ++ ".ts")) = partsOf (file ++ ".ts") := Files.partsOf_append "." _
    have hno : Text.ofString ".." ∉ partsOf (file ++ ".ts") := (Files.partsOf_name hf (by decide) (by decide)).2
    rw [location_plain _ (hparts ▸ hno), location_plain _ (by decide), hparts, Location.mk.injEq, List.append_right_inj]
    simp only [true_and]
    exact Files.partsOf_eq_singleton hf "index" ".ts" (by decide) (by decide)
  have hindex : 46 ∉ t ++ "/index" := fun h => (List.mem_append.1 h).elim ht (by decide)
  simp only [ComesBack, List.mem_cons, List.not_mem_nil, or_false, exists_eq_or_imp, exists_eq_left, hfile t ht,
    hfile _ hindex, List.dropWhile_append]
  by_cases hempty : t.dropWhile (· == 47) = []
  · rw [hempty]
    decide
  · have hlong : t.dropWhile (· == 47) ++ Text.ofString "/index" ≠ Text.ofString "index" := fun h => by
      have hlength := congrArg List.length h
      rw [List.length_append] at hlength
      exact absurd hlength (Nat.ne_of_gt (Nat.lt_of_lt_of_le (by decide) (Nat.le_add_left _ _)))
    simp [hempty, hlong]

/-! ## Lines of indexes -/

theorem exportLines_inj {names names' : List Text} (hne : names ≠ []) (hne' : names' ≠ [])
    (h : ∀ name ∈ names, 10 ∉ name) (h' : ∀ name ∈ names', 10 ∉ name) (heq : exportLines names = exportLines names') :
    names = names' := by
  have hlines := congrArg (Text.splitOn 10) heq
  rw [splitOn_exportLines hne h, splitOn_exportLines hne' h'] at hlines
  refine List.map_injective_iff.2 (fun t u htu => ?_) hlines
  exact List.append_cancel_left (List.append_cancel_right htu)

/-! ## Drafts of indexes -/

section

variable {naming : Naming} {links : LinkTable} {root : Node} {ds : List Draft}

/-- what a root lists for an index are visited nodes that have hooks -/
theorem visited_of_listed {r : Node} (hr : r.isKind .root = true) (hinner : ∀ n, Visited r n → ∃ ms, inner n = .ok ms)
    {place : IndexPlace} (hplace : place ∈ indexPlaces) {ns : List Node} (h : place.listed r = .ok ns) :
    ∀ n ∈ ns, Visited r n ∧ ∃ k ∈ Kind.program :: memberKinds, n.isKind k = true := by
  intro n hn
  simp only [indexPlaces, List.mem_cons, List.not_mem_nil, or_false] at hplace
  rcases hplace with rfl | rfl | rfl
  · obtain ⟨programs, hprograms, h⟩ := except_bind_ok.1 h
    obtain ⟨accounts, haccounts, h⟩ := except_bind_ok.1 h
    cases h
    rcases List.mem_append.1 hn with hn | hn
    · exact ⟨visited_of_members hr hinner (.inr rfl) haccounts n hn, .account, by decide,
        Node.isKind_of_members haccounts n hn⟩
    · exact ⟨visited_of_programs hr hprograms n hn, .program, by decide, Node.isKind_of_programs hprograms n hn⟩
  · exact ⟨visited_of_leafInstructions hr hinner h n hn, .instruction, by decide, Node.isKind_of_leafInstructions h n hn⟩
  · exact ⟨visited_of_members hr hinner (.inl rfl) h n hn, .pda, by decide, Node.isKind_of_members h n hn⟩

def IndexPlace.draft (place : IndexPlace) (r : Node) : Except Fault (List Draft) := do
  indexDraft place.folder (← place.listed r)

theorem indexDrafts_eq (r : Node) : indexDrafts r = indexPlaces.mapM (·.draft r) := by
  simp only [indexDrafts, indexPlaces, IndexPlace.draft, accountsAndPrograms, List.mapM_cons, List.mapM_nil, bind_assoc,
    pure_bind]

/-- the names of what a visited root lists for an index -/
theorem names_of_listed {depth : Nat} {above : NodeStack} (h : drafts naming links depth above root = .ok ds) {r : Node}
    (hvisited : Visited root r) (hr : r.isKind .root = true) {place : IndexPlace} (hplace : place ∈ indexPlaces)
    {ns : List Node} (hns : place.listed r = .ok ns) : ∃ names, ns.mapM Node.nameText = .ok names := by
  have hgather := h
  rw [drafts_eq_gather] at hgather
  refine exists_mapM_ok fun n hn => ?_
  obtain ⟨hn, k, hk, hkind⟩ := visited_of_listed hr
    (fun n hn => ((gather_visited hgather).1 n (hvisited.trans hn)).1) hplace hns n hn
  obtain ⟨-, name, -, hname, -⟩ := ownDrafts_of_visited h (hvisited.trans hn) hk hkind
  exact ⟨name, hname⟩

/-- the draft of an index of nodes with names -/
theorem mem_indexDraft {folder : Text} {ns : List Node} {names : List Text} (hnames : ns.mapM Node.nameText = .ok names)
    {here : List Draft} (h : indexDraft folder ns = .ok here) {d : Draft} :
    d ∈ here ↔ names ≠ [] ∧ d = (modulePath folder "index", indexBody (exportedNames names)) := by
  obtain ⟨body, hbody, h⟩ := except_bind_ok.1 h
  cases h
  rw [index_eq hnames] at hbody
  cases hbody
  cases mapM_eq_ok.1 hnames with
  | nil => simp
  | cons _ _ => simp

/-- the drafts of a visited root are indexes of what it lists -/
theorem mem_nodeDrafts_root {depth : Nat} {above outer : NodeStack} (h : drafts naming links depth above root = .ok ds)
    {r : Node} (hvisited : Visited root r) (hr : r.isKind .root = true) {here : List Draft}
    (hhere : nodeDrafts naming links outer r = .ok here) {d : Draft} :
    d ∈ here ↔ ∃ place ∈ indexPlaces, ∃ ns names, place.listed r = .ok ns ∧ ns.mapM Node.nameText = .ok names ∧
      names ≠ [] ∧ d = (place.path, indexBody (exportedNames names)) := by
  unfold nodeDrafts at hhere
  rw [beq_iff_eq.1 hr] at hhere
  obtain ⟨dss, hdss, hhere⟩ := except_bind_ok.1 hhere
  cases hhere
  rw [indexDrafts_eq] at hdss
  have hpairs := mapM_eq_ok.1 hdss
  rw [List.mem_flatten]
  constructor
  · rintro ⟨drafts, hdrafts, hd⟩
    obtain ⟨place, hplace, hindex⟩ := exists_of_forall₂ hpairs hdrafts
    obtain ⟨ns, hns, hindex⟩ := except_bind_ok.1 hindex
    obtain ⟨names, hnames⟩ := names_of_listed h hvisited hr hplace hns
    exact ⟨place, hplace, ns, names, hns, hnames, (mem_indexDraft hnames hindex).1 hd⟩
  · rintro ⟨place, hplace, ns, names, hns, hnames, hd⟩
    obtain ⟨drafts, hdrafts, hindex⟩ := exists_of_forall₂ hpairs.flip hplace
    obtain ⟨_, hns', hindex⟩ := except_bind_ok.1 hindex
    cases hns.symm.trans hns'
    exact ⟨drafts, hdrafts, (mem_indexDraft hnames hindex).2 hd⟩

/-- a draft is an index of names that are exported at a place -/
structure IndexPlace.Lists (place : IndexPlace) (root : Node) (names : List Text) (d : Draft) : Prop where
  nonempty : names ≠ []
  exported : ∀ t ∈ names, place.Exports root t
  draft : d = (place.path, indexBody names)

theorem IndexPlace.Lists.unique {place : IndexPlace} {names names' : List Text} {d : Draft}
    (h : place.Lists root names d) (h' : place.Lists root names' d) : names = names' := by
  have hsolid : ∀ {t}, place.Exports root t → 10 ∉ t := fun ht hmem => by
    obtain ⟨_, _, _, name, _, _, _, _, _, rfl⟩ := ht
    exact absurd (Name.solid_camelCase name 10 hmem) (by decide)
  have hbody := congrArg (fun d : Draft => d.2.content) (h.draft.symm.trans h'.draft)
  exact exportLines_inj h.nonempty h'.nonempty (fun t ht => hsolid (h.exported t ht))
    (fun t ht => hsolid (h'.exported t ht)) hbody

/-- what stands on the path of an index -/
structure IndexPlace.Holds (place : IndexPlace) (naming : Naming) (links : LinkTable) (root : Node) (ds : List Draft) :
    Prop where
  /-- whatever stands there is an index, or has the hooks of a node whose name leads there -/
  source : ∀ d ∈ ds, d.1 = place.path → (∃ names, place.Lists root names d) ∨
    ∃ n outer, Visited root n ∧ place.TakenBy n ∧ ownDrafts naming links outer n = .ok [d]
  /-- every name is exported -/
  exports : ∀ t, place.Exports root t → ∃ d ∈ ds, ∃ names, place.Lists root names d ∧ t ∈ names
  /-- every node whose name leads there has its hooks there -/
  hooks : ∀ n, Visited root n → place.TakenBy n → ∃ d ∈ ds, d.1 = place.path ∧
    ∃ outer, ownDrafts naming links outer n = .ok [d]

theorem holds_of_drafts {depth : Nat} {above : NodeStack} (h : drafts naming links depth above root = .ok ds)
    {place : IndexPlace} (hplace : place ∈ indexPlaces) : place.Holds naming links root ds := by
  have hgather := h
  rw [drafts_eq_gather] at hgather
  obtain ⟨hkept, hsource⟩ := gather_visited hgather
  -- an index of a visited root lists exported names
  have hlists : ∀ {r ns names}, Visited root r → r.isKind .root = true → place.listed r = .ok ns →
      ns.mapM Node.nameText = .ok names → names ≠ [] →
      place.Lists root (exportedNames names) (place.path, indexBody (exportedNames names)) := by
    intro r ns names hvisited hr hns hnames hne
    refine ⟨mt exportedNames_eq_nil.1 hne, fun t ht => ?_, rfl⟩
    obtain ⟨name, hname, ht⟩ := mem_exportedNames.1 ht
    obtain ⟨m, hm, hmname⟩ := exists_of_forall₂ (mapM_eq_ok.1 hnames) hname
    exact ⟨r, ns, m, name, hvisited, hr, hns, hm, hmname, ht⟩
  refine ⟨fun d hd hpath => ?_, fun t ht => ?_, fun n hn htaken => ?_⟩
  · obtain ⟨n, outer, here, hn, hown, hd⟩ := hsource d hd
    cases hkind : n.isKind .root with
    | true =>
      obtain ⟨place', hplace', ns, names, hns, hnames, hne, rfl⟩ := (mem_nodeDrafts_root h hn hkind hown).1 hd
      obtain rfl := indexPlaces_inj hplace' hplace hpath
      exact .inl ⟨_, hlists hn hkind hns hnames hne⟩
    | false =>
      rw [nodeDrafts_own hkind] at hown
      obtain ⟨k, hk, hnk⟩ := isKind_of_ownDrafts hown (List.ne_nil_of_mem hd)
      obtain ⟨name, body, hname, rfl⟩ := ownDrafts_ok hk hnk hown
      obtain rfl := List.mem_singleton.1 hd
      exact .inr ⟨n, outer, hn, ⟨k, name, hnk, hname, (IndexPlace.taken_iff hplace hk).1 hpath⟩, hown⟩
  · obtain ⟨r, ns, n, name, hvisited, hr, hns, hn, hname, ht⟩ := ht
    obtain ⟨-, outer, here, hown, hsub⟩ := hkept r hvisited
    obtain ⟨names, hnames⟩ := names_of_listed h hvisited hr hplace hns
    obtain ⟨name', hmem, hname'⟩ := exists_of_forall₂ (mapM_eq_ok.1 hnames).flip hn
    cases hname.symm.trans hname'
    have hne := List.ne_nil_of_mem hmem
    refine ⟨_, hsub ?_, _, hlists hvisited hr hns hnames hne, mem_exportedNames.2 ⟨name, hmem, ht⟩⟩
    exact (mem_nodeDrafts_root h hvisited hr hown).2 ⟨place, hplace, ns, names, hns, hnames, hne, rfl⟩
  · obtain ⟨k, name, hnk, hname, htaken⟩ := htaken
    have hk := kind_of_taken place hplace _ htaken
    obtain ⟨outer, name', body, hname', hown, hd⟩ := ownDrafts_of_visited h hn hk hnk
    cases hname.symm.trans hname'
    exact ⟨_, hd, (IndexPlace.taken_iff hplace hk).2 htaken, outer, hown⟩

end

/-! ## Imports of hooks -/

/-- a fragment imports something -/
def Imports (f : Fragment) : Prop := f.imports.keys ≠ []

theorem withImports_imports (lines : List Text) {needs : Needs} (h : neededKeys needs ≠ []) :
    Answers Imports (withImports lines needs) := fun f hf hempty => by
  obtain ⟨k, hk⟩ := List.exists_mem_of_ne_nil _ h
  have hkey := ((withImports_eq_ok hf).2 k).2 hk
  rw [hempty] at hkey
  exact absurd hkey List.not_mem_nil

theorem paragraphs_import {f : Fragment} {fs : List Fragment} (hmem : f ∈ fs) (hf : Imports f) :
    Imports (Fragment.paragraphs fs) := by
  obtain ⟨k, hk⟩ := List.exists_mem_of_ne_nil _ hf
  exact List.ne_nil_of_mem (ImportTable.mem_keys_merge.2 ⟨f.imports, List.mem_map_of_mem hmem, hk⟩)

/-- whatever the names are, the hooks of a node import something -/
theorem ownDrafts_import (naming : Naming) (links : LinkTable) (above : NodeStack) (n : Node) :
    Answers (fun ds => ∀ d ∈ ds, Imports d.2) (ownDrafts naming links above n) := by
  have hmember : ∀ {folder : Text} {x : Except Fault Fragment}, Answers Imports x →
      Answers (fun ds => ∀ d ∈ ds, Imports d.2) (do memberDrafts folder n (← x)) := fun hx =>
    hx.bind fun body hbody => .after _ fun name => .ok (List.forall_mem_singleton.2 hbody)
  unfold ownDrafts
  split
  · refine hmember (Answers.bind (P := Imports) ?_ fun watch hwatch => .after _ fun derived => .after _ fun batch => ?_)
    · refine .after _ fun data => .after _ fun decoder => .after _ fun hook => withImports_imports _ ?_
      exact List.cons_ne_nil _ _
    · exact .ok (paragraphs_import (List.mem_cons_self) hwatch)
  · refine hmember (.after _ fun constant => .after _ fun errors => ?_)
    split
    · exact .after _ fun hook => withImports_imports _ (List.cons_ne_nil _ _)
    · refine .after _ fun isError => .after _ fun getMessage => .after _ fun union => .after _ fun hook => ?_
      exact withImports_imports _ (List.cons_ne_nil _ _)
  · refine hmember (.after _ fun build => .after _ fun input => .after _ fun hook => withImports_imports _ ?_)
    exact List.cons_ne_nil _ _
  · refine hmember (.after _ fun find => .after _ fun seeds => .after _ fun given => .after _ fun hook => ?_)
    exact withImports_imports _ (List.cons_ne_nil _ _)
  · exact .ok fun d hd => absurd hd List.not_mem_nil

/-! ## Barrels -/

def header : List Text := ["'use client';", banner]

/-- a content has a directive, a banner and lines that export modules, nothing else, and these are the modules with the
exported names -/
def Barrel (content : Text) (exported : Text → Prop) : Prop :=
  ∃ blocks : List (List Text), blocks ≠ [] ∧ (∀ names ∈ blocks, names ≠ []) ∧
    (∀ t, exported t ↔ ∃ names ∈ blocks, t ∈ names) ∧
    content = Text.joinParagraphs (header ++ blocks.map exportLines) ++ "\n"

theorem joinParagraphs_header {rest : List Text} (h : rest ≠ []) :
    Text.joinParagraphs (header ++ rest) =
      Text.joinParagraphs header ++ ("\n\n" ++ Text.joinParagraphs rest) :=
  Text.joinWith_append _ (List.cons_ne_nil _ _) h

/-- without imports nothing stands above the lines of an index -/
theorem barrel_moduleText {blocks : List (List Text)} (hne : blocks ≠ []) (hnames : ∀ names ∈ blocks, names ≠ [])
    {exported : Text → Prop} (hexported : ∀ t, exported t ↔ ∃ names ∈ blocks, t ∈ names) :
    Barrel (moduleText [] (Text.joinParagraphs (blocks.map exportLines))) exported := by
  refine ⟨blocks, hne, hnames, hexported, ?_⟩
  have hmap : blocks.map exportLines ≠ [] := mt List.map_eq_nil_iff.1 hne
  have htrim : Text.trimBoth (· == 10) (Text.joinParagraphs (blocks.map exportLines)) =
      Text.joinParagraphs (blocks.map exportLines) := by
    obtain ⟨names, rest, rfl⟩ := List.exists_cons_of_ne_nil hne
    refine Text.trimBoth_eq_self (fun c hc => ?_) fun c hc => ?_
    · rw [List.map_cons, Text.joinParagraphs,
        Text.head?_joinWith _ (head?_exportLines (hnames names List.mem_cons_self))] at hc
      cases hc
      rfl
    · rw [Text.joinParagraphs, Text.getLast?_joinWith _ hmap fun t ht => by
        obtain ⟨names, hmem, rfl⟩ := List.mem_map.1 ht
        exact getLast?_exportLines (hnames names hmem)] at hc
      cases hc
      rfl
  change Text.joinParagraphs (header ++ [Text.trimBoth (· == 10) _]) ++ Text.ofString "\n" = _
  rw [htrim, joinParagraphs_header hmap, joinParagraphs_header (List.cons_ne_nil _ [])]
  rfl

/-- behind its banner a barrel goes on with a line that exports -/
theorem Barrel.beginning {content : Text} {exported : Text → Prop} (h : Barrel content exported) :
    ∃ rest, content = Text.joinParagraphs header ++ (Text.ofString "\n\n" ++ 101 :: rest) := by
  obtain ⟨blocks, hne, hnames, -, rfl⟩ := h
  obtain ⟨names, rest, rfl⟩ := List.exists_cons_of_ne_nil hne
  have hhead : (Text.joinParagraphs ((names :: rest).map exportLines)).head? = some 101 :=
    Text.head?_joinWith _ (head?_exportLines (hnames names List.mem_cons_self)) _
  obtain ⟨tail, htail⟩ := List.head?_eq_some_iff.1 hhead
  rw [joinParagraphs_header (by simp), htail]
  exact ⟨tail ++ "\n", by simp only [List.append_assoc, List.cons_append]⟩

/-- statements of imports stand where a barrel would have its lines -/
theorem not_barrel_moduleText {lines : List Line} (h : lines ≠ []) (hooks : Text) (exported : Text → Prop) :
    ¬ Barrel (moduleText lines hooks) exported := by
  intro hbarrel
  obtain ⟨rest, hrest⟩ := hbarrel.beginning
  obtain ⟨line, others, rfl⟩ := List.exists_cons_of_ne_nil h
  have htext : moduleText (line :: others) hooks = Text.joinParagraphs (header ++
      [Text.joinLines ((line :: others).map lineText), Text.trimBoth (· == 10) hooks]) ++ "\n" := rfl
  have hhead : (Text.joinParagraphs [Text.joinLines ((line :: others).map lineText),
      Text.trimBoth (· == 10) hooks]).head? = some 105 := Text.head?_joinWith _ (Text.head?_joinWith _ rfl _) _
  obtain ⟨tail, htail⟩ := List.head?_eq_some_iff.1 hhead
  rw [htext, joinParagraphs_header (List.cons_ne_nil _ _), htail] at hrest
  simp only [List.append_assoc, List.append_cancel_left_eq, List.cons_append, List.cons.injEq] at hrest
  exact absurd hrest.1 (by decide)

/-! ## Modules -/

section

variable {naming : Naming} {links : LinkTable} {root : Node} {ds : List Draft} {place : IndexPlace}

theorem importsAt_eq_nil {path : Text} :
    importsAt path ds = [] ↔ ∀ d ∈ ds, d.1 = path → d.2.imports.keys = [] := by
  simp only [importsAt, List.flatMap_eq_nil_iff, List.mem_filter, decide_eq_true_eq, and_imp, OrderedMap.keys,
    List.map_eq_nil_iff]

/-- without hooks on its path, an index consists of lines that export -/
theorem IndexPlace.Holds.contents (h : place.Holds naming links root ds)
    (hfree : ∀ n, Visited root n → ¬ place.TakenBy n) (hpath : place.path ∈ ds.map Prod.fst) :
    ∃ blocks : List (List Text), blocks ≠ [] ∧ (∀ names ∈ blocks, names ≠ []) ∧
      (∀ t, place.Exports root t ↔ ∃ names ∈ blocks, t ∈ names) ∧
      contentsAt place.path ds = blocks.map exportLines := by
  have hindex : ∀ d ∈ ds, d.1 = place.path → ∃ names, place.Lists root names d := fun d hd hp =>
    (h.source d hd hp).resolve_right fun ⟨n, _, hn, htaken, _⟩ => hfree n hn htaken
  choose! names hnames using hindex
  have hblock : ∀ b, b ∈ (ds.filter fun d => decide (d.1 = place.path)).map names ↔
      ∃ d ∈ ds, d.1 = place.path ∧ names d = b := fun b => by
    simp only [List.mem_map, List.mem_filter, decide_eq_true_eq, and_assoc]
  refine ⟨(ds.filter fun d => decide (d.1 = place.path)).map names, ?_, fun b hb => ?_, fun t => ⟨fun ht => ?_, ?_⟩, ?_⟩
  · obtain ⟨d, hd, hp⟩ := List.mem_map.1 hpath
    exact List.ne_nil_of_mem ((hblock _).2 ⟨d, hd, hp, rfl⟩)
  · obtain ⟨d, hd, hp, rfl⟩ := (hblock b).1 hb
    exact (hnames d hd hp).nonempty
  · obtain ⟨d, hd, listed, hlists, ht⟩ := h.exports t ht
    have hp : d.1 = place.path := congrArg Prod.fst hlists.draft
    rw [hlists.unique (hnames d hd hp)] at ht
    exact ⟨names d, (hblock _).2 ⟨d, hd, hp, rfl⟩, ht⟩
  · rintro ⟨b, hb, ht⟩
    obtain ⟨d, hd, hp, rfl⟩ := (hblock b).1 hb
    exact (hnames d hd hp).exported t ht
  · rw [contentsAt, List.map_map]
    refine List.map_congr_left fun d hd => ?_
    rw [List.mem_filter, decide_eq_true_eq] at hd
    have hbody := congrArg (fun d : Draft => d.2.content) (hnames d hd.1 hd.2).draft
    exact hbody

/-- nothing on the path of an index imports anything exactly if there are no hooks -/
theorem IndexPlace.Holds.importsAt_eq_nil (h : place.Holds naming links root ds) :
    importsAt place.path ds = [] ↔ ∀ n, Visited root n → ¬ place.TakenBy n := by
  rw [Hooks.importsAt_eq_nil]
  constructor
  · intro hnone n hn htaken
    obtain ⟨d, hd, hp, outer, hown⟩ := h.hooks n hn htaken
    exact ownDrafts_import naming links outer n _ hown d (List.mem_singleton_self d) (hnone d hd hp)
  · intro hfree d hd hp
    rcases h.source d hd hp with ⟨names, hlists⟩ | ⟨n, _, hn, htaken, _⟩
    · rw [hlists.draft]
      rfl
    · exact absurd htaken (hfree n hn)

/-- the module on the path of an index -/
structure IndexPlace.Module (place : IndexPlace) (root : Node) (ds : List Draft) (content : Text) : Prop where
  /-- it is made of what stands there -/
  made : ∃ lines, content = moduleText lines (Text.joinParagraphs (contentsAt place.path ds))
  /-- it exports and does nothing else exactly if no name leads there -/
  barrel : Barrel content (place.Exports root) ↔ ∀ n, Visited root n → ¬ place.TakenBy n
  /-- it exports every name that is listed -/
  exports : ∀ t, place.Exports root t → exportLine t <:+: content
  /-- it exports itself by names that are empty or its own behind slashes -/
  back : ∀ t, place.Exports root t →
    (ComesBack place.folder t ↔ t.dropWhile (· == 47) = [] ∨ t.dropWhile (· == 47) = Text.ofString "index")

theorem module_of_holds (h : place.Holds naming links root ds) {merged : PageMap} (hm : Holds merged ds)
    {body : Fragment} (hb : merged.get? place.path = some body) (r : Resolver) :
    place.Module root ds (module r body).content := by
  obtain ⟨hcontent, hlines⟩ := module_text (r := r) hm hb
  rw [h.importsAt_eq_nil] at hlines
  have hpath : place.path ∈ ds.map Prod.fst := (hm.paths _).1 (OrderedMap.mem_keys.2 ⟨body, hb⟩)
  refine ⟨⟨_, hcontent⟩, ⟨fun hbarrel n hn htaken => ?_, fun hfree => ?_⟩, fun t ht => ?_, fun t ht => ?_⟩
  · rw [hcontent] at hbarrel
    exact not_barrel_moduleText (fun hnone => hlines.1 hnone n hn htaken) _ _ hbarrel
  · obtain ⟨blocks, hne, hnames, hexported, hcontents⟩ := h.contents hfree hpath
    rw [hcontent, hlines.2 hfree, hcontents]
    exact barrel_moduleText hne hnames hexported
  · obtain ⟨d, hd, names, hlists, ht⟩ := h.exports t ht
    have hmem : exportLines names ∈ contentsAt place.path ds := by
      obtain rfl := hlists.draft
      exact List.mem_map.2 ⟨_, List.mem_filter.2 ⟨hd, decide_eq_true rfl⟩, rfl⟩
    have hline : exportLine t <:+: Text.joinParagraphs (contentsAt place.path ds) :=
      (Text.infix_joinWith _ (List.mem_map_of_mem ht)).trans (Text.infix_joinWith _ hmem)
    rw [hcontent]
    exact hooks_infix_moduleText _ (Text.infix_trimBoth hline rfl rfl (getLast?_exportLine t) rfl)
  · obtain ⟨_, _, _, name, _, _, _, _, _, rfl⟩ := ht
    exact comesBack_iff (Files.no_point_in_camelCase name)

end

/-- **An index is taken by the nodes whose names lead to it, and by no others.** On the path of each of the three
indexes stand indexes of what visited roots list and the hooks of the visited nodes whose names lead there. The module
there exports and does nothing else exactly if there are no such nodes, and it exports itself exactly by names that are,
behind slashes, empty or its own. -/
theorem index_modules {options : Options} {root : Node} {m : PageMap} (h : pages options root = .ok m) :
    ∃ naming links ds, Naming.make Role.all options.transformers = .ok naming ∧
      (LinkTable.recordTree root).perform OrderedMap.empty = (.ok (), links) ∧
      drafts naming links (root.height + 1) [] root = .ok ds ∧
      ∀ place ∈ indexPlaces, place.Holds naming links root ds ∧
        ∀ page, m.get? place.path = some page → place.Module root ds page.content := by
  obtain ⟨naming, strategy, links, ds, merged, hnaming, -, hlinks, hds, hm, hmodules⟩ := pages_eq_ok h
  obtain ⟨-, hvalues⟩ := OrderedMap.tryMap_eq_ok hmodules
  refine ⟨naming, links, ds, hnaming, hlinks, hds, fun place hplace => ⟨holds_of_drafts hds hplace, fun page hp => ?_⟩⟩
  obtain ⟨body, hb, hpage⟩ := hvalues _ page hp
  obtain ⟨d, -, hpage⟩ := except_bind_ok.1 hpage
  cases hpage
  exact module_of_holds (holds_of_drafts hds hplace) hm hb _

theorem escrow_index_modules : ∃ m naming links ds, pages ⟨"../client", "granular", []⟩ Node.escrowTree = .ok m ∧
    ∀ place ∈ indexPlaces, place.Holds naming links Node.escrowTree ds ∧
      ∃ page, m.get? place.path = some page ∧ place.Module Node.escrowTree ds page.content := by
  have hpages : (pages ⟨"../client", "granular", []⟩ Node.escrowTree).toOption.any (fun m =>
      indexPlaces.all fun place => (m.get? place.path).isSome) = true := by decide +kernel
  obtain ⟨m, hm, hall⟩ := any_toOption.1 hpages
  obtain ⟨naming, links, ds, -, -, -, hplaces⟩ := index_modules hm
  refine ⟨m, naming, links, ds, hm, fun place hplace => ?_⟩
  obtain ⟨hholds, hmodule⟩ := hplaces place hplace
  obtain ⟨page, hpage⟩ := Option.isSome_iff_exists.1 (List.all_eq_true.1 hall place hplace)
  exact ⟨hholds, page, hpage, hmodule page hpage⟩

/-- a tree of two programs, one of which has the name of an index -/
def indexTree : Node :=
  .known .root (Node.fillSlots Kind.root.slots [
    (.program, .node (.known .program (Node.fillSlots Kind.program.slots [(.name, .text "index")]))),
    (.additionalPrograms, .tuple [.node (.known .program (Node.fillSlots Kind.program.slots [(.name, .text "p")]))])])

/-- the hooks of a program with the name of the index stand in the index, which exports itself -/
theorem program_enters_index : ∃ m page, pages ⟨Resolver.standardClient, "grouped-root", []⟩ indexTree = .ok m ∧
    m.get? "hooks/index.ts" = some page ∧ (∀ exported, ¬ Barrel page.content exported) ∧
    exportLine "index" ∈ Text.splitOn 10 page.content ∧ ComesBack hooksFolder "index" := by
  have hpages : (pages ⟨Resolver.standardClient, "grouped-root", []⟩ indexTree).toOption.any (fun m =>
      (m.get? "hooks/index.ts").any fun page =>
        !(Text.joinParagraphs header ++ (Text.ofString "\n\n" ++ [101])).isPrefixOf page.content &&
          (Text.splitOn 10 page.content).contains (exportLine "index")) = true := by decide +kernel
  obtain ⟨m, hm, hpage⟩ := any_toOption.1 hpages
  obtain ⟨page, hget, hpage⟩ := (Option.any_eq_true _ _).1 hpage
  rw [Bool.and_eq_true, Bool.not_eq_true', List.contains_iff_mem] at hpage
  refine ⟨m, page, hm, hget, fun exported hbarrel => ?_, hpage.2, ?_⟩
  · obtain ⟨rest, hrest⟩ := hbarrel.beginning
    have hprefix : Text.joinParagraphs header ++ (Text.ofString "\n\n" ++ [101]) <+: page.content :=
      ⟨rest, by rw [hrest]; simp only [List.append_assoc, List.singleton_append]⟩
    rw [← List.isPrefixOf_iff_prefix, hpage.1] at hprefix
    cases hprefix
  · exact (comesBack_iff (by decide)).2 (.inr rfl)

end Hooks

end InterfacePages

/-
Where the pages of a tree are put.

A name in camel case has no point in it, so no part of a path made of it can lead back, and its last part ends with
something that is no point alone. Whatever the names in a tree, every page stays below the folder that the pages are
written to (`pages_stay_below`): documentation in the top folder or in the folder of a family, hooks in the folder of
all hooks, whose depth can therefore always be told.
-/
import InterfacePages.Node.Decode
import InterfacePages.Proofs.DocsDrafts
import InterfacePages.Proofs.HookDrafts
import InterfacePages.Proofs.NameCharacters

namespace InterfacePages

namespace Files

/-- a text writes the path of a page that leads on from some folders -/
def StrictlyBelow (folders : List Text) (t : Text) : Prop :=
  ∃ p rest, Path.ofPage t = .ok p ∧ p.parts = folders ++ rest ∧ rest ≠ []

theorem rootOf_relative {c : Nat} (hc : c ≠ 47) (t : Text) : Path.rootOf (c :: t) = .relative := by
  unfold Path.rootOf
  split
  · next h => exact absurd (List.cons.inj h).1 hc
  · next h => exact absurd (List.cons.inj h).1 hc
  · next h => exact absurd (List.cons.inj h).1 hc
  · rfl

theorem partsOf_append (t u : Text) : Path.partsOf (t ++ 47 :: u) = Path.partsOf t ++ Path.partsOf u := by
  unfold Path.partsOf
  rw [Text.splitOn_append_cons, List.filter_append]

/-- parts of a name without points and of its ending: there is one, and none leads back -/
theorem partsOf_name {name ending : Text} (hname : 46 ∉ name) (hslash : 47 ∉ ending) (hlong : 3 ≤ ending.length) :
    Path.partsOf (name ++ ending) ≠ [] ∧ Text.ofString ".." ∉ Path.partsOf (name ++ ending) := by
  obtain ⟨pieces, last, hs, happend⟩ := Text.splitOn_append 47 name
  have hlen : 3 ≤ (last ++ ending).length := by
    rw [List.length_append]
    omega
  unfold Path.partsOf
  rw [happend ending hslash]
  refine ⟨List.ne_nil_of_mem (a := last ++ ending) ?_, fun h => ?_⟩
  · refine List.mem_filter.2 ⟨List.mem_append_right _ (List.mem_singleton.2 rfl), ?_⟩
    match last ++ ending, hlen with
    | _ :: _ :: _ :: _, _ => simp
  · rcases List.mem_append.1 (List.mem_filter.1 h).1 with h | h
    · have hsub : Text.ofString ".." ⊆ name := Text.mem_of_splitOn (c := 47) (by rw [hs]; exact List.mem_append_left _ h)
      exact hname (hsub (by decide))
    · rw [← List.mem_singleton.1 h] at hlen
      revert hlen
      decide

/-- a page in a folder, named after something without points -/
theorem strictlyBelow_of_name {folder name ending : Text} {folders : List Text} (hparts : Path.partsOf folder = folders)
    (hback : Text.ofString ".." ∉ folders) (hroot : ∃ c t, folder = c :: t ∧ c ≠ 47) (hname : 46 ∉ name)
    (hslash : 47 ∉ ending) (hlong : 3 ≤ ending.length) :
    StrictlyBelow folders (folder ++ "/" ++ name ++ ending) := by
  obtain ⟨c, t, rfl, hc⟩ := hroot
  obtain ⟨hne, hno⟩ := partsOf_name hname hslash hlong
  have hsplit : c :: t ++ "/" ++ name ++ ending = c :: t ++ 47 :: (name ++ ending) := by
    rw [List.append_assoc, List.append_assoc]
    rfl
  rw [hsplit]
  have hp : (Path.ofText (c :: t ++ 47 :: (name ++ ending))).parts = folders ++ Path.partsOf (name ++ ending) := by
    rw [← hparts]
    exact partsOf_append _ _
  refine ⟨Path.ofText (c :: t ++ 47 :: (name ++ ending)), Path.partsOf (name ++ ending), ?_, hp, hne⟩
  have hinside : (Path.ofText (c :: t ++ 47 :: (name ++ ending))).isInside = true := by
    unfold Path.isInside
    rw [hp]
    have hrel : (Path.ofText (c :: t ++ 47 :: (name ++ ending))).root = .relative := rootOf_relative hc _
    have hmem : Text.ofString ".." ∉ folders ++ Path.partsOf (name ++ ending) :=
      fun h => (List.mem_append.1 h).elim hback hno
    have hemp : (folders ++ Path.partsOf (name ++ ending)).isEmpty = false := by
      rw [List.isEmpty_eq_false_iff]
      exact List.append_ne_nil_of_right_ne_nil _ hne
    simp only [hrel, hemp, beq_self_eq_true, Bool.not_false, Bool.and_true, Bool.true_and, Bool.not_eq_true',
      List.contains_eq_mem, decide_eq_false_iff_not]
    exact hmem
  unfold Path.ofPage Path.inside
  rw [if_pos hinside]

theorem no_point_in_camelCase (name : Text) : 46 ∉ Name.camelCase name := by
  intro h
  have hs := Name.solid_camelCase name 46 h
  revert hs
  decide

end Files

open PageMap (Draft)

/-- every draft is for a path that satisfies a condition -/
def AllOn (P : Text → Prop) (ds : List Draft) : Prop := ∀ d ∈ ds, P d.1

variable {P : Text → Prop}

theorem AllOn.flatten {dss : List (List Draft)} (h : ∀ ds ∈ dss, AllOn P ds) : AllOn P dss.flatten := by
  intro d hd
  obtain ⟨ds, hds, hd⟩ := List.mem_flatten.1 hd
  exact h ds hds d hd

theorem AllOn.singleton {path : Text} (h : P path) (body : Fragment) : AllOn P [(path, body)] :=
  fun _ hd => List.mem_singleton.1 hd ▸ h

theorem AllOn.ofOption {path : Text} (h : P path) (body : Option Fragment) :
    AllOn P (body.toList.map fun body => (path, body)) := by
  intro d hd
  obtain ⟨body, _, rfl⟩ := List.mem_map.1 hd
  exact h

theorem AllOn.pages {m : PageMap} {ds : List Draft} (h : AllOn P ds) (hm : PageMap.Holds m ds) : ∀ path ∈ m.keys, P path := by
  intro path hp
  obtain ⟨d, hd, rfl⟩ := List.mem_map.1 ((hm.paths path).1 hp)
  exact h d hd

theorem answers_eachNode {f : Node → Except Fault (List Draft)} (h : ∀ n, Answers (AllOn P) (f n)) (vs : List Value) :
    Answers (fun dss => ∀ ds ∈ dss, AllOn P ds) (eachNode f vs) := by
  have hone : ∀ v : Value, Answers (AllOn P) (do f (← v.asNode)) := fun v => .after v.asNode h
  exact Answers.mapM hone vs

/-! ## Documentation -/

namespace Docs

open Files (StrictlyBelow)

def familyFolders : List Text := ["accounts", "instructions", "pdas", "types"].map Text.ofString

/-- an accepted path of a page of documentation -/
def Placed (path : Text) : Prop :=
  (∃ p, Files.Path.ofPage path = .ok p) ∧
    (path = Text.ofString "index.md" ∨ path = Text.ofString "errors.md" ∨
      ∃ folder ∈ familyFolders, StrictlyBelow [folder] path)

theorem placed_member {folder : Text} (hf : folder ∈ familyFolders) (name : Text) : Placed (memberPath folder name) := by
  have hfamilies : ∀ folder ∈ familyFolders, Files.Path.partsOf folder = [folder] ∧ Text.ofString ".." ≠ folder ∧
      folder.head? ≠ none ∧ folder.head? ≠ some 47 := by decide
  obtain ⟨hparts, hback, hhead, hroot⟩ := hfamilies folder hf
  have hcons : ∃ c t, folder = c :: t ∧ c ≠ 47 := by
    cases folder with
    | nil => exact absurd rfl hhead
    | cons c t => exact ⟨c, t, rfl, fun h => hroot (congrArg some h)⟩
  have hbelow : StrictlyBelow [folder] (memberPath folder name) :=
    Files.strictlyBelow_of_name hparts (fun h => hback (List.mem_singleton.1 h)) hcons
      (Files.no_point_in_camelCase name) (by decide) (by decide)
  obtain ⟨p, _, hp, _⟩ := id hbelow
  exact ⟨⟨p, hp⟩, .inr (.inr ⟨folder, hf, hbelow⟩)⟩

theorem memberDrafts_placed {folder : Text} (hf : folder ∈ familyFolders) (n : Node) (body : Fragment) :
    Answers (AllOn Placed) (memberDrafts folder n body) :=
  Answers.after n.nameText fun name => .ok (.singleton (placed_member hf name) body)

theorem ownDrafts_placed (scope : Scope) (path : List Node) (n : Node) :
    Answers (fun dss => ∀ ds ∈ dss, AllOn Placed ds) (ownDrafts scope path n) := by
  have hindex : Placed "index.md" := ⟨⟨_, rfl⟩, .inl rfl⟩
  have herrors : Placed "errors.md" := ⟨⟨_, rfl⟩, .inr (.inl rfl)⟩
  refine Answers.after _ fun overviewPage => Answers.after _ fun errorPage => .ok ?_
  refine List.forall_mem_cons.2 ⟨.singleton hindex _, List.forall_mem_cons.2 ⟨.ofOption herrors _, ?_⟩⟩
  exact fun ds hds => absurd hds List.not_mem_nil

theorem drafts_placed (scope : Scope) (depth : Nat) (above : NodeStack) (n : Node) :
    Answers (AllOn Placed) (drafts scope depth above n) := by
  induction depth generalizing above n with
  | zero => exact fun _ h => by cases h
  | succ depth ih =>
    have hinside : ∀ m, Answers (AllOn Placed) (drafts scope depth (n :: above) m) := ih (n :: above)
    have hnone : Answers (AllOn Placed) (.ok [] : Except Fault (List Draft)) := .ok fun d hd => absurd hd List.not_mem_nil
    unfold drafts
    cases n.kind? with
    | none => exact hnone
    | some k =>
      cases k with
      | account => exact .after _ fun body => memberDrafts_placed (by decide) n body
      | definedType => exact .after _ fun body => memberDrafts_placed (by decide) n body
      | instruction => exact .after _ fun body => memberDrafts_placed (by decide) n body
      | pda => exact .after _ fun body => memberDrafts_placed (by decide) n body
      | program =>
        refine (ownDrafts_placed scope _ n).bind fun own ho => ?_
        refine .after _ fun _ => (answers_eachNode hinside _).bind fun pdas hp => ?_
        refine .after _ fun _ => (answers_eachNode hinside _).bind fun accounts ha => ?_
        refine .after _ fun _ => (answers_eachNode hinside _).bind fun types ht => ?_
        refine .after _ fun leaves => (Answers.mapM hinside leaves).bind fun instructions hi => .ok (.flatten ?_)
        simp only [List.mem_append, or_imp, forall_and]
        exact ⟨⟨⟨⟨ho, hp⟩, ha⟩, ht⟩, hi⟩
      | root => exact .after _ fun programs => (Answers.mapM hinside programs).bind fun dss h => .ok (.flatten h)
      | _ => exact hnone

end Docs

/-! ## Hooks -/

namespace Hooks

open Files (StrictlyBelow)

/-- an accepted path of a module of hooks -/
def Placed (path : Text) : Prop := StrictlyBelow [hooksFolder] path

theorem placed_module {folder name : Text} (hf : folder ∈ [hooksFolder, instructionFolder, addressFolder])
    (hname : 46 ∉ name) : Placed (modulePath folder name) := by
  have hfolders : ∀ folder ∈ [hooksFolder, instructionFolder, addressFolder],
      (Files.Path.partsOf folder).head? = some hooksFolder ∧ Text.ofString ".." ∉ Files.Path.partsOf folder ∧
      folder.head? ≠ none ∧ folder.head? ≠ some 47 := by decide
  obtain ⟨hparts, hback, hhead, hroot⟩ := hfolders folder hf
  have hcons : ∃ c t, folder = c :: t ∧ c ≠ 47 := by
    cases folder with
    | nil => exact absurd rfl hhead
    | cons c t => exact ⟨c, t, rfl, fun h => hroot (congrArg some h)⟩
  obtain ⟨p, rest, hp, hrest, hne⟩ : StrictlyBelow (Files.Path.partsOf folder) (modulePath folder name) :=
    Files.strictlyBelow_of_name rfl hback hcons hname (by decide) (by decide)
  obtain ⟨tail, htail⟩ := List.head?_eq_some_iff.1 hparts
  refine ⟨p, tail ++ rest, hp, ?_, List.append_ne_nil_of_right_ne_nil _ hne⟩
  rw [hrest, htail]
  rfl

theorem memberDrafts_placed {folder : Text} (hf : folder ∈ [hooksFolder, instructionFolder, addressFolder]) (n : Node)
    (body : Fragment) : Answers (AllOn Placed) (memberDrafts folder n body) :=
  Answers.after n.nameText fun name => .ok (.singleton (placed_module hf (Files.no_point_in_camelCase name)) body)

theorem indexDraft_placed {folder : Text} (hf : folder ∈ [hooksFolder, instructionFolder, addressFolder])
    (nodes : List Node) : Answers (AllOn Placed) (indexDraft folder nodes) :=
  Answers.after (index nodes) fun body => .ok (.ofOption (placed_module hf (by decide)) body)

theorem indexDrafts_placed (n : Node) : Answers (fun dss => ∀ ds ∈ dss, AllOn Placed ds) (indexDrafts n) := by
  refine .after _ fun programs => .after _ fun accounts => ?_
  refine (indexDraft_placed (by decide) _).bind fun hooks hh => .after _ fun leaves => ?_
  refine (indexDraft_placed (by decide) _).bind fun instructions hi => .after _ fun pdas => ?_
  refine (indexDraft_placed (by decide) _).bind fun addresses ha => .ok ?_
  simp only [List.forall_mem_cons]
  exact ⟨hh, hi, ha, fun ds hds => absurd hds List.not_mem_nil⟩

theorem drafts_placed (naming : Naming) (links : LinkTable) (depth : Nat) (above : NodeStack) (n : Node) :
    Answers (AllOn Placed) (drafts naming links depth above n) := by
  induction depth generalizing above n with
  | zero => exact fun _ h => by cases h
  | succ depth ih =>
    have hinside : ∀ m, Answers (AllOn Placed) (drafts naming links depth (n :: above) m) := ih (n :: above)
    have hnone : Answers (AllOn Placed) (.ok [] : Except Fault (List Draft)) := .ok fun d hd => absurd hd List.not_mem_nil
    unfold drafts
    cases n.kind? with
    | none => exact hnone
    | some k =>
      cases k with
      | account => exact .after _ fun body => memberDrafts_placed (by decide) n body
      | instruction => exact .after _ fun body => memberDrafts_placed (by decide) n body
      | pda => exact .after _ fun body => memberDrafts_placed (by decide) n body
      | program =>
        refine .after _ fun body => (memberDrafts_placed (by decide) n body).bind fun own ho => ?_
        refine .after _ fun _ => (answers_eachNode hinside _).bind fun pdas hp => ?_
        refine .after _ fun _ => (answers_eachNode hinside _).bind fun accounts ha => ?_
        refine .after _ fun leaves => (Answers.mapM hinside leaves).bind fun instructions hi => .ok (.flatten ?_)
        simp only [List.mem_append, List.mem_singleton, or_imp, forall_and, forall_eq]
        exact ⟨⟨⟨ho, hp⟩, ha⟩, hi⟩
      | root =>
        refine (indexDrafts_placed n).bind fun own ho => .after _ fun programs => ?_
        refine (Answers.mapM hinside programs).bind fun dss h => .ok (.flatten ?_)
        simp only [List.mem_append, or_imp, forall_and]
        exact ⟨ho, h⟩
      | _ => exact hnone

/-- a module's path leads on from the folder of hooks, as many folders deep as its depth tells -/
theorem Placed.parts {path : Text} (h : Placed path) : ∃ rest, Files.Path.partsOf path = hooksFolder :: rest ∧
    rest ≠ [] ∧ Hooks.depth path = .ok ((rest.length : Int) - 1) := by
  obtain ⟨p, rest, hp, hparts, hne⟩ := h
  have hroot : p.root = .relative := by
    unfold Files.Path.ofPage Files.Path.inside at hp
    simp only at hp
    split at hp
    · next hi =>
      cases hp
      simp only [Files.Path.isInside, Bool.and_eq_true, beq_iff_eq] at hi
      exact hi.1.1
    · cases hp
  have heq : Files.Path.ofText path = p := by
    unfold Files.Path.ofPage Files.Path.inside at hp
    simp only at hp
    split at hp <;> cases hp
    rfl
  have hbelow : p.below (Files.Path.ofText hooksFolder) = .ok rest := by
    have hbase : Files.Path.ofText hooksFolder = ⟨.relative, [hooksFolder]⟩ := rfl
    simp [Files.Path.below, Files.Path.below?, hbase, hroot, hparts]
  refine ⟨rest, (congrArg Files.Path.parts heq).trans hparts, hne, ?_⟩
  unfold Hooks.depth
  rw [heq, hbelow]
  rfl

/-- the depth of a module's path can be told and is not below zero -/
theorem Placed.depth {path : Text} (h : Placed path) : ∃ d, Hooks.depth path = .ok d ∧ 0 ≤ d := by
  obtain ⟨rest, -, hne, hd⟩ := h.parts
  have := List.length_pos_iff.2 hne
  exact ⟨_, hd, by omega⟩

/-- pages on paths of modules can all be made modules -/
theorem modules_total (resolver : Resolver) {merged : PageMap} (h : ∀ path ∈ merged.keys, Placed path) :
    ∃ m, modules resolver merged = .ok m := by
  refine OrderedMap.tryMap_total fun path body hb => ?_
  obtain ⟨d, hd, _⟩ := (h path (OrderedMap.mem_keys.2 ⟨body, hb⟩)).depth
  exact ⟨module (resolver.atDepth d) body, by rw [hd]; rfl⟩

end Hooks

/-! ## Pages -/

/-- **No tree makes a page leave its folder.** -/
theorem pages_stay_below (root : Node) :
    (∀ options m, Docs.pages options root = .ok m → ∀ path ∈ m.keys, Docs.Placed path) ∧
    (∀ options m, Hooks.pages options root = .ok m →
      ∀ path ∈ m.keys, Hooks.Placed path ∧ ∃ d, Hooks.depth path = .ok d ∧ 0 ≤ d) ∧
    ∀ naming s merged s', ((Hooks.bodies naming).explore root).perform s = (.ok merged, s') →
      ∀ resolver, ∃ m, Hooks.modules resolver merged = .ok m := by
  refine ⟨fun options m h path hp => ?_, fun options m h path hp => ?_, fun naming s merged s' h resolver => ?_⟩
  · obtain ⟨naming, links, ds, merged, _, _, hds, hm, rfl⟩ := Docs.pages_eq_ok h
    rw [PageMap.mapContent, OrderedMap.keys_mapValues] at hp
    exact (Docs.drafts_placed _ _ _ _ ds hds).pages hm path hp
  · obtain ⟨naming, strategy, links, ds, merged, _, _, _, hds, hm, hmod⟩ := Hooks.pages_eq_ok h
    rw [(OrderedMap.tryMap_eq_ok hmod).1] at hp
    have hplaced := (Hooks.drafts_placed _ _ _ _ _ ds hds).pages hm path hp
    exact ⟨hplaced, hplaced.depth⟩
  · obtain ⟨-, ds, hds, hm⟩ := (Hooks.bodies_compute naming _ root s).ok h
    exact Hooks.modules_total resolver ((Hooks.drafts_placed _ _ _ _ _ ds hds).pages hm)

/-- a tree whose names lead upwards -/
def climbingTree : Node :=
  Node.rootOf (.known .program (Node.fillSlots Kind.program.slots [
    (.name, .text "/../up"),
    (.accounts, .tuple [.node (.known .account (Node.fillSlots Kind.account.slots [(.name, .text "../../..")]))])]))

theorem climbing_names_stay_below :
    (∃ m, Docs.pages ⟨"client", []⟩ climbingTree = .ok m ∧ ∀ path ∈ m.keys, Docs.Placed path) ∧
    (∃ m, Hooks.pages ⟨"../", "granular", []⟩ climbingTree = .ok m ∧
      ∀ path ∈ m.keys, Hooks.Placed path ∧ ∃ d, Hooks.depth path = .ok d ∧ 0 ≤ d) ∧
    ∃ merged s', ((Hooks.bodies ⟨Role.all, []⟩).explore climbingTree).perform (Traversal.start ()) = (.ok merged, s') ∧
      ∃ m, Hooks.modules ⟨.granular, "../", 0⟩ merged = .ok m := by
  obtain ⟨docs, hooks, bodies⟩ := pages_stay_below climbingTree
  refine ⟨?_, ?_, ?_⟩
  · obtain ⟨m, hm⟩ := exists_of_isOk (x := Docs.pages ⟨"client", []⟩ climbingTree) (by decide +kernel)
    exact ⟨m, hm, docs _ m hm⟩
  · obtain ⟨m, hm⟩ := exists_of_isOk (x := Hooks.pages ⟨"../", "granular", []⟩ climbingTree) (by decide +kernel)
    exact ⟨m, hm, hooks _ m hm⟩
  · obtain ⟨merged, hm⟩ := exists_of_isOk
      (x := (((Hooks.bodies ⟨Role.all, []⟩).explore climbingTree).perform (Traversal.start ())).1) (by decide +kernel)
    exact ⟨merged, _, Prod.ext hm rfl, bodies _ _ _ _ (Prod.ext hm rfl) _⟩

end InterfacePages

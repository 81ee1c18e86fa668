/-
The documentation of a tree as a list of drafts.

`drafts` computes, without a state and without merging, what the handlers put on which path, in the order of the
visits. The visitor that makes the pages computes the same up to `Gathers` (`base_computes`), so the pages of a tree
are what merging leaves of its drafts, each ending with one line feed (`pages_eq_ok`).
-/
import InterfacePages.Docs.Pages
import InterfacePages.Proofs.PageMerging
import InterfacePages.Proofs.Visiting

namespace InterfacePages

namespace Docs

open PageMap (Draft Holds)

/-! ## Drafts -/

def memberDrafts (folder : Text) (n : Node) (body : Fragment) : Except Fault (List Draft) := do
  return [(memberPath folder (← n.nameText), body)]

section

variable (scope : Scope)

/-- the drafts of a program's own pages -/
def ownDrafts (path : List Node) (n : Node) : Except Fault (List (List Draft)) := do
  let overviewPage ← overview scope path n
  return [[("index.md", overviewPage)], (← errors scope n).toList.map fun page => (Text.ofString "errors.md", page)]

def programDrafts (inside : Node → Except Fault (List Draft)) (path : List Node) (n : Node) :
    Except Fault (List Draft) := do
  let own ← ownDrafts scope path n
  let pdas ← eachNode inside (← n.items .pdas)
  let accounts ← eachNode inside (← n.items .accounts)
  let types ← eachNode inside (← n.items .definedTypes)
  let instructions ← (← n.leafInstructions).mapM inside
  return (own ++ pdas ++ accounts ++ types ++ instructions).flatten

/-- the drafts of a node below others, visited at most `depth` deep -/
def drafts : Nat → NodeStack → Node → Except Fault (List Draft)
  | 0, _, _ => .error .nestingTooDeep
  | depth + 1, above, n =>
    match n.kind? with
    | some .account => do memberDrafts "accounts" n (← account scope (n :: above).reverse n)
    | some .definedType => do memberDrafts "types" n (← definedType scope n)
    | some .instruction => do memberDrafts "instructions" n (← instruction scope n)
    | some .pda => do memberDrafts "pdas" n (← address scope n)
    | some .program => programDrafts scope (drafts depth (n :: above)) (n :: above).reverse n
    | some .root => do return (← (← n.programs).mapM (drafts depth (n :: above))).flatten
    | _ => .ok []

end

/-! ## Handlers -/

variable {naming : Naming} {package : Text} {links : LinkTable} {s : Traversal Unit} {n : Node} {above : NodeStack}

theorem memberPage_agree (folder : Text) (n : Node) (body : Fragment) :
    Agree Holds (memberPage folder n body) (memberDrafts folder n body) := by
  unfold memberPage memberDrafts
  cases n.nameText with
  | error e => exact .error e
  | ok name => exact .ok (PageMap.gathers_page _ _)

theorem computes_withScope {ρ δ : Type} {R : ρ → δ → Prop} {f : Scope → Except Fault ρ} {x : Except Fault δ}
    (hl : s.links = links) (h : Agree R (f ⟨naming, package, links⟩) x) :
    (withScope naming package f).Computes R s x :=
  ⟨_, by simp only [withScope, Act.perform_ofOutcome, hl], h⟩

/-- a handler for members computes the draft of its node -/
theorem onMember_computes {kind : Kind} {folder : Text} (page : Scope → List Node → Except Fault Fragment)
    (hs : s.stack = n :: above) (hl : s.links = links) (hn : n.kind? = some kind) :
    Act.Computes Holds (do
        let path ← Traversal.pathTo kind
        withScope naming package fun scope => do memberPage folder n (← page scope path)) s
      (do memberDrafts folder n (← page ⟨naming, package, links⟩ (n :: above).reverse)) := by
  refine Act.Computes.next (Traversal.perform_pathTo hs hn) ?_
  exact computes_withScope hl (Agree.after _ fun body => memberPage_agree _ _ _)

variable {inside : Node → Except Fault (List Draft)} {visit : Node → Rendering}

theorem onProgram_computes (hv : ∀ m, (visit m).Computes Holds s (inside m)) (hs : s.stack = n :: above)
    (hl : s.links = links) (hn : n.kind? = some .program) : (onProgram naming package n visit).Computes Holds s
      (programDrafts ⟨naming, package, links⟩ inside (n :: above).reverse n) := by
  refine Act.Computes.next (Traversal.perform_pathTo hs hn) ?_
  refine Act.Computes.bind (R := List.Forall₂ Holds) (computes_withScope hl ?_) fun own own' _ ho => ?_
  · refine Agree.after _ fun overviewPage => Agree.after _ fun errorPage => .ok ?_
    exact .cons (PageMap.gathers_page _ _) (.cons (PageMap.gathers_page? _ _) .nil)
  refine Act.Computes.from fun _ _ => (Traversal.computes_visitAll hv _).bind fun pdas pdas' _ hp => ?_
  refine Act.Computes.from fun _ _ => (Traversal.computes_visitAll hv _).bind fun accounts accounts' _ ha => ?_
  refine Act.Computes.from fun _ _ => (Traversal.computes_visitAll hv _).bind fun types types' _ ht => ?_
  refine Act.Computes.from fun _ _ => (Act.Computes.mapM fun m _ => hv m).bind fun instructions instructions' _ hi => ?_
  refine Act.Computes.pure (PageMap.gathers_merge ?_)
  exact List.rel_append (List.rel_append (List.rel_append (List.rel_append ho hp) ha) ht) hi

theorem onRoot_computes (hv : ∀ m, (visit m).Computes Holds s (inside m)) (n : Node) :
    (onRoot n visit).Computes Holds s (do return (← (← n.programs).mapM inside).flatten) := by
  refine Act.Computes.from fun programs _ => (Act.Computes.mapM fun m _ => hv m).bind fun ms ds _ hp => ?_
  exact Act.Computes.pure (PageMap.gathers_merge hp)

/-! ## Visits -/

/-- the visitor without a stack and without links -/
def base (naming : Naming) (package : Text) : Visitor Rendering :=
  Visitor.ofKinds (fun _ => return OrderedMap.empty) (handlers naming package)

/-- every handler computes the drafts of its node as long as the visits nested in it do -/
theorem base_computes (naming : Naming) (package : Text) (depth : Nat) (hs : s.stack = n :: above) (hl : s.links = links)
    (hv : ∀ m, (visit m).Computes Holds s (drafts ⟨naming, package, links⟩ depth (n :: above) m)) :
    ((base naming package).handlerFor n n visit).Computes Holds s
      (drafts ⟨naming, package, links⟩ (depth + 1) above n) := by
  rw [base, Visitor.handlerFor_ofKinds _ (by simp [handlers])]
  unfold drafts
  have hnone : (return OrderedMap.empty : Rendering).Computes Holds s (.ok []) := Act.Computes.pure (.refl _)
  cases hk : n.kind? with
  | none => exact hnone
  | some k =>
    cases k with
    | account => exact onMember_computes (fun scope path => account scope path n) hs hl hk
    | definedType => exact onMember_computes (fun scope _ => definedType scope n) hs hl hk
    | instruction => exact onMember_computes (fun scope _ => instruction scope n) hs hl hk
    | pda => exact onMember_computes (fun scope _ => address scope n) hs hl hk
    | program => exact onProgram_computes hv hs hl hk
    | root => exact onRoot_computes hv n
    | _ => exact hnone

theorem visitor_computes_inside (depth : Nat) (n : Node) (hl : s.linked = true) :
    ((visitor naming package).visit (throw .nestingTooDeep) depth n).Computes Holds s
      (drafts ⟨naming, package, s.links⟩ depth s.stack n) :=
  Visitor.computes_visit _ (base naming package) (fun t => t.links = s.links ∧ t.linked = true)
    (drafts ⟨naming, package, s.links⟩) (fun m visit _ ht => Visitor.perform_keepingLinks _ m visit ht.2)
    (fun _ _ ht => ht) (fun _ _ => rfl)
    (fun depth _ _ _ _ ht hs hv => base_computes naming package depth hs ht.1 hv) depth n s ⟨rfl, hl⟩

/-- **The documentation of a tree is what merging leaves of its drafts.** -/
theorem pages_eq_ok {options : Options} {n : Node} {m : PageMap} (h : pages options n = .ok m) :
    ∃ naming links ds merged, Naming.make Role.client options.transformers = .ok naming ∧
      (LinkTable.recordTree n).perform OrderedMap.empty = (.ok (), links) ∧
      drafts ⟨naming, options.package, links⟩ (n.height + 1) [] n = .ok ds ∧ Holds merged ds ∧
      m = merged.mapContent endWithLineFeed := by
  obtain ⟨merged, hmerged, h⟩ := except_bind_ok.1 h
  obtain ⟨naming, hnaming, hmerged⟩ := except_bind_ok.1 hmerged
  unfold Visitor.explore Visitor.visit at hmerged
  rcases hp : ((visitor naming options.package).handlerFor n n
      ((visitor naming options.package).visit (throw .nestingTooDeep) n.height)).perform
      (Traversal.start ()) with ⟨r, t⟩
  rw [hp] at hmerged
  cases hmerged
  obtain ⟨links, hlinks, hp⟩ := Visitor.keepingLinks_ok rfl hp
  have hcomp := Visitor.computes_keepingStack
    (base_computes naming options.package n.height rfl rfl
      fun m => visitor_computes_inside (s := Traversal.push n ⟨[], links, true, ()⟩) n.height m rfl)
  obtain ⟨-, ds, hds, hh⟩ := hcomp.ok hp
  exact ⟨naming, links, ds, merged, hnaming, hlinks, hds, hh, (Except.ok.inj h).symm⟩

end Docs

end InterfacePages

/-
The hooks of a tree as a list of drafts.

`drafts` computes, without a state and without merging, what the handlers put on which path, in the order of the
visits. The visitor that makes the hooks computes the same up to `Gathers` (`bodies_compute`): it fails with the same
fault, or its pages are what merging leaves of the drafts. The outermost visit then makes one module of each page and
no other visit does (`pages_eq_ok`).
-/
import InterfacePages.Hooks.Pages
import InterfacePages.Proofs.PageMerging
import InterfacePages.Proofs.Visiting

namespace InterfacePages

namespace Hooks

open PageMap (Draft Holds)

/-! ## Drafts -/

def memberDrafts (folder : Text) (n : Node) (body : Fragment) : Except Fault (List Draft) := do
  return [(modulePath folder (Name.camelCase (← n.nameText)), body)]

/-- the draft of an index, if there is one -/
def indexDraft (folder : Text) (nodes : List Node) : Except Fault (List Draft) := do
  return (← index nodes).toList.map fun body => (modulePath folder "index", body)

def indexDrafts (n : Node) : Except Fault (List (List Draft)) := do
  let programs ← n.programs
  let accounts ← n.accounts
  let hooks ← indexDraft hooksFolder (accounts ++ programs)
  let instructions ← indexDraft instructionFolder (← n.leafInstructions)
  return [hooks, instructions, ← indexDraft addressFolder (← n.pdas)]

section

variable (naming : Naming) (links : LinkTable)

def programDrafts (inside : Node → Except Fault (List Draft)) (n : Node) : Except Fault (List Draft) := do
  let own ← memberDrafts hooksFolder n (← program ⟨naming, links⟩ n)
  let pdas ← eachNode inside (← n.items .pdas)
  let accounts ← eachNode inside (← n.items .accounts)
  let instructions ← (← n.leafInstructions).mapM inside
  return ([own] ++ pdas ++ accounts ++ instructions).flatten

def rootDrafts (inside : Node → Except Fault (List Draft)) (n : Node) : Except Fault (List Draft) := do
  let own ← indexDrafts n
  return (own ++ (← (← n.programs).mapM inside)).flatten

/-- the drafts of a node below others, visited at most `depth` deep -/
def drafts : Nat → NodeStack → Node → Except Fault (List Draft)
  | 0, _, _ => .error .nestingTooDeep
  | depth + 1, above, n =>
    match n.kind? with
    | some .account => do memberDrafts hooksFolder n (← account ⟨naming, links⟩ (n :: above).reverse n)
    | some .instruction => do memberDrafts instructionFolder n (← instruction ⟨naming, links⟩ n)
    | some .pda => do memberDrafts addressFolder n (← address ⟨naming, links⟩ n)
    | some .program => programDrafts naming links (drafts depth (n :: above)) n
    | some .root => rootDrafts (drafts depth (n :: above)) n
    | _ => .ok []

end

/-! ## Handlers -/

variable {naming : Naming} {links : LinkTable} {s : Traversal Unit} {n : Node} {above : NodeStack}

theorem memberPage_agree (folder : Text) (n : Node) (body : Fragment) :
    Agree Holds (memberPage folder n body) (memberDrafts folder n body) := by
  unfold memberPage memberDrafts
  cases n.nameText with
  | error e => exact .error e
  | ok name => exact .ok (PageMap.gathers_page _ _)

theorem indexPage_agree (folder : Text) (nodes : List Node) :
    Agree Holds (indexPage folder nodes) (indexDraft folder nodes) := by
  unfold indexPage indexDraft
  cases index nodes with
  | error e => exact .error e
  | ok body => exact .ok (PageMap.gathers_page? _ _)

theorem computes_withScope {ρ δ : Type} {R : ρ → δ → Prop} {f : Scope → Except Fault ρ} {x : Except Fault δ}
    (hs : s.links = links) (h : Agree R (f ⟨naming, links⟩) x) : (withScope naming f).Computes R s x :=
  ⟨_, by simp only [withScope, Act.perform_ofOutcome, hs], h⟩

/-- a handler for members computes the draft of its node -/
theorem onMember_computes {kind : Kind} {folder : Text} (hooks : Scope → List Node → Except Fault Fragment)
    (hs : s.stack = n :: above) (hl : s.links = links) (hn : n.kind? = some kind) :
    Act.Computes Holds (do
        let path ← Traversal.pathTo kind
        withScope naming fun scope => do memberPage folder n (← hooks scope path)) s
      (do memberDrafts folder n (← hooks ⟨naming, links⟩ (n :: above).reverse)) := by
  refine Act.Computes.next (Traversal.perform_pathTo hs hn) ?_
  exact computes_withScope hl (Agree.after _ fun body => memberPage_agree _ _ _)

variable {inside : Node → Except Fault (List Draft)} {visit : Node → Rendering}

theorem onProgram_computes (hv : ∀ m, (visit m).Computes Holds s (inside m)) (hl : s.links = links) (n : Node) :
    (onProgram naming n visit).Computes Holds s (programDrafts naming links inside n) := by
  unfold programDrafts
  rw [← bind_assoc]
  refine (computes_withScope hl (Agree.after _ fun body => memberPage_agree _ _ _)).bind fun own own' _ ho => ?_
  refine Act.Computes.from fun _ _ => (Traversal.computes_visitAll hv _).bind fun pdas pdas' _ hp => ?_
  refine Act.Computes.from fun _ _ => (Traversal.computes_visitAll hv _).bind fun accounts accounts' _ ha => ?_
  refine Act.Computes.from fun _ _ => (Act.Computes.mapM fun m _ => hv m).bind fun instructions instructions' _ hi => ?_
  refine Act.Computes.pure (PageMap.gathers_merge ?_)
  exact List.rel_append (List.rel_append (List.rel_append (.cons ho .nil) hp) ha) hi

theorem indexes_agree (n : Node) : Agree (List.Forall₂ Holds) (indexes n) (indexDrafts n) := by
  refine Agree.after _ fun programs => Agree.after _ fun accounts => ?_
  refine (indexPage_agree _ _).bind fun hooks hooks' hh => Agree.after _ fun leaves => ?_
  refine (indexPage_agree _ _).bind fun instructions instructions' hi => Agree.after _ fun pdas => ?_
  refine (indexPage_agree _ _).bind fun addresses addresses' ha => ?_
  exact .ok (.cons hh (.cons hi (.cons ha .nil)))

theorem onRoot_computes (hv : ∀ m, (visit m).Computes Holds s (inside m)) (n : Node) :
    (onRoot n visit).Computes Holds s (rootDrafts inside n) := by
  refine Act.Computes.bind (R := List.Forall₂ Holds) ⟨_, rfl, indexes_agree n⟩ fun own own' _ ho => ?_
  refine Act.Computes.from fun programs _ => (Act.Computes.mapM fun m _ => hv m).bind fun ms ds _ hp => ?_
  exact Act.Computes.pure (PageMap.gathers_merge (List.rel_append ho hp))

/-! ## Visits -/

/-- the visitor without a stack -/
def base (naming : Naming) : Visitor Rendering := Visitor.ofKinds (fun _ => return OrderedMap.empty) (handlers naming)

theorem bodies_eq (naming : Naming) : bodies naming = (base naming).keepingStack := rfl

/-- every handler computes the drafts of its node as long as the visits nested in it do -/
theorem base_computes (naming : Naming) (depth : Nat) (hs : s.stack = n :: above) (hl : s.links = links)
    (hv : ∀ m, (visit m).Computes Holds s (drafts naming links depth (n :: above) m)) :
    ((base naming).handlerFor n n visit).Computes Holds s (drafts naming links (depth + 1) above n) := by
  rw [base, Visitor.handlerFor_ofKinds _ (by simp [handlers])]
  unfold drafts
  have hnone : (return OrderedMap.empty : Rendering).Computes Holds s (.ok []) := Act.Computes.pure (.refl _)
  cases hk : n.kind? with
  | none => exact hnone
  | some k =>
    cases k with
    | account => exact onMember_computes (fun scope path => account scope path n) hs hl hk
    | instruction => exact onMember_computes (fun scope _ => instruction scope n) hs hl hk
    | pda => exact onMember_computes (fun scope _ => address scope n) hs hl hk
    | program => exact onProgram_computes hv hl n
    | root => exact onRoot_computes hv n
    | _ => exact hnone

/-- **The visitor that makes the hooks computes their drafts.** -/
theorem bodies_compute (naming : Naming) (depth : Nat) (n : Node) (s : Traversal Unit) :
    ((bodies naming).visit (throw .nestingTooDeep) depth n).Computes Holds s (drafts naming s.links depth s.stack n) :=
  Visitor.computes_visit _ (base naming) (fun t => t.links = s.links) (drafts naming s.links)
    (fun _ _ _ _ => rfl) (fun _ _ ht => ht) (fun _ _ => rfl)
    (fun depth _ _ _ _ hl hs hv => base_computes naming depth hs hl hv) depth n s rfl

/-- a visit that is not the outermost one makes no modules -/
theorem perform_visitor_inside {resolver : Resolver} (n : Node) (visit : Node → Rendering) (hl : s.linked = true)
    (hs : s.stack ≠ []) : ((visitor naming resolver).handlerFor n n visit).perform s =
      ((base naming).keepingStack.handlerFor n n visit).perform s := by
  rw [visitor, Visitor.perform_keepingLinks _ n visit hl, wrapping, Visitor.handlerFor_intercept, ← bodies_eq]
  have hout : s.stack.isEmpty = false := by cases h : s.stack with
    | nil => exact absurd h hs
    | cons _ _ => rfl
  change (get >>= fun t : Traversal Unit => (bodies naming).handlerFor n n visit >>= fun pages =>
    if t.stack.isEmpty then Act.ofExcept (modules resolver pages) else pure pages).perform s = _
  rw [Act.perform_bind_ok (Act.perform_get s), hout, Act.perform_bind]
  rcases ((bodies naming).handlerFor n n visit).perform s with ⟨e | pages, t⟩
  · rfl
  · rfl

theorem visitor_computes_inside (resolver : Resolver) (depth : Nat) (n : Node) (hl : s.linked = true)
    (hs : s.stack ≠ []) : ((visitor naming resolver).visit (throw .nestingTooDeep) depth n).Computes Holds s
      (drafts naming s.links depth s.stack n) :=
  Visitor.computes_visit _ (base naming) (fun t => t.links = s.links ∧ t.linked = true ∧ t.stack ≠ [])
    (drafts naming s.links) (fun m visit _ ht => perform_visitor_inside m visit ht.2.1 ht.2.2)
    (fun _ _ ht => ⟨ht.1, ht.2.1, List.cons_ne_nil _ _⟩) (fun _ _ => rfl)
    (fun depth _ _ _ _ ht hs hv => base_computes naming depth hs ht.1 hv) depth n s ⟨rfl, hl, hs⟩

/-- **The hooks of a tree are the modules of what merging leaves of its drafts.** -/
theorem pages_eq_ok {options : Options} {n : Node} {m : PageMap} (h : pages options n = .ok m) :
    ∃ naming strategy links ds merged, Naming.make Role.all options.transformers = .ok naming ∧
      Strategy.ofLabel options.strategy = .ok strategy ∧
      (LinkTable.recordTree n).perform OrderedMap.empty = (.ok (), links) ∧
      drafts naming links (n.height + 1) [] n = .ok ds ∧ Holds merged ds ∧
      modules ⟨strategy, options.client, 0⟩ merged = .ok m := by
  obtain ⟨naming, hnaming, h⟩ := except_bind_ok.1 h
  obtain ⟨strategy, hstrategy, h⟩ := except_bind_ok.1 h
  unfold Visitor.explore Visitor.visit at h
  rcases hp : ((visitor naming ⟨strategy, options.client, 0⟩).handlerFor n n
      ((visitor naming ⟨strategy, options.client, 0⟩).visit (throw .nestingTooDeep) n.height)).perform
      (Traversal.start ()) with ⟨r, t⟩
  rw [hp] at h
  cases h
  obtain ⟨links, hlinks, hp⟩ := Visitor.keepingLinks_ok rfl hp
  refine ⟨naming, strategy, links, ?_⟩
  rw [wrapping, Visitor.handlerFor_intercept, bodies_eq] at hp
  obtain ⟨u, t₁, hu, hp⟩ := Act.bind_eq_ok.1 hp
  cases hu
  obtain ⟨merged, t₂, hmerged, hp⟩ := Act.bind_eq_ok.1 hp
  have hcomp := Visitor.computes_keepingStack (base_computes naming n.height rfl rfl fun m =>
    visitor_computes_inside ⟨strategy, options.client, 0⟩ (s := Traversal.push n ⟨[], links, true, ()⟩) n.height m rfl
      (List.cons_ne_nil _ _))
  obtain ⟨rfl, ds, hds, hh⟩ := hcomp.ok hmerged
  exact ⟨ds, merged, hnaming, hstrategy, hlinks, hds, hh, (Prod.mk.inj hp).1⟩

end Hooks

end InterfacePages

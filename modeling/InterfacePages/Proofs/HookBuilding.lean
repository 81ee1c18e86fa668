/-
The hooks of a tree without the state of the visits.

`built` makes the same page map as the handlers, merges included, with the link table and the nodes above as arguments;
the visitor computes it exactly (`base_builds`), and the outermost visit makes the modules of it (`pages_eq`).

Of the hooks only those of accounts look at the link table and at the path, and all they see of them is the node that
the account's link leads to. `built_member` and `programPages_congr` say so.
-/
import InterfacePages.Proofs.StatelessVisits

namespace InterfacePages

namespace Hooks

/-! ## Pages -/

section

variable (naming : Naming) (links : LinkTable)

/-- the hooks of a program around those of the nodes in it -/
def programPages (inside : Node → Except Fault PageMap) (n : Node) : Except Fault PageMap := do
  let own ← memberPage hooksFolder n (← program ⟨naming, links⟩ n)
  let pdas ← eachNode inside (← n.items .pdas)
  let accounts ← eachNode inside (← n.items .accounts)
  let instructions ← (← n.leafInstructions).mapM inside
  return PageMap.merge ([own] ++ pdas ++ accounts ++ instructions)

/-- the hooks of a root around those of its programs -/
def rootPages (inside : Node → Except Fault PageMap) (n : Node) : Except Fault PageMap := do
  let own ← indexes n
  return PageMap.merge (own ++ (← (← n.programs).mapM inside))

/-- the hooks of a node below others, visited at most `depth` deep -/
def built : Nat → NodeStack → Node → Except Fault PageMap
  | 0, _, _ => .error .nestingTooDeep
  | depth + 1, above, n =>
    match n.kind? with
    | some .account => do memberPage hooksFolder n (← account ⟨naming, links⟩ (n :: above).reverse n)
    | some .instruction => do memberPage instructionFolder n (← instruction ⟨naming, links⟩ n)
    | some .pda => do memberPage addressFolder n (← address ⟨naming, links⟩ n)
    | some .program => programPages naming links (built depth (n :: above)) n
    | some .root => rootPages (built depth (n :: above)) n
    | _ => .ok .empty

end

/-! ## Visits -/

section

variable {naming : Naming} {links : LinkTable} {s : Traversal Unit} {n : Node} {above : NodeStack}
  {visit : Node → Rendering}

theorem onMember_builds {kind : Kind} {folder : Text} (hooks : Scope → List Node → Except Fault Fragment)
    (hs : s.stack = n :: above) (hl : s.links = links) (hn : n.kind? = some kind) :
    Act.Computes Eq (do
        let path ← Traversal.pathTo kind
        withScope naming fun scope => do memberPage folder n (← hooks scope path)) s
      (do memberPage folder n (← hooks ⟨naming, links⟩ (n :: above).reverse)) :=
  .next (Traversal.perform_pathTo hs hn) (computes_withScope hl (.refl (fun _ => rfl) _))

theorem onProgram_builds {inside : Node → Except Fault PageMap} (hv : ∀ m, (visit m).Computes Eq s (inside m))
    (hl : s.links = links) (n : Node) :
    (onProgram naming n visit).Computes Eq s (programPages naming links inside n) := by
  unfold programPages
  rw [← bind_assoc]
  refine (computes_withScope hl (.refl (fun _ => rfl) _)).bind fun own _ _ ho => ?_
  refine .from fun _ _ => (Traversal.computes_visitAll_eq hv _).bind fun pdas _ _ hp => ?_
  refine .from fun _ _ => (Traversal.computes_visitAll_eq hv _).bind fun accounts _ _ ha => ?_
  refine .from fun _ _ => (Traversal.computes_mapM_eq hv _).bind fun instructions _ _ hi => ?_
  subst ho hp ha hi
  exact .pure rfl

/-- every handler builds the hooks of its node as long as the visits nested in it do -/
theorem base_builds (naming : Naming) (depth : Nat) (hs : s.stack = n :: above) (hl : s.links = links)
    (hv : ∀ m, (visit m).Computes Eq s (built naming links depth (n :: above) m)) :
    ((base naming).handlerFor n n visit).Computes Eq s (built naming links (depth + 1) above n) := by
  rw [base, Visitor.handlerFor_ofKinds _ (by simp [handlers])]
  unfold built
  have hnone : (return OrderedMap.empty : Rendering).Computes Eq s (.ok .empty) := .pure rfl
  cases hk : n.kind? with
  | none => exact hnone
  | some k =>
    cases k with
    | account => exact onMember_builds (fun scope path => account scope path n) hs hl hk
    | instruction => exact onMember_builds (fun scope _ => instruction scope n) hs hl hk
    | pda => exact onMember_builds (fun scope _ => address scope n) hs hl hk
    | program => exact onProgram_builds hv hl n
    | root =>
      refine .from fun own _ => .from fun programs _ => ?_
      refine (Traversal.computes_mapM_eq hv _).bind fun pages _ _ hp => ?_
      subst hp
      exact .pure rfl
    | _ => exact hnone

end

/-- the hooks of a node: its links are recorded, its hooks built with them, and modules made of these -/
theorem pages_eq (options : Options) (n : Node) : pages options n = (do
    let naming ← Naming.make Role.all options.transformers
    let strategy ← Strategy.ofLabel options.strategy
    let links ← LinkTable.recorded n
    modules ⟨strategy, options.client, 0⟩ (← built naming links (n.height + 1) [] n)) := by
  refine congrArg _ (funext fun naming => congrArg _ (funext fun strategy => ?_))
  refine (Visitor.perform_start _ n _).trans (congrArg _ (funext fun links => ?_))
  have hinside : ∀ m, ((visitor naming ⟨strategy, options.client, 0⟩).visit (throw .nestingTooDeep) n.height m).Computes
      Eq (Traversal.push n ⟨[], links, true, ()⟩) (built naming links n.height [n] m) := fun m =>
    Visitor.computes_visit _ (base naming) (fun t => t.links = links ∧ t.linked = true ∧ t.stack ≠ [])
      (built naming links) (fun m visit _ ht => perform_visitor_inside m visit ht.2.1 ht.2.2)
      (fun _ _ ht => ⟨ht.1, ht.2.1, List.cons_ne_nil _ _⟩) (fun _ _ => rfl)
      (fun depth _ _ _ _ ht hs hv => base_builds naming depth hs ht.1 hv) n.height m _
      ⟨rfl, rfl, List.cons_ne_nil _ _⟩
  have hbuilds := Visitor.computes_keepingStack (base_builds naming n.height rfl rfl hinside)
  rw [← bodies_eq] at hbuilds
  exact congrArg Prod.fst (perform_wrapping rfl (Act.computes_eq.1 hbuilds))

/-! ## What hooks see -/

section

variable {naming : Naming} {links links' : LinkTable} {path path' : List Node} {n n' : Node}

/-- two addresses have the same name and seeds -/
structure SameSeeds (pda pda' : Node) : Prop where
  name : pda.get .name = pda'.get .name
  seeds : pda.get .seeds = pda'.get .seeds

/-- the link of an account leads to the same address on two paths -/
def SameAddress (links links' : LinkTable) (path path' : List Node) (n : Node) : Prop :=
  ∀ link, n.child .pda = .ok link →
    Agree (Option.Rel SameSeeds) (links.resolve path link) (links'.resolve path' link)

theorem fromSeedsHook_congr {pda pda' : Node} (h : SameSeeds pda pda') :
    fromSeedsHook ⟨naming, links⟩ n pda = fromSeedsHook ⟨naming, links'⟩ n pda' := by
  unfold fromSeedsHook Scope.identifier hasGivenSeeds Node.items Node.nameText
  rw [h.name, h.seeds]

theorem fromSeeds_congr (h : SameAddress links links' path path' n) :
    fromSeeds ⟨naming, links⟩ path n = fromSeeds ⟨naming, links'⟩ path' n := by
  unfold fromSeeds
  refine bind_congr_ok fun v hv => ?_
  split
  · rfl
  · refine bind_congr_ok fun link hlink => ?_
    refine Agree.eq ((h link (except_bind_ok.2 ⟨v, hv, hlink⟩)).bind fun found found' hfound => ?_)
    cases hfound with
    | none => exact .ok rfl
    | some hpda =>
      dsimp only
      rw [fromSeedsHook_congr hpda]
      exact .refl (fun _ => rfl) _

/-- the hooks of an account see the address that its link leads to -/
theorem account_congr (h : SameAddress links links' path path' n) :
    account ⟨naming, links⟩ path n = account ⟨naming, links'⟩ path' n := by
  unfold account
  rw [fromSeeds_congr h]
  rfl

/-- the hook of a program sees its name and whether there are errors -/
theorem program_congr (hname : n.get .name = n'.get .name) (herrors : n.errors = n'.errors) :
    program ⟨naming, links⟩ n = program ⟨naming, links'⟩ n' := by
  unfold program Scope.identifier Node.nameText
  rw [hname, herrors]

/-- an index sees the names of its nodes -/
theorem indexPage_congr (folder : Text) {ns ns' : List Node}
    (h : List.Forall₂ (fun n n' => n.get .name = n'.get .name) ns ns') : indexPage folder ns = indexPage folder ns' := by
  have hnames : ns.mapM exportName = ns'.mapM exportName := by
    refine mapM_eq_of_forall₂ h fun n _ n' _ hn => ?_
    unfold exportName
    rw [hn]
  unfold indexPage index
  rw [hnames]

/-- the hooks of a program see its own hook and those of what is visited in it -/
theorem programPages_congr {inside inside' : Node → Except Fault PageMap} (hname : n.get .name = n'.get .name)
    (herrors : n.errors = n'.errors)
    (hitems : ∀ a ∈ [Attr.pdas, .accounts],
      Agree PageMap.SamePages (n.items a >>= eachNode inside) (n'.items a >>= eachNode inside'))
    (hleaves : n.leafInstructions = n'.leafInstructions)
    (hinside : ∀ ls, n.leafInstructions = .ok ls → ∀ l ∈ ls, inside l = inside' l) :
    programPages naming links inside n = programPages naming links' inside' n' := by
  simp only [List.forall_mem_cons] at hitems
  obtain ⟨hpdas, haccounts, -⟩ := hitems
  have hown : ∀ body, memberPage hooksFolder n body = memberPage hooksFolder n' body := by
    intro body
    unfold memberPage Node.nameText
    rw [hname]
  have hhook : program ⟨naming, links⟩ n = program ⟨naming, links'⟩ n' := program_congr hname herrors
  unfold programPages
  simp only [hown]
  rw [hhook, ← hleaves]
  refine Agree.eq (.after _ fun hook => .after _ fun own => hpdas.bind_both fun pdas pdas' hp => ?_)
  refine haccounts.bind_both fun accounts accounts' ha => ?_
  refine (PageMap.mapM_agree hinside).bind_both fun instructions instructions' hi => ?_
  refine .ok (PageMap.merge_congr ?_)
  exact ((PageMap.SamePages.append rfl hp).append ha).append hi

/-- the hooks of anything that holds no hooks of other nodes see at most the address of an account -/
theorem built_member {depth depth' : Nat} {above above' : NodeStack} (hprogram : n.kind? ≠ some .program)
    (hroot : n.kind? ≠ some .root)
    (h : n.isKind .account = true → SameAddress links links' (n :: above).reverse (n :: above').reverse n) :
    built naming links (depth + 1) above n = built naming links' (depth' + 1) above' n := by
  unfold built
  cases hk : n.kind? with
  | none => rfl
  | some k =>
    cases k with
    | account =>
      dsimp only
      rw [account_congr (h (beq_iff_eq.2 hk))]
    | program => exact absurd hk hprogram
    | root => exact absurd hk hroot
    | _ => rfl

/-- a node of no known kind has no hooks -/
theorem built_unknown (naming : Naming) (links : LinkTable) {depth : Nat} {above : NodeStack} (hk : n.kind? = none) :
    built naming links (depth + 1) above n = .ok .empty := by
  unfold built
  rw [hk]

end

end Hooks

end InterfacePages

/-
The documentation of a tree without the state of the visits.

`built` makes the same page map as the handlers, merges included, with the link table and the nodes above as arguments;
the visitor computes it exactly (`base_builds`), so `draft_eq` gives the draft of a node as a function of the node.

Of the pages only those of accounts and the overview look at the link table and at the path, and all they see of them is
sizes. `built_member` and `programPages_congr` say so: where the sizes are the same and the nodes look the same, the
pages are the same, at any depth that suffices.
-/
import InterfacePages.Proofs.DocsDrafts
import InterfacePages.Proofs.StatelessVisits

namespace InterfacePages

namespace Docs

/-! ## Pages -/

section

variable (scope : Scope)

def ownPages (path : List Node) (n : Node) : Except Fault (List PageMap) := do
  let overviewPage ← overview scope path n
  return [PageMap.page "index.md" overviewPage, PageMap.page? "errors.md" (← errors scope n)]

def programPages (inside : Node → Except Fault PageMap) (path : List Node) (n : Node) : Except Fault PageMap := do
  let own ← ownPages scope path n
  let pdas ← eachNode inside (← n.items .pdas)
  let accounts ← eachNode inside (← n.items .accounts)
  let types ← eachNode inside (← n.items .definedTypes)
  let instructions ← (← n.leafInstructions).mapM inside
  return PageMap.merge (own ++ pdas ++ accounts ++ types ++ instructions)

/-- the pages of a node below others, visited at most `depth` deep -/
def built : Nat → NodeStack → Node → Except Fault PageMap
  | 0, _, _ => .error .nestingTooDeep
  | depth + 1, above, n =>
    match n.kind? with
    | some .account => do memberPage "accounts" n (← account scope (n :: above).reverse n)
    | some .definedType => do memberPage "types" n (← definedType scope n)
    | some .instruction => do memberPage "instructions" n (← instruction scope n)
    | some .pda => do memberPage "pdas" n (← address scope n)
    | some .program => programPages scope (built depth (n :: above)) (n :: above).reverse n
    | some .root => do return PageMap.merge (← (← n.programs).mapM (built depth (n :: above)))
    | _ => .ok .empty

end

/-! ## Visits -/

section

variable {naming : Naming} {package : Text} {links : LinkTable} {s : Traversal Unit} {n : Node} {above : NodeStack}
  {visit : Node → Rendering}

theorem onMember_builds {kind : Kind} {folder : Text} (page : Scope → List Node → Except Fault Fragment)
    (hs : s.stack = n :: above) (hl : s.links = links) (hn : n.kind? = some kind) :
    Act.Computes Eq (do
        let path ← Traversal.pathTo kind
        withScope naming package fun scope => do memberPage folder n (← page scope path)) s
      (do memberPage folder n (← page ⟨naming, package, links⟩ (n :: above).reverse)) :=
  .next (Traversal.perform_pathTo hs hn) (computes_withScope hl (.refl (fun _ => rfl) _))

theorem onProgram_builds {inside : Node → Except Fault PageMap} (hv : ∀ m, (visit m).Computes Eq s (inside m))
    (hs : s.stack = n :: above) (hl : s.links = links) (hn : n.kind? = some .program) :
    (onProgram naming package n visit).Computes Eq s
      (programPages ⟨naming, package, links⟩ inside (n :: above).reverse n) := by
  refine .next (Traversal.perform_pathTo hs hn) ?_
  refine Act.Computes.bind (R := Eq) (computes_withScope hl (.refl (fun _ => rfl) _)) fun own _ _ ho => ?_
  refine .from fun _ _ => (Traversal.computes_visitAll_eq hv _).bind fun pdas _ _ hp => ?_
  refine .from fun _ _ => (Traversal.computes_visitAll_eq hv _).bind fun accounts _ _ ha => ?_
  refine .from fun _ _ => (Traversal.computes_visitAll_eq hv _).bind fun types _ _ ht => ?_
  refine .from fun _ _ => (Traversal.computes_mapM_eq hv _).bind fun instructions _ _ hi => ?_
  subst ho hp ha ht hi
  exact .pure rfl

/-- every handler builds the pages of its node as long as the visits nested in it do -/
theorem base_builds (naming : Naming) (package : Text) (depth : Nat) (hs : s.stack = n :: above) (hl : s.links = links)
    (hv : ∀ m, (visit m).Computes Eq s (built ⟨naming, package, links⟩ depth (n :: above) m)) :
    ((base naming package).handlerFor n n visit).Computes Eq s
      (built ⟨naming, package, links⟩ (depth + 1) above n) := by
  rw [base, Visitor.handlerFor_ofKinds _ (by simp [handlers])]
  unfold built
  have hnone : (return OrderedMap.empty : Rendering).Computes Eq s (.ok .empty) := .pure rfl
  cases hk : n.kind? with
  | none => exact hnone
  | some k =>
    cases k with
    | account => exact onMember_builds (fun scope path => account scope path n) hs hl hk
    | definedType => exact onMember_builds (fun scope _ => definedType scope n) hs hl hk
    | instruction => exact onMember_builds (fun scope _ => instruction scope n) hs hl hk
    | pda => exact onMember_builds (fun scope _ => address scope n) hs hl hk
    | program => exact onProgram_builds hv hs hl hk
    | root =>
      refine .from fun programs _ => (Traversal.computes_mapM_eq hv _).bind fun pages _ _ hp => ?_
      subst hp
      exact .pure rfl
    | _ => exact hnone

end

/-- the draft of a node: its links are recorded and its pages built with them -/
theorem draft_eq (options : Options) (n : Node) : draft options n = (do
    let naming ← Naming.make Role.client options.transformers
    let links ← LinkTable.recorded n
    built ⟨naming, options.package, links⟩ (n.height + 1) [] n) := by
  refine congrArg _ (funext fun naming => ?_)
  refine (Visitor.perform_start _ n _).trans (congrArg _ (funext fun links => ?_))
  have hinside : ∀ m, ((visitor naming options.package).visit (throw .nestingTooDeep) n.height m).Computes Eq
      (Traversal.push n ⟨[], links, true, ()⟩) (built ⟨naming, options.package, links⟩ n.height [n] m) := fun m =>
    Visitor.computes_visit _ (base naming options.package) (fun t => t.links = links ∧ t.linked = true)
      (built ⟨naming, options.package, links⟩) (fun m visit _ ht => Visitor.perform_keepingLinks _ m visit ht.2)
      (fun _ _ ht => ht) (fun _ _ => rfl)
      (fun depth _ _ _ _ ht hs hv => base_builds naming options.package depth hs ht.1 hv) n.height m _ ⟨rfl, rfl⟩
  have hbuilds := Visitor.computes_keepingStack (base_builds naming options.package n.height rfl rfl hinside)
  exact congrArg Prod.fst (Act.computes_eq.1 hbuilds)

/-! ## What pages see -/

section

variable {naming : Naming} {package : Text} {links links' : LinkTable} {path path' : List Node} {n n' : Node}

/-- two nodes declare the same and have the same name and description -/
structure SameFace (n n' : Node) : Prop where
  accounts : n.accounts = n'.accounts
  leafInstructions : n.leafInstructions = n'.leafInstructions
  pdas : n.pdas = n'.pdas
  definedTypes : n.definedTypes = n'.definedTypes
  errors : n.errors = n'.errors
  name : n.get .name = n'.get .name
  docs : n.get .docs = n'.get .docs

theorem SameFace.refl (n : Node) : SameFace n n := ⟨rfl, rfl, rfl, rfl, rfl, rfl, rfl⟩

theorem SameFace.nameText (h : SameFace n n') : n.nameText = n'.nameText := by
  unfold Node.nameText
  rw [h.name]

/-- the type that an attribute of an account holds has the same size on two paths -/
def SameSize (links links' : LinkTable) (path path' : List Node) (n : Node) : Prop :=
  ∀ type, n.child .data = .ok type → type.byteSize links path = type.byteSize links' path'

theorem sizeText_congr (h : SameSize links links' path path' n) {β : Type} (next : Text → Except Fault β) :
    (n.get .data >>= fun type => sizeText ⟨naming, package, links⟩ path type >>= next) =
      n.get .data >>= fun type => sizeText ⟨naming, package, links'⟩ path' type >>= next := by
  refine bind_congr_ok fun v hv => congrArg (· >>= next) (bind_congr_ok fun type htype => ?_)
  rw [h type (except_bind_ok.2 ⟨v, hv, htype⟩)]

/-- the page of an account sees the size of its data -/
theorem account_congr (h : SameSize links links' path path' n) :
    account ⟨naming, package, links⟩ path n = account ⟨naming, package, links'⟩ path' n := by
  unfold account
  refine bind_congr_ok fun type _ => bind_congr_ok fun data _ => ?_
  refine bind_congr_ok fun fetch _ => bind_congr_ok fun fetchMaybe _ => bind_congr_ok fun decode _ => ?_
  refine bind_congr_ok fun fetchAll _ => bind_congr_ok fun name _ => bind_congr_ok fun docs _ => ?_
  refine bind_congr_ok fun imports _ => bind_congr_ok fun fieldPart _ => ?_
  exact sizeText_congr h _

/-- the row of an account in an overview sees the size of its data -/
theorem accountSummary_congr (h : SameSize links links' (path ++ [n]) (path' ++ [n]) n) :
    accountSummary ⟨naming, package, links⟩ path n = accountSummary ⟨naming, package, links'⟩ path' n := by
  unfold accountSummary
  exact bind_congr_ok fun link _ => sizeText_congr h _

/-- the overview of a program sees the sizes of its accounts -/
theorem overview_congr (hface : SameFace n n') (hne : path ≠ []) (hne' : path' ≠ [])
    (h : ∀ as, n.accounts = .ok as → ∀ a ∈ as, SameSize links links' (path ++ [a]) (path' ++ [a]) a) :
    overview ⟨naming, package, links⟩ path n = overview ⟨naming, package, links'⟩ path' n' := by
  have hpath : path.isEmpty = false := List.isEmpty_eq_false_iff.2 hne
  have hpath' : path'.isEmpty = false := List.isEmpty_eq_false_iff.2 hne'
  simp only [overview, hpath, hpath', Bool.false_eq_true, if_false]
  rw [← hface.accounts]
  refine bind_congr_ok fun as has => ?_
  have hrows : familySection "Accounts" ["Account", "Size"] (accountSummary ⟨naming, package, links⟩ path) as =
      familySection "Accounts" ["Account", "Size"] (accountSummary ⟨naming, package, links'⟩ path') as := by
    unfold familySection
    rw [Node.mapM_congr fun a ha => accountSummary_congr (h as has a ha)]
  rw [hrows, ← hface.leafInstructions, ← hface.pdas, ← hface.definedTypes, ← hface.errors, ← hface.nameText]
  refine bind_congr_ok fun accountPart _ => bind_congr_ok fun leaves _ => bind_congr_ok fun instructionPart _ => ?_
  refine bind_congr_ok fun pdas _ => bind_congr_ok fun addressPart _ => bind_congr_ok fun types _ => ?_
  refine bind_congr_ok fun typePart _ => bind_congr_ok fun errors _ => ?_
  unfold Scope.identifier description
  rw [← hface.nameText, ← hface.docs]

theorem errors_congr (hface : SameFace n n') :
    errors ⟨naming, package, links⟩ n = errors ⟨naming, package, links'⟩ n' := by
  unfold errors Scope.identifier
  rw [hface.errors, hface.nameText]

theorem ownPages_congr (hface : SameFace n n') (hne : path ≠ []) (hne' : path' ≠ [])
    (h : ∀ as, n.accounts = .ok as → ∀ a ∈ as, SameSize links links' (path ++ [a]) (path' ++ [a]) a) :
    ownPages ⟨naming, package, links⟩ path n = ownPages ⟨naming, package, links'⟩ path' n' := by
  unfold ownPages
  rw [overview_congr hface hne hne' h, errors_congr hface]

/-- the pages of a program see its own pages and those of what is visited in it -/
theorem programPages_congr {scope scope' : Scope} {inside inside' : Node → Except Fault PageMap}
    (hown : ownPages scope path n = ownPages scope' path' n')
    (hitems : ∀ a ∈ [Attr.pdas, .accounts, .definedTypes],
      Agree PageMap.SamePages (n.items a >>= eachNode inside) (n'.items a >>= eachNode inside'))
    (hleaves : n.leafInstructions = n'.leafInstructions)
    (hinside : ∀ ls, n.leafInstructions = .ok ls → ∀ l ∈ ls, inside l = inside' l) :
    programPages scope inside path n = programPages scope' inside' path' n' := by
  simp only [List.forall_mem_cons] at hitems
  obtain ⟨hpdas, haccounts, htypes, -⟩ := hitems
  unfold programPages
  rw [← hown, ← hleaves]
  refine Agree.eq (.after _ fun own => hpdas.bind_both fun pdas pdas' hp => ?_)
  refine haccounts.bind_both fun accounts accounts' ha => htypes.bind_both fun types types' ht => ?_
  refine (PageMap.mapM_agree hinside).bind_both fun instructions instructions' hi => ?_
  refine .ok (PageMap.merge_congr ?_)
  exact (((PageMap.SamePages.append rfl hp).append ha).append ht).append hi

/-- the page of anything that holds no pages of other nodes sees at most the size of its data -/
theorem built_member {depth depth' : Nat} {above above' : NodeStack} (hprogram : n.kind? ≠ some .program)
    (hroot : n.kind? ≠ some .root)
    (h : n.isKind .account = true → SameSize links links' (n :: above).reverse (n :: above').reverse n) :
    built ⟨naming, package, links⟩ (depth + 1) above n = built ⟨naming, package, links'⟩ (depth' + 1) above' n := by
  unfold built
  cases hk : n.kind? with
  | none => rfl
  | some k =>
    cases k with
    | account =>
      dsimp only
      rw [account_congr (h (beq_iff_eq.2 hk))]
    | program => exact absurd hk hprogram
    | root => exact absurd hk hroot
    | _ => rfl

/-- the pages of no known kind of node are none -/
theorem built_unknown (scope : Scope) {depth : Nat} {above : NodeStack} (hk : n.kind? = none) :
    built scope (depth + 1) above n = .ok .empty := by
  unfold built
  rw [hk]

end

end Docs

end InterfacePages

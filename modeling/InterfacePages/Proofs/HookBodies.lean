/-
Which hooks stand in the modules of a tree.

Visits gather something of each node they come to (`gather`), and the drafts of a tree are gathered in this way
(`drafts_eq_gather`). So what describes the drafts of every single node describes those of the tree (`gather_carries`).
A `Body` tells the little that decides about the hooks of a node: with names spelled by their standard rules, it knows
which hooks the draft of the node declares and what they import (`bodies_describe`).
-/
import InterfacePages.Proofs.HookFamilies
import InterfacePages.Proofs.HookNeeds

namespace InterfacePages

namespace Hooks

open PageMap (Draft)

/-! ## Gathering -/

/-- what visits gather below some nodes, at most so deep: what `own` tells of each visited node, in order -/
def gather {α : Type} (own : NodeStack → Node → Except Fault (List α)) : Nat → NodeStack → Node → Except Fault (List α)
  | 0, _, _ => .error .nestingTooDeep
  | depth + 1, above, n => do
    let here ← own above n
    let inside : Node → Except Fault (List α) := gather own depth (n :: above)
    match n.kind? with
    | some .program => do
      let pdas ← eachNode inside (← n.items .pdas)
      let accounts ← eachNode inside (← n.items .accounts)
      let instructions ← (← n.leafInstructions).mapM inside
      return here ++ (pdas ++ accounts ++ instructions).flatten
    | some .root => do return here ++ (← (← n.programs).mapM inside).flatten
    | _ => return here

/-- the drafts that a visit puts for the visited node itself, with the indexes of a root -/
def nodeDrafts (naming : Naming) (links : LinkTable) (above : NodeStack) (n : Node) : Except Fault (List Draft) :=
  match n.kind? with
  | some .root => do return (← indexDrafts n).flatten
  | _ => ownDrafts naming links above n

/-- **The drafts of a tree are gathered from those of its nodes.** -/
theorem drafts_eq_gather (naming : Naming) (links : LinkTable) (depth : Nat) (above : NodeStack) (n : Node) :
    drafts naming links depth above n = gather (nodeDrafts naming links) depth above n := by
  induction depth generalizing above n with
  | zero => rfl
  | succ depth ih =>
    have hinside : drafts naming links depth (n :: above) = gather (nodeDrafts naming links) depth (n :: above) :=
      funext fun m => ih (n :: above) m
    unfold drafts gather
    rw [hinside]
    -- the visits inside are the same now, and must not be opened with the drafts of the node
    generalize gather (nodeDrafts naming links) depth (n :: above) = inside
    unfold nodeDrafts ownDrafts
    cases n.kind? with
    | none => rfl
    | some k =>
      cases k with
      | account => exact (bind_pure _).symm
      | instruction => exact (bind_pure _).symm
      | pda => exact (bind_pure _).symm
      | program =>
        simp only [programDrafts, bind_assoc, List.flatten_append, List.flatten_cons, List.flatten_nil, List.append_nil,
          List.append_assoc]
      | root =>
        simp only [rootDrafts, bind_assoc, pure_bind, List.flatten_append]
      | _ => rfl

section

variable {α β : Type} {own : NodeStack → Node → Except Fault (List α)} {own' : NodeStack → Node → Except Fault (List β)}
  {R : List α → List β → Prop}

theorem carries_flatten (hnil : R [] []) (happend : ∀ as bs as' bs', R as bs → R as' bs' → R (as ++ as') (bs ++ bs'))
    {ass : List (List α)} {bss : List (List β)} (h : List.Forall₂ R ass bss) : R ass.flatten bss.flatten := by
  induction h with
  | nil => exact hnil
  | cons h _ ih => exact happend _ _ _ _ h ih

theorem carries_mapM {ι : Type} {f : ι → Except Fault (List α)} {g : ι → Except Fault (List β)}
    (h : ∀ i as, f i = .ok as → ∃ bs, g i = .ok bs ∧ R as bs) {is : List ι} {ass : List (List α)}
    (hf : is.mapM f = .ok ass) : ∃ bss, is.mapM g = .ok bss ∧ List.Forall₂ R ass bss := by
  have hpairs := mapM_eq_ok.1 hf
  clear hf
  induction hpairs with
  | nil => exact ⟨[], rfl, .nil⟩
  | @cons i as _ _ hi _ ih =>
    obtain ⟨bs, hbs, hr⟩ := h i as hi
    obtain ⟨bss, hbss, hrs⟩ := ih
    exact ⟨bs :: bss, mapM_eq_ok.2 (.cons hbs (mapM_eq_ok.1 hbss)), .cons hr hrs⟩

/-- what relates what is told of each node relates what is gathered -/
theorem gather_carries (hnil : R [] []) (happend : ∀ as bs as' bs', R as bs → R as' bs' → R (as ++ as') (bs ++ bs'))
    (hown : ∀ above n as, own above n = .ok as → ∃ bs, own' above n = .ok bs ∧ R as bs) {depth : Nat}
    {above : NodeStack} {n : Node} {as : List α} (h : gather own depth above n = .ok as) :
    ∃ bs, gather own' depth above n = .ok bs ∧ R as bs := by
  induction depth generalizing above n as with
  | zero => cases h
  | succ depth ih =>
    have hinside : ∀ m as, gather own depth (n :: above) m = .ok as →
        ∃ bs, gather own' depth (n :: above) m = .ok bs ∧ R as bs := fun m as hm => ih hm
    have heach : ∀ (v : Value) as, (do gather own depth (n :: above) (← v.asNode)) = .ok as →
        ∃ bs, (do gather own' depth (n :: above) (← v.asNode)) = .ok bs ∧ R as bs := fun v as hv => by
      obtain ⟨m, hm, hv⟩ := except_bind_ok.1 hv
      obtain ⟨bs, hbs, hr⟩ := hinside m as hv
      exact ⟨bs, except_bind_ok.2 ⟨m, hm, hbs⟩, hr⟩
    unfold gather at h ⊢
    obtain ⟨here, hhere, h⟩ := except_bind_ok.1 h
    obtain ⟨here', hhere', hr⟩ := hown above n here hhere
    rw [hhere']
    cases hk : n.kind? with
    | none =>
      rw [hk] at h
      cases h
      exact ⟨here', rfl, hr⟩
    | some k =>
      rw [hk] at h
      cases k with
      | program =>
        obtain ⟨vs, hvs, h⟩ := except_bind_ok.1 h
        obtain ⟨pdas, hpdas, h⟩ := except_bind_ok.1 h
        obtain ⟨vs', hvs', h⟩ := except_bind_ok.1 h
        obtain ⟨accounts, haccounts, h⟩ := except_bind_ok.1 h
        obtain ⟨leaves, hleaves, h⟩ := except_bind_ok.1 h
        obtain ⟨instructions, hinstructions, h⟩ := except_bind_ok.1 h
        cases h
        obtain ⟨pdas', hpdas', hrp⟩ := carries_mapM heach hpdas
        obtain ⟨accounts', haccounts', hra⟩ := carries_mapM heach haccounts
        obtain ⟨instructions', hinstructions', hri⟩ := carries_mapM hinside hinstructions
        refine ⟨here' ++ (pdas' ++ accounts' ++ instructions').flatten, ?_, ?_⟩
        · refine except_bind_ok.2 ⟨here', rfl, except_bind_ok.2 ⟨vs, hvs, ?_⟩⟩
          refine except_bind_ok.2 ⟨pdas', hpdas', except_bind_ok.2 ⟨vs', hvs', ?_⟩⟩
          refine except_bind_ok.2 ⟨accounts', haccounts', except_bind_ok.2 ⟨leaves, hleaves, ?_⟩⟩
          exact except_bind_ok.2 ⟨instructions', hinstructions', rfl⟩
        · exact happend _ _ _ _ hr (carries_flatten hnil happend (List.rel_append (List.rel_append hrp hra) hri))
      | root =>
        obtain ⟨programs, hprograms, h⟩ := except_bind_ok.1 h
        obtain ⟨ass, hass, h⟩ := except_bind_ok.1 h
        cases h
        obtain ⟨bss, hbss, hrs⟩ := carries_mapM hinside hass
        refine ⟨here' ++ bss.flatten, ?_, happend _ _ _ _ hr (carries_flatten hnil happend hrs)⟩
        refine except_bind_ok.2 ⟨here', rfl, except_bind_ok.2 ⟨programs, hprograms, ?_⟩⟩
        exact except_bind_ok.2 ⟨bss, hbss, rfl⟩
      | _ =>
        cases h
        exact ⟨here', rfl, hr⟩

end

/-! ## Bodies -/

/-- what decides about the hooks of a node: its name, and the few things that make a difference -/
inductive Body where
  /-- an account, and the address its link leads to, if it does: the name, and whether seeds have to be given -/
  | account (name : Text) (derived : Option (Text × Bool))
  /-- a program, and whether it has errors to explain -/
  | program (name : Text) (explains : Bool)
  /-- an address, and whether seeds have to be given -/
  | address (name : Text) (given : Bool)
  | instruction (name : Text)
  deriving DecidableEq, Repr

namespace Body

def kind : Body → Kind
  | account _ _ => .account
  | program _ _ => .program
  | address _ _ => .pda
  | instruction _ => .instruction

def name : Body → Text
  | account name _ => name
  | program name _ => name
  | address name _ => name
  | instruction name => name

def path (b : Body) : Text := modulePath (folderOf b.kind) (Name.camelCase b.name)

def subject (b : Body) : Kind × Text := (b.kind, Name.pascalCase b.name)

def hooks : Body → List Text
  | account name derived =>
    [Role.accountHook.standard name] ++
      (if derived.isSome then [Role.accountFromSeedsHook.standard name] else []) ++
      [Role.batchAccountHook.standard name]
  | program name _ => [Role.programHook.standard name]
  | address name _ => [Role.pdaHook.standard name]
  | instruction name => [Role.instructionHook.standard name]

/-- the symbols of the view library that the hooks use -/
def views : Body → List Text
  | account _ _ => ["useEffect", "useMemo", "useState"]
  | program _ explains => if explains then ["useMemo", "useCallback"] else ["useMemo"]
  | address _ _ => ["useEffect", "useState"]
  | instruction _ => ["useCallback", "useState"]

/-- the modules of capabilities that the hooks use -/
def capabilities : Body → Needs
  | account _ _ => [addressType, connectionTypes, subscriptionTypes]
  | program _ _ => [addressType]
  | address _ _ => [addressType]
  | instruction _ => [connectionTypes, subscriptionTypes] ++ sendingNeeds

/-- the symbols for an address of a client: what finds it, and the type of its seeds -/
def addressSymbols (name : Text) (given : Bool) : List Text :=
  [Role.pdaFindFunction.standard name] ++ if given then ["type " ++ Role.pdaSeedsType.standard name] else []

def dataSymbols (name : Text) : List Text :=
  ["type " ++ Role.dataType.standard name, Role.decoderFunction.standard name]

/-- the symbols of the client that the hooks use -/
def symbols : Body → List Text
  | account name derived => dataSymbols name ++ derived.elim [] fun d => addressSymbols d.1 d.2
  | program name explains =>
    [Role.programAddressConstant.standard name] ++
      if explains then
        [Role.programIsErrorFunction.standard name, Role.programGetErrorMessageFunction.standard name,
          "type " ++ Role.programErrorUnion.standard name]
      else []
  | address name given => addressSymbols name given
  | instruction name =>
    [Role.instructionSyncFunction.standard name, "type " ++ Role.instructionSyncInputType.standard name]

def needs (b : Body) : Needs := react b.views :: (b.capabilities ++ [client b.symbols])

end Body

def addressOf (links : LinkTable) (path : List Node) (n : Node) : Except Fault (Option Node) := do
  let link ← n.get .pda
  if link.isAbsent then return none
  links.resolve path (← link.asNode)

/-- what decides about the hook of an account that derives its address -/
def derivedFrom (links : LinkTable) (path : List Node) (n : Node) : Except Fault (Option (Text × Bool)) := do
  match ← addressOf links path n with
  | none => return none
  | some pda => return some (← pda.nameText, ← hasGivenSeeds pda)

/-- what decides about the hooks of a visited node -/
def nodeBodies (links : LinkTable) (above : NodeStack) (n : Node) : Except Fault (List Body) :=
  match n.kind? with
  | some .account => do return [.account (← n.nameText) (← derivedFrom links (n :: above).reverse n)]
  | some .program => do return [.program (← n.nameText) !(← n.errors).isEmpty]
  | some .instruction => do return [.instruction (← n.nameText)]
  | some .pda => do return [.address (← n.nameText) (← hasGivenSeeds n)]
  | _ => .ok []

/-- what decides about the hooks of a tree -/
def bodiesOf (links : LinkTable) (root : Node) : Except Fault (List Body) :=
  gather (nodeBodies links) (root.height + 1) [] root

/-- the naming by the rules of the roles alone -/
def plainNaming : Naming := ⟨Role.all, []⟩

def declaration (hook : Text) : Text := "export function " ++ hook ++ "("

/-! ## Hooks of nodes -/

/-- a fragment imports what is needed and declares some hooks -/
structure Draws (f : Fragment) (needs : Needs) (hooks : List Text) : Prop where
  keys : ∀ k, k ∈ f.imports.keys ↔ k ∈ neededKeys needs
  declared : ∀ h ∈ hooks, declaration h <:+: f.content

/-- behind its comment, the lines of a hook begin with what declares it -/
theorem draws_withImports {comment rest : List Text} {more : List (List Text)} {needs : Needs} {f : Fragment}
    {hook line : Text} (h : withImports (comment :: (line :: rest) :: more).flatten needs = .ok f)
    (hhook : declaration hook <+: line) : Draws f needs [hook] := by
  have hline : line ∈ (comment :: (line :: rest) :: more).flatten :=
    List.mem_flatten.2 ⟨_, List.mem_cons_of_mem _ List.mem_cons_self, List.mem_cons_self⟩
  obtain ⟨hcontent, hkeys⟩ := withImports_eq_ok h
  refine ⟨hkeys, List.forall_mem_singleton.2 ?_⟩
  rw [hcontent]
  exact hhook.isInfix.trans (Text.infix_joinWith _ hline)

/-- several hooks need what one of them does, if that is all the others need -/
theorem draws_paragraphs {fs : List Fragment} (ps : List (Needs × Text)) {needs : Needs}
    (h : List.Forall₂ (fun f p => Draws f p.1 [p.2]) fs ps) (hsub : ∀ p ∈ ps, neededKeys p.1 ⊆ neededKeys needs)
    (hall : ∃ p ∈ ps, neededKeys needs ⊆ neededKeys p.1) : Draws (Fragment.paragraphs fs) needs (ps.map Prod.snd) := by
  refine ⟨fun k => ?_, fun hook hhook => ?_⟩
  · refine ImportTable.mem_keys_merge.trans ?_
    simp only [List.mem_map, exists_exists_and_eq_and]
    constructor
    · rintro ⟨f, hf, hk⟩
      obtain ⟨p, hp, hdraws⟩ := exists_of_forall₂ h.flip hf
      exact hsub p hp ((hdraws.keys k).1 hk)
    · intro hk
      obtain ⟨p, hp, hneeds⟩ := hall
      obtain ⟨f, hf, hdraws⟩ := exists_of_forall₂ h hp
      exact ⟨f, hf, (hdraws.keys k).2 (hneeds hk)⟩
  · obtain ⟨p, hp, rfl⟩ := List.mem_map.1 hhook
    obtain ⟨f, hf, hdraws⟩ := exists_of_forall₂ h hp
    exact (hdraws.declared _ (List.mem_singleton_self _)).trans (Text.infix_joinWith _ (List.mem_map_of_mem hf))

variable {links : LinkTable} {n : Node} {name : Text}

theorem identifier_plain (hn : n.nameText = .ok name) (role : Role) :
    Scope.identifier ⟨plainNaming, links⟩ role n = .ok (role.standard name) := by
  have hrole : plainNaming.roles.contains role = true := by cases role <;> decide
  rw [Scope.identifier, hn]
  change plainNaming.identifier role name = _
  rw [Naming.identifier, if_pos hrole]
  rfl

theorem identifier_bind {ρ : Type} (hn : n.nameText = .ok name) (role : Role) (next : Text → Except Fault ρ) :
    (Scope.identifier ⟨plainNaming, links⟩ role n >>= next) = next (role.standard name) := by
  rw [identifier_plain hn role]
  rfl

theorem declaration_prefix (hook : Text) {t : Text} (ht : Text.ofString "(" <+: t) (u v : Text) :
    declaration hook <+: "export function " ++ hook ++ t ++ u ++ v := by
  have hline : declaration hook <+: "export function " ++ hook ++ t := (List.prefix_append_right_inj _).2 ht
  exact hline.trans ((List.prefix_append _ u).trans (List.prefix_append _ v))

def watchingNeeds (symbols : List Text) : Needs :=
  [react ["useEffect", "useMemo", "useState"], addressType, connectionTypes, subscriptionTypes, client symbols]

def fetchingNeeds (symbols : List Text) : Needs :=
  [react ["useEffect", "useMemo", "useState"], addressType, connectionTypes, client symbols]

theorem fetchingNeeds_subset (symbols : List Text) :
    neededKeys (fetchingNeeds symbols) ⊆ neededKeys (watchingNeeds symbols) := by
  intro k
  simp only [watchingNeeds, fetchingNeeds, neededKeys_cons, List.mem_append]
  exact Or.imp_right (Or.imp_right (Or.imp_right Or.inr))

theorem watchingNeeds_subset (symbols symbols' : List Text) :
    neededKeys (watchingNeeds symbols) ⊆ neededKeys (watchingNeeds (symbols ++ symbols')) := by
  intro k
  simp only [watchingNeeds, client, neededKeys_cons, keysOf_append, List.mem_append]
  exact Or.imp_right (Or.imp_right (Or.imp_right (Or.imp_right (Or.imp_left Or.inl))))

theorem draws_accountHook {f : Fragment} (hn : n.nameText = .ok name)
    (h : accountHook ⟨plainNaming, links⟩ n = .ok f) :
    Draws f (watchingNeeds (Body.dataSymbols name)) [Role.accountHook.standard name] := by
  rw [accountHook, identifier_bind hn, identifier_bind hn, identifier_bind hn] at h
  refine draws_withImports h ?_
  exact declaration_prefix _ (by decide) _ _

theorem draws_batchHook {f : Fragment} (hn : n.nameText = .ok name) (h : batchHook ⟨plainNaming, links⟩ n = .ok f) :
    Draws f (fetchingNeeds (Body.dataSymbols name)) [Role.batchAccountHook.standard name] := by
  rw [batchHook, identifier_bind hn, identifier_bind hn, identifier_bind hn] at h
  refine draws_withImports h ?_
  exact declaration_prefix _ (by decide) _ _

/-- what hooks of addresses need: the symbols for seeds may be asked for together with the others -/
theorem draws_seeds {f : Fragment} (needs : Needs) (symbols seeds : List Text) {given : Bool} {hooks : List Text}
    (h : Draws f (needs ++ [client symbols] ++ if given then [client seeds] else []) hooks) :
    Draws f (needs ++ [client (symbols ++ if given then seeds else [])]) hooks := by
  refine ⟨fun k => (h.keys k).trans (Iff.of_eq (congrArg (k ∈ ·) ?_)), h.declared⟩
  cases given with
  | true =>
    simp only [client, neededKeys_cons, neededKeys_append, neededKeys_nil, keysOf_append, List.append_assoc,
      List.append_nil, if_true]
  | false => simp only [Bool.false_eq_true, if_false, List.append_nil]

theorem draws_fromSeedsHook {f : Fragment} {pda : Node} (hn : n.nameText = .ok name)
    (h : fromSeedsHook ⟨plainNaming, links⟩ n pda = .ok f) :
    ∃ other given, pda.nameText = .ok other ∧ hasGivenSeeds pda = .ok given ∧
      Draws f (watchingNeeds (Body.dataSymbols name ++ Body.addressSymbols other given))
        [Role.accountFromSeedsHook.standard name] := by
  rw [fromSeedsHook, identifier_bind hn, identifier_bind hn] at h
  obtain ⟨_, hfind, -⟩ := except_bind_ok.1 h
  obtain ⟨other, hother, -⟩ := except_bind_ok.1 hfind
  rw [identifier_bind hother, identifier_bind hother] at h
  obtain ⟨given, hgiven, h⟩ := except_bind_ok.1 h
  rw [identifier_bind hn] at h
  refine ⟨other, given, hother, hgiven, ?_⟩
  have hline := declaration_prefix (Role.accountFromSeedsHook.standard name) (List.prefix_refl (Text.ofString "("))
    (textIf given ("seeds: " ++ Role.pdaSeedsType.standard other ++ ", ")) "config: "
  have hdraws := draws_withImports h (hline.trans ((List.prefix_append _ _).trans (List.prefix_append _ _)))
  have hneeds := draws_seeds [react ["useEffect", "useMemo", "useState"], addressType, connectionTypes, subscriptionTypes]
    (Body.dataSymbols name ++ [Role.pdaFindFunction.standard other]) _ hdraws
  rwa [List.append_assoc] at hneeds

/-- a fragment is drawn from what decides about the hooks of a node -/
def Body.Drawn (b : Body) (f : Fragment) : Prop := Draws f b.needs b.hooks

theorem drawn_watched {watch batch : Fragment} (hw : Draws watch (watchingNeeds (Body.dataSymbols name))
      [Role.accountHook.standard name])
    (hb : Draws batch (fetchingNeeds (Body.dataSymbols name)) [Role.batchAccountHook.standard name]) :
    (Body.account name none).Drawn (Fragment.paragraphs [watch, batch]) := by
  have hneeds : (Body.account name none).needs = watchingNeeds (Body.dataSymbols name) := by
    simp only [Body.needs, Body.symbols, Option.elim_none, List.append_nil]
    rfl
  unfold Body.Drawn
  rw [hneeds]
  refine draws_paragraphs [(_, _), (_, _)] (.cons hw (.cons hb .nil)) ?_ ⟨_, List.mem_cons_self, fun _ => id⟩
  simp only [List.forall_mem_cons]
  exact ⟨fun _ => id, fetchingNeeds_subset _, fun p hp => absurd hp List.not_mem_nil⟩

theorem drawn_derived {watch derive batch : Fragment} {other : Text} {given : Bool}
    (hw : Draws watch (watchingNeeds (Body.dataSymbols name)) [Role.accountHook.standard name])
    (hd : Draws derive (watchingNeeds (Body.dataSymbols name ++ Body.addressSymbols other given))
      [Role.accountFromSeedsHook.standard name])
    (hb : Draws batch (fetchingNeeds (Body.dataSymbols name)) [Role.batchAccountHook.standard name]) :
    (Body.account name (some (other, given))).Drawn (Fragment.paragraphs [watch, derive, batch]) := by
  have hwatch := watchingNeeds_subset (Body.dataSymbols name) (Body.addressSymbols other given)
  refine draws_paragraphs [(_, _), (_, _), (_, _)] (.cons hw (.cons hd (.cons hb .nil))) ?_
    ⟨_, List.mem_cons_of_mem _ List.mem_cons_self, fun _ => id⟩
  simp only [List.forall_mem_cons]
  exact ⟨hwatch, fun _ => id, fun _ hk => hwatch (fetchingNeeds_subset _ hk), fun p hp => absurd hp List.not_mem_nil⟩

theorem fromSeeds_eq (scope : Scope) (path : List Node) (n : Node) : fromSeeds scope path n = (do
    match ← addressOf scope.links path n with
    | none => return none
    | some pda => return some (← fromSeedsHook scope n pda)) := by
  unfold fromSeeds addressOf
  cases n.get .pda with
  | error e => rfl
  | ok link =>
    change (if link.isAbsent then _ else _) = ((if link.isAbsent then _ else _) >>= _)
    split
    · rfl
    · cases link.asNode <;> rfl

theorem drawn_account {path : List Node} {f : Fragment} (hn : n.nameText = .ok name)
    (h : account ⟨plainNaming, links⟩ path n = .ok f) :
    ∃ derived, derivedFrom links path n = .ok derived ∧ (Body.account name derived).Drawn f := by
  obtain ⟨watch, hwatch, h⟩ := except_bind_ok.1 h
  obtain ⟨derived, hderived, h⟩ := except_bind_ok.1 h
  obtain ⟨batch, hbatch, h⟩ := except_bind_ok.1 h
  cases h
  have hw := draws_accountHook hn hwatch
  have hb := draws_batchHook hn hbatch
  rw [fromSeeds_eq] at hderived
  obtain ⟨target, htarget, hderived⟩ := except_bind_ok.1 hderived
  cases target with
  | none =>
    cases hderived
    exact ⟨none, except_bind_ok.2 ⟨none, htarget, rfl⟩, drawn_watched hw hb⟩
  | some pda =>
    obtain ⟨derive, hderive, hderived⟩ := except_bind_ok.1 hderived
    cases hderived
    obtain ⟨other, given, hother, hgiven, hd⟩ := draws_fromSeedsHook hn hderive
    refine ⟨some (other, given), except_bind_ok.2 ⟨some pda, htarget, ?_⟩, drawn_derived hw hd hb⟩
    exact except_bind_ok.2 ⟨other, hother, except_bind_ok.2 ⟨given, hgiven, rfl⟩⟩

theorem drawn_instruction {f : Fragment} (hn : n.nameText = .ok name)
    (h : instruction ⟨plainNaming, links⟩ n = .ok f) : (Body.instruction name).Drawn f := by
  rw [instruction, identifier_bind hn, identifier_bind hn, identifier_bind hn] at h
  refine draws_withImports h ?_
  exact declaration_prefix _ (by decide) _ _

theorem drawn_address {f : Fragment} (hn : n.nameText = .ok name) (h : address ⟨plainNaming, links⟩ n = .ok f) :
    ∃ given, hasGivenSeeds n = .ok given ∧ (Body.address name given).Drawn f := by
  rw [address, identifier_bind hn, identifier_bind hn] at h
  obtain ⟨given, hgiven, h⟩ := except_bind_ok.1 h
  rw [identifier_bind hn] at h
  refine ⟨given, hgiven, ?_⟩
  have hline := declaration_prefix (Role.pdaHook.standard name) (List.prefix_refl (Text.ofString "("))
    (textIf given ("seeds: " ++ Role.pdaSeedsType.standard name ++ ", ")) "config: "
  have hdraws := draws_withImports h (hline.trans ((List.prefix_append _ _).trans (List.prefix_append _ _)))
  exact draws_seeds [react ["useEffect", "useState"], addressType] [Role.pdaFindFunction.standard name] _ hdraws

theorem drawn_program {f : Fragment} (hn : n.nameText = .ok name) (h : program ⟨plainNaming, links⟩ n = .ok f) :
    ∃ errors, n.errors = .ok errors ∧ (Body.program name !errors.isEmpty).Drawn f := by
  rw [program, identifier_bind hn] at h
  obtain ⟨errors, herrors, h⟩ := except_bind_ok.1 h
  refine ⟨errors, herrors, ?_⟩
  by_cases hempty : errors.isEmpty = true
  · rw [if_pos hempty, identifier_bind hn] at h
    rw [hempty]
    refine draws_withImports h ?_
    exact declaration_prefix _ (by decide) _ _
  · rw [if_neg hempty, identifier_bind hn, identifier_bind hn, identifier_bind hn, identifier_bind hn] at h
    rw [eq_false_of_ne_true hempty]
    refine draws_withImports h ?_
    exact declaration_prefix _ (by decide) _ _

/-! ## Hooks of trees -/

/-- the drafts that import anything are drawn from the bodies, one from each -/
structure Describes (ds : List Draft) (bs : List Body) : Prop where
  source : ∀ d ∈ ds, d.2.imports.keys = [] ∨ ∃ b ∈ bs, b.path = d.1 ∧ b.Drawn d.2
  kept : ∀ b ∈ bs, ∃ d ∈ ds, d.1 = b.path ∧ b.Drawn d.2

theorem Describes.append {ds ds' : List Draft} {bs bs' : List Body} (h : Describes ds bs) (h' : Describes ds' bs') :
    Describes (ds ++ ds') (bs ++ bs') where
  source d hd := by
    rcases List.mem_append.1 hd with hd | hd
    · exact (h.source d hd).imp_right fun ⟨b, hb, hdrawn⟩ => ⟨b, List.mem_append_left _ hb, hdrawn⟩
    · exact (h'.source d hd).imp_right fun ⟨b, hb, hdrawn⟩ => ⟨b, List.mem_append_right _ hb, hdrawn⟩
  kept b hb := by
    rcases List.mem_append.1 hb with hb | hb
    · exact (h.kept b hb).imp fun _ hd => ⟨List.mem_append_left _ hd.1, hd.2⟩
    · exact (h'.kept b hb).imp fun _ hd => ⟨List.mem_append_right _ hd.1, hd.2⟩

theorem describes_indexes {ds : List Draft} (h : ∀ d ∈ ds, d.2.imports.keys = []) : Describes ds [] :=
  ⟨fun d hd => .inl (h d hd), fun _ hb => absurd hb List.not_mem_nil⟩

theorem describes_singleton {b : Body} {f : Fragment} (h : b.Drawn f) : Describes [(b.path, f)] [b] :=
  ⟨List.forall_mem_singleton.2 (.inr ⟨b, List.mem_singleton_self b, rfl, h⟩),
    List.forall_mem_singleton.2 ⟨_, List.mem_singleton_self _, rfl, h⟩⟩

theorem index_imports_nothing {nodes : List Node} : Answers (∀ f ∈ ·, f.imports.keys = []) (index nodes) := by
  refine Answers.after _ fun values => Answers.after _ fun names => ?_
  split
  · exact .ok fun f hf => nomatch hf
  · refine .ok fun f hf => ?_
    cases hf
    rw [lines_exportAll]
    rfl

theorem indexDraft_imports_nothing (folder : Text) (nodes : List Node) :
    Answers (fun ds => ∀ d ∈ ds, d.2.imports.keys = []) (indexDraft folder nodes) := by
  refine index_imports_nothing.bind fun body hbody => .ok fun d hd => ?_
  obtain ⟨f, hf, rfl⟩ := List.mem_map.1 hd
  exact hbody f (Option.mem_toList.1 hf)

theorem indexDrafts_import_nothing (n : Node) :
    Answers (fun dss => ∀ ds ∈ dss, ∀ d ∈ ds, d.2.imports.keys = []) (indexDrafts n) := by
  refine .after _ fun programs => .after _ fun accounts => ?_
  refine (indexDraft_imports_nothing _ _).bind fun hooks hh => .after _ fun leaves => ?_
  refine (indexDraft_imports_nothing _ _).bind fun instructions hi => .after _ fun pdas => ?_
  refine (indexDraft_imports_nothing _ _).bind fun addresses ha => .ok ?_
  simp only [List.forall_mem_cons]
  exact ⟨hh, hi, ha, fun ds hds => absurd hds List.not_mem_nil⟩

theorem nodeBodies_describe {above : NodeStack} {ds : List Draft}
    (h : nodeDrafts plainNaming links above n = .ok ds) : ∃ bs, nodeBodies links above n = .ok bs ∧ Describes ds bs := by
  have hnone : Describes [] [] := describes_indexes fun d hd => absurd hd List.not_mem_nil
  unfold nodeDrafts ownDrafts at h
  unfold nodeBodies
  cases hk : n.kind? with
  | none =>
    rw [hk] at h
    cases h
    exact ⟨[], rfl, hnone⟩
  | some k =>
    rw [hk] at h
    cases k with
    | root =>
      obtain ⟨dss, hdss, h⟩ := except_bind_ok.1 h
      cases h
      refine ⟨[], rfl, describes_indexes fun d hd => ?_⟩
      obtain ⟨ds, hds, hd⟩ := List.mem_flatten.1 hd
      exact indexDrafts_import_nothing n dss hdss ds hds d hd
    | account =>
      obtain ⟨f, hf, h⟩ := except_bind_ok.1 h
      obtain ⟨name, hname, rfl⟩ := memberDrafts_ok h
      obtain ⟨derived, hderived, hdrawn⟩ := drawn_account hname hf
      refine ⟨[.account name derived], ?_, describes_singleton hdrawn⟩
      exact except_bind_ok.2 ⟨name, hname, except_bind_ok.2 ⟨derived, hderived, rfl⟩⟩
    | program =>
      obtain ⟨f, hf, h⟩ := except_bind_ok.1 h
      obtain ⟨name, hname, rfl⟩ := memberDrafts_ok h
      obtain ⟨errors, herrors, hdrawn⟩ := drawn_program hname hf
      refine ⟨[.program name !errors.isEmpty], ?_, describes_singleton hdrawn⟩
      exact except_bind_ok.2 ⟨name, hname, except_bind_ok.2 ⟨errors, herrors, rfl⟩⟩
    | instruction =>
      obtain ⟨f, hf, h⟩ := except_bind_ok.1 h
      obtain ⟨name, hname, rfl⟩ := memberDrafts_ok h
      exact ⟨[.instruction name], except_bind_ok.2 ⟨name, hname, rfl⟩, describes_singleton (drawn_instruction hname hf)⟩
    | pda =>
      obtain ⟨f, hf, h⟩ := except_bind_ok.1 h
      obtain ⟨name, hname, rfl⟩ := memberDrafts_ok h
      obtain ⟨given, hgiven, hdrawn⟩ := drawn_address hname hf
      refine ⟨[.address name given], ?_, describes_singleton hdrawn⟩
      exact except_bind_ok.2 ⟨name, hname, except_bind_ok.2 ⟨given, hgiven, rfl⟩⟩
    | _ =>
      cases h
      exact ⟨[], rfl, hnone⟩

/-- **What decides about the hooks of a tree describes its drafts.** -/
theorem bodies_describe {root : Node} {ds : List Draft}
    (h : drafts plainNaming links (root.height + 1) [] root = .ok ds) :
    ∃ bs, bodiesOf links root = .ok bs ∧ Describes ds bs := by
  rw [drafts_eq_gather] at h
  refine gather_carries (describes_indexes fun d hd => absurd hd List.not_mem_nil) ?_ ?_ h
  · exact fun _ _ _ _ => Describes.append
  · exact fun _ _ _ => nodeBodies_describe

end Hooks

end InterfacePages

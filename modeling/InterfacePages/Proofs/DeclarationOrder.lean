/-
The hooks of a tree do not depend on the order of its declarations.

Where the outputs of a tree are distinct, links of a reordered tree lead to the same addresses, so every node has the
same draft as its reordered one and visits gather the same drafts in some order (`drafts_reordered`). Drafts for
distinct paths go through every merge as they are (`built_keeps`), and modules are made path by path, so what stands on
a path is the same before and after (`declaration_order_irrelevant`). The order in which the paths appear does change.
-/
import InterfacePages.Proofs.ReorderedLinks

namespace InterfacePages

/-! ## Maps -/

namespace OrderedMap

variable {κ α β : Type} [DecidableEq κ]

theorem get?_of_perm {m m' : OrderedMap κ α} (h : m.entries.Perm m'.entries) (k : κ) : m.get? k = m'.get? k :=
  Option.ext fun v => by rw [← mem_entries, ← mem_entries, h.mem_iff]

/-- rewriting all values of maps that hold the same gives maps that hold the same -/
theorem tryMap_carries {ε : Type} {f : κ → α → Except ε β} {m m' : OrderedMap κ α} (h : ∀ k, m.get? k = m'.get? k) :
    Carries (fun r r' => ∀ k, r.get? k = r'.get? k) (m.tryMap f) (m'.tryMap f) := by
  intro r hr
  obtain ⟨hkeys, hvalues⟩ := tryMap_eq_ok hr
  -- each key has its value rewritten
  have hheld : ∀ k v, m.get? k = some v → ∃ w, r.get? k = some w ∧ f k v = .ok w := fun k v hv => by
    obtain ⟨w, hw⟩ := mem_keys.1 (hkeys ▸ mem_keys.2 ⟨v, hv⟩)
    obtain ⟨v', hv', hf⟩ := hvalues k w hw
    cases hv.symm.trans hv'
    exact ⟨w, hw, hf⟩
  obtain ⟨r', hr'⟩ := tryMap_total (f := f) (m := m') fun k v hv => (hheld k v (h k ▸ hv)).imp fun _ hw => hw.2
  obtain ⟨hkeys', hvalues'⟩ := tryMap_eq_ok hr'
  refine ⟨r', hr', fun k => ?_⟩
  cases hm : m.get? k with
  | none =>
    have hkey : k ∉ r.keys := by rwa [hkeys, ← get?_eq_none]
    have hkey' : k ∉ r'.keys := by rwa [hkeys', ← get?_eq_none, ← h k]
    rw [get?_eq_none.2 hkey, get?_eq_none.2 hkey']
  | some v =>
    obtain ⟨w, hw, hf⟩ := hheld k v hm
    obtain ⟨w', hw'⟩ := mem_keys.1 (hkeys' ▸ mem_keys.2 ⟨v, h k ▸ hm⟩)
    obtain ⟨v', hv', hf'⟩ := hvalues' k w' hw'
    cases (h k ▸ hm).symm.trans hv'
    rw [hw, hw', Except.ok.inj (hf.symm.trans hf')]

end OrderedMap

namespace PageMap

/-- a map holds drafts as they are, if they are for distinct paths -/
def Keeps (m : PageMap) (ds : List Draft) : Prop := (ds.map Prod.fst).Nodup → m.entries = ds

theorem entries_grouped {pages : List Draft} (h : (pages.map Prod.fst).Nodup) :
    (grouped pages).entries = pages.map fun p => (p.1, [p.2]) := by
  induction pages using List.reverseRecOn with
  | nil => rfl
  | append_singleton rest p ih =>
    rw [List.map_append, List.nodup_append] at h
    have hnew : p.1 ∉ (grouped rest).keys := by
      rw [OrderedMap.keys, ih h.1, List.map_map]
      exact fun hmem => h.2.2 p.1 hmem p.1 (List.mem_singleton_self _) rfl
    rw [grouped_concat, OrderedMap.entries_upsert_new hnew, ih h.1, List.map_append]
    rfl

theorem keeps_merge {maps : List PageMap} {dss : List (List Draft)} (h : List.Forall₂ Keeps maps dss) :
    Keeps (merge maps) dss.flatten := by
  intro hd
  have hflat : maps.flatMap (·.entries) = dss.flatten := by
    induction h with
    | nil => rfl
    | cons hm _ ih =>
      rw [List.flatten_cons, List.map_append, List.nodup_append] at hd
      rw [List.flatMap_cons, List.flatten_cons, hm hd.1, ih hd.2.1]
  rw [← hflat] at hd ⊢
  change (grouped (maps.flatMap (·.entries))).entries.map (fun e => (e.1, collapse Text.joinParagraphs e.2)) = _
  rw [entries_grouped hd, List.map_map]
  exact List.map_id' _

end PageMap

namespace Hooks

open Node (Reordered)
open PageMap (Draft Keeps)

/-! ## Merging -/

section

variable (naming : Naming) (links : LinkTable)

theorem memberPage_keeps (folder : Text) (n : Node) (body : Fragment) :
    Agree Keeps (memberPage folder n body) (memberDrafts folder n body) :=
  .after _ fun _ => .ok fun _ => rfl

theorem indexPage_keeps (folder : Text) (nodes : List Node) :
    Agree Keeps (indexPage folder nodes) (indexDraft folder nodes) :=
  .after _ fun body => .ok fun _ => by cases body <;> rfl

theorem indexes_keep (n : Node) : Agree (List.Forall₂ Keeps) (indexes n) (indexDrafts n) := by
  refine .after _ fun programs => .after _ fun accounts => ?_
  refine (indexPage_keeps _ _).bind fun hooks hooks' hh => .after _ fun leaves => ?_
  refine (indexPage_keeps _ _).bind fun instructions instructions' hi => .after _ fun pdas => ?_
  exact (indexPage_keeps _ _).bind fun addresses addresses' ha => .ok (.cons hh (.cons hi (.cons ha .nil)))

/-- the maps that visits of some nodes build keep the drafts of these -/
theorem mapM_keeps {ι : Type} {inside : ι → Except Fault PageMap} {inside' : ι → Except Fault (List Draft)}
    (h : ∀ i, Agree Keeps (inside i) (inside' i)) (is : List ι) :
    Agree (List.Forall₂ Keeps) (is.mapM inside) (is.mapM inside') :=
  .mapM (List.forall₂_same.2 fun _ _ => rfl) fun i _ j _ (hij : i = j) => hij ▸ h i

/-- **Hooks for distinct paths go through all merges as they are.** -/
theorem built_keeps (depth : Nat) (above : NodeStack) (n : Node) :
    Agree Keeps (built naming links depth above n) (drafts naming links depth above n) := by
  induction depth generalizing above n with
  | zero => exact .error _
  | succ depth ih =>
    have heach : ∀ vs, Agree (List.Forall₂ Keeps) (eachNode (built naming links depth (n :: above)) vs)
        (eachNode (drafts naming links depth (n :: above)) vs) := fun vs =>
      mapM_keeps (fun v => .after _ fun m => ih (n :: above) m) vs
    unfold built drafts
    have hnone : Agree Keeps (.ok .empty : Except Fault PageMap) (.ok []) := .ok fun _ => rfl
    cases hk : n.kind? with
    | none => exact hnone
    | some k =>
      cases k with
      | account => exact .after _ fun body => memberPage_keeps _ _ _
      | instruction => exact .after _ fun body => memberPage_keeps _ _ _
      | pda => exact .after _ fun body => memberPage_keeps _ _ _
      | program =>
        refine .after _ fun body => (memberPage_keeps _ _ _).bind fun own own' ho => ?_
        refine .after _ fun pdaValues => (heach _).bind fun pdas pdas' hp => ?_
        refine .after _ fun accountValues => (heach _).bind fun accounts accounts' ha => ?_
        refine .after _ fun leaves => (mapM_keeps (ih (n :: above)) _).bind fun instructions instructions' hi => .ok ?_
        exact PageMap.keeps_merge (List.rel_append (List.rel_append (List.rel_append (.cons ho .nil) hp) ha) hi)
      | root =>
        refine (indexes_keep n).bind fun own own' ho => .after _ fun programs => ?_
        refine (mapM_keeps (ih (n :: above)) _).bind fun ms dss hp => .ok ?_
        exact PageMap.keeps_merge (List.rel_append ho hp)
      | _ => exact hnone

end

/-! ## Drafts -/

section

variable {naming : Naming} {links links' : LinkTable} {above above' : NodeStack} {n n' : Node}

theorem nodeDrafts_tellsNames : TellsNames (nodeDrafts naming links) := by
  intro above n here hhere k hk hkind
  have hroot : n.isKind .root = false := by
    rw [Node.isKind, beq_iff_eq.1 hkind]
    revert hk
    cases k <;> decide
  rw [nodeDrafts_own hroot] at hhere
  obtain ⟨name, _, hname, -⟩ := ownDrafts_ok hk hkind hhere
  exact ⟨name, hname⟩

/-- the hook of a program is that of the reordered one -/
theorem program_carries (h : n.Reordered n') :
    Carries Eq (program ⟨naming, links⟩ n) (program ⟨naming, links'⟩ n') := by
  unfold program Scope.identifier
  rw [h.nameText_eq]
  refine .after _ fun constant _ => (h.members _ _).bind fun errors errors' _ herrors => ?_
  rw [herrors.isEmpty_eq]
  exact .refl (fun _ => rfl) _

/-- the drafts of a node itself are those of the reordered one -/
theorem nodeDrafts_carries (h : n.Reordered n') (hnamed : Named n)
    (haddress : SameAddress links links' (n :: above).reverse (n' :: above').reverse n) :
    Carries Eq (nodeDrafts naming links above n) (nodeDrafts naming links' above' n') := by
  have hmember : ∀ {folder : Text} {x x' : Except Fault Fragment}, Carries Eq x x' →
      Carries Eq (do memberDrafts folder n (← x)) (do memberDrafts folder n' (← x')) := fun hx => by
    unfold memberDrafts
    rw [h.nameText_eq]
    refine hx.bind fun body body' _ hbody => ?_
    subst hbody
    exact .refl (fun _ => rfl) _
  have hsame : ∀ k ∉ [Kind.root, .program, .instruction], n.kind? = some k → n = n' := fun k hk hkind =>
    h.eq_of_kind fun k' hk' heq => hk (Option.some.inj (hkind.symm.trans heq) ▸ hk')
  unfold nodeDrafts ownDrafts
  rw [← h.kind_eq]
  cases hk : n.kind? with
  | none => exact .ok rfl
  | some k =>
    cases k with
    | root =>
      refine (indexDrafts_carries h (beq_iff_eq.2 hk) hnamed).bind fun dss dss' _ hdss => ?_
      subst hdss
      exact .ok rfl
    | account =>
      obtain rfl := hsame .account (by decide) hk
      refine hmember ?_
      rw [account_congr haddress]
      exact .refl (fun _ => rfl) _
    | program => exact hmember (program_carries h)
    | instruction =>
      refine hmember ?_
      unfold instruction Scope.identifier
      rw [h.nameText_eq]
      exact .refl (fun _ => rfl) _
    | pda =>
      obtain rfl := hsame .pda (by decide) hk
      exact hmember (.refl (fun _ => rfl) _)
    | _ => exact .ok rfl

/-- the drafts of a reordered tree are those of the tree, in some order -/
theorem drafts_reordered (h : n.Reordered n') {os : List (Text × Node)} (hos : outputs n = .ok os)
    (hdistinct : DistinctOutputs n) (hlinks : LinkTable.recorded n = .ok links)
    (hlinks' : LinkTable.recorded n' = .ok links') :
    Carries List.Perm (drafts naming links (n.height + 1) [] n) (drafts naming links' (n'.height + 1) [] n') := by
  rw [drafts_eq_gather, drafts_eq_gather, ← h.height_eq]
  refine (gather_carries_reordered nodeDrafts_tellsNames (R := Eq) (fun habove hm hnamed => ?_) .nil h).imp fun _ _ =>
    Rearranged.eq_iff.1
  refine (nodeDrafts_carries hm hnamed fun link _ => ?_).imp fun ds ds' heq => Rearranged.eq_iff.2 (heq ▸ .refl _)
  exact resolve_reordered h hdistinct hos hlinks hlinks' (List.forall₂_reverse_iff.2 (.cons hm habove)) link

/-- a node's own drafts are on the paths of its outputs -/
theorem ownOutputs_of_drafts {ds : List Draft} (h : nodeDrafts naming links above n = .ok ds) :
    ∃ os, ownOutputs n = .ok os ∧ ds.map Prod.fst = os.map Prod.fst := by
  cases hroot : n.isKind .root with
  | true =>
    unfold nodeDrafts at h
    unfold ownOutputs
    rw [beq_iff_eq.1 hroot] at h ⊢
    obtain ⟨dss, hdss, h⟩ := except_bind_ok.1 h
    cases h
    refine ⟨_, except_bind_ok.2 ⟨dss, hdss, rfl⟩, ?_⟩
    rw [List.map_map]
    rfl
  | false =>
    rw [nodeDrafts_own hroot] at h
    by_cases hkind : ∃ k ∈ Kind.program :: memberKinds, n.isKind k = true
    · obtain ⟨k, hk, hkind⟩ := hkind
      obtain ⟨name, body, hname, rfl⟩ := ownDrafts_ok hk hkind h
      exact ⟨_, ownOutputs_of_name hk hkind hname, rfl⟩
    · have hnil : ds = [] := by
        by_contra hne
        exact hkind (isKind_of_ownDrafts h hne)
      subst hnil
      exact ⟨[], ownOutputs_of_other hroot fun k hk hk' => hkind ⟨k, hk, hk'⟩, rfl⟩

/-- the drafts of a tree are on the paths of its outputs -/
theorem outputs_of_drafts {ds : List Draft} (h : drafts naming links (n.height + 1) [] n = .ok ds) :
    ∃ os, outputs n = .ok os ∧ ds.map Prod.fst = os.map Prod.fst := by
  rw [drafts_eq_gather] at h
  unfold outputs
  refine gather_carries (R := fun (ds : List Draft) (os : List (Text × Node)) => ds.map Prod.fst = os.map Prod.fst) rfl
    (fun ds os ds' os' heq heq' => ?_) (fun _ _ _ => ownOutputs_of_drafts) h
  rw [List.map_append, List.map_append, heq, heq']

/-! ## Pages -/

/-- the hooks of a reordered tree are on the same paths as those of the tree, if there are any -/
theorem pages_carries (h : n.Reordered n') (hdistinct : DistinctOutputs n) (options : Options) :
    Carries (fun m m' => ∀ path, m.get? path = m'.get? path) (pages options n) (pages options n') := by
  rw [pages_eq, pages_eq]
  refine .after _ fun naming _ => .after _ fun strategy _ => ?_
  intro m hm
  obtain ⟨links, hlinks, hm⟩ := except_bind_ok.1 hm
  obtain ⟨merged, hmerged, hm⟩ := except_bind_ok.1 hm
  obtain ⟨ds, hds, hkeeps⟩ := (built_keeps naming links _ _ _).of_ok hmerged
  obtain ⟨os, hos, hpaths⟩ := outputs_of_drafts hds
  obtain ⟨links', hlinks'⟩ := LinkTable.recorded_reordered h hlinks
  obtain ⟨ds', hds', hperm⟩ := drafts_reordered h hos hdistinct hlinks hlinks' ds hds
  obtain ⟨merged', hmerged', hkeeps'⟩ := (built_keeps naming links' _ _ _).of_ok_right hds'
  have hd : (ds.map Prod.fst).Nodup := hpaths ▸ hdistinct os hos
  have hd' : (ds'.map Prod.fst).Nodup := (hperm.map Prod.fst).nodup_iff.1 hd
  have hsame : ∀ path, merged.get? path = merged'.get? path :=
    OrderedMap.get?_of_perm (hkeeps hd ▸ hkeeps' hd' ▸ hperm)
  obtain ⟨m', hm', hget⟩ := OrderedMap.tryMap_carries hsame m hm
  exact ⟨m', except_bind_ok.2 ⟨links', hlinks', except_bind_ok.2 ⟨merged', hmerged', hm'⟩⟩, hget⟩

/-- **The hooks of a tree do not depend on the order of its declarations.** No two of the rendered nodes and indexes of
a tree share a path, and the additional programs, the accounts, addresses, instructions and errors of any program and
the sub-instructions of any instruction are put in any other order. Then there are hooks of both trees or of neither,
and the same modules stand on the same paths. -/
theorem declaration_order_irrelevant (h : n.Reordered n') (hdistinct : DistinctOutputs n) (options : Options) :
    (∃ m m', pages options n = .ok m ∧ pages options n' = .ok m' ∧ ∀ path, m.get? path = m'.get? path) ∨
      ∃ e e', pages options n = .error e ∧ pages options n' = .error e' := by
  cases hm : pages options n with
  | ok m =>
    obtain ⟨m', hm', hget⟩ := pages_carries h hdistinct options m hm
    exact .inl ⟨m, m', rfl, hm', hget⟩
  | error e =>
    cases hm' : pages options n' with
    | ok m' =>
      obtain ⟨m, hback, -⟩ := pages_carries h.symm (hdistinct.reordered h) options m' hm'
      cases hm.symm.trans hback
    | error e' => exact .inr ⟨e, e', rfl, rfl⟩

end

/-! ## A market -/

section

variable {R : Node → Node → Prop}

def named (k : Kind) (name : Text) (others : List (Attr × Value)) : Node :=
  .known k (Node.fillSlots k.slots ((.name, .text name) :: others))

/-- the declarations of a collection, turned -/
def declared (turn : List Node → List Node) (ns : List Node) : Value := .tuple ((turn ns).map .node)

/-- an instruction whose sub-instructions are turned -/
def trade (turn : List Node → List Node) : Node :=
  named .instruction "trade" [
    (.subInstructions, declared turn [named .instruction "buy" [], named .instruction "sell" []])]

/-- a program in whose collections the declarations are turned; one of its accounts links an address of the ledger -/
def market (turn : List Node → List Node) : Node :=
  named .program "market" [
    (.accounts, declared turn [
      named .account "vault" [(.pda, .node (named .pdaLink "vault" []))],
      named .account "order" [(.pda, .node (named .pdaLink "entry" [
        (.program, .node (named .programLink "ledger" []))]))]]),
    (.pdas, declared turn [named .pda "vault" [], named .pda "stall" []]),
    (.instructions, declared turn [trade turn, named .instruction "close" []]),
    (.errors, declared turn [
      named .error "late" [(.code, .int 1), (.message, .text "The market is closed.")],
      named .error "sold" [(.code, .int 2), (.message, .text "The good is gone.")]])]

def ledger (turn : List Node → List Node) : Node :=
  named .program "ledger" [(.pdas, declared turn [named .pda "entry" [], named .pda "page" []])]

/-- a tree of three programs in which all declarations are turned -/
def marketTree (turn : List Node → List Node) : Node :=
  .known .root (Node.fillSlots Kind.root.slots [
    (.program, .node (market turn)),
    (.additionalPrograms, declared turn [ledger turn, named .program "audit" []])])

theorem alike_fillSlots {rel : Attr → Value → Value → Prop} (hsame : ∀ a v, rel a v v)
    {given given' : List (Attr × Value)} (h : Node.Alike rel given given') (slots : List Slot) :
    Node.Alike rel (Node.fillSlots slots given) (Node.fillSlots slots given') := by
  have hlookup : ∀ a, Option.Rel (rel a) (OrderedMap.lookupIn a given) (OrderedMap.lookupIn a given') := fun a => by
    induction h with
    | nil => exact .none
    | @cons e e' _ _ he _ ih =>
      rw [OrderedMap.lookupIn, OrderedMap.lookupIn, ← he.1]
      split
      · next ha => exact .some (ha ▸ he.2)
      · exact ih
  unfold Node.fillSlots Node.Alike
  rw [List.forall₂_map_left_iff, List.forall₂_map_right_iff]
  refine List.forall₂_same.2 fun slot _ => ?_
  have hslot := hlookup slot.attr
  generalize OrderedMap.lookupIn slot.attr given = v at hslot
  generalize OrderedMap.lookupIn slot.attr given' = v' at hslot
  cases hslot with
  | none => exact ⟨rfl, hsame _ _⟩
  | some hv => exact ⟨rfl, hv⟩

theorem named_reordered {k : Kind} (name : Text) {others others' : List (Attr × Value)}
    (h : Node.Alike (Node.FieldReordered R k) others others') :
    Node.LevelReordered R (named k name others) (named k name others') :=
  .known k (alike_fillSlots (fun _ => .same) (.cons ⟨rfl, .same _⟩ h) k.slots)

theorem declared_turned {k : Kind} {a : Attr} (ha : a ∈ Node.orderless k) {ns ns' : List Node}
    (h : List.Forall₂ (fun n n' => n = n' ∨ R n n') ns ns') :
    Node.FieldReordered R k a (declared id ns) (declared List.reverse ns') := by
  refine .collection ha ⟨ns.reverse.map .node, (ns.reverse_perm.map _).symm, ?_⟩
  rw [List.forall₂_map_left_iff, List.forall₂_map_right_iff, List.forall₂_reverse_iff]
  refine List.Forall₂.imp (fun n n' hn => ?_) h
  rcases hn with rfl | hn
  · exact .same _
  · exact .node hn

/-- what is the same is related, whatever relates the rest -/
theorem unturned (ns : List Node) : List.Forall₂ (fun n n' => n = n' ∨ R n n') ns ns :=
  List.forall₂_same.2 fun _ _ => .inl rfl

theorem trade_reordered : Node.ReorderedUpTo 1 (trade id) (trade List.reverse) :=
  named_reordered _ (.cons ⟨rfl, declared_turned (by decide) (unturned _)⟩ .nil)

theorem market_reordered : Node.ReorderedUpTo 2 (market id) (market List.reverse) :=
  named_reordered _ (.cons ⟨rfl, declared_turned (by decide) (unturned _)⟩
    (.cons ⟨rfl, declared_turned (by decide) (unturned _)⟩
      (.cons ⟨rfl, declared_turned (by decide) (.cons (.inr trade_reordered) (unturned _))⟩
        (.cons ⟨rfl, declared_turned (by decide) (unturned _)⟩ .nil))))

theorem ledger_reordered : Node.ReorderedUpTo 2 (ledger id) (ledger List.reverse) :=
  named_reordered _ (.cons ⟨rfl, declared_turned (by decide) (unturned _)⟩ .nil)

theorem marketTree_reordered : (marketTree id).Reordered (marketTree List.reverse) := by
  refine ⟨3, .known .root (alike_fillSlots (fun _ => .same) ?_ Kind.root.slots)⟩
  refine .cons ⟨rfl, .main rfl rfl market_reordered⟩ (.cons ⟨rfl, ?_⟩ .nil)
  exact declared_turned (by decide) (.cons (.inr ledger_reordered) (unturned _))

/-- turned around, the market has the same modules on the same paths, in another order -/
theorem market_order_irrelevant : (marketTree id).Reordered (marketTree List.reverse) ∧
    DistinctOutputs (marketTree id) ∧ ∃ m m', pages ⟨"../client", "granular", []⟩ (marketTree id) = .ok m ∧
      pages ⟨"../client", "granular", []⟩ (marketTree List.reverse) = .ok m' ∧ m.size = 15 ∧ m.keys ≠ m'.keys ∧
      ∀ path, m.get? path = m'.get? path := by
  have hdistinct : DistinctOutputs (marketTree id) := by
    have hpaths : (outputs (marketTree id)).toOption.any (fun os => decide (os.map Prod.fst).Nodup) = true := by
      decide +kernel
    obtain ⟨os, hos, hnodup⟩ := any_toOption.1 hpaths
    intro os' hos'
    cases hos.symm.trans hos'
    exact of_decide_eq_true hnodup
  have hkeys : (pages ⟨"../client", "granular", []⟩ (marketTree id)).toOption.any (fun m =>
      (pages ⟨"../client", "granular", []⟩ (marketTree List.reverse)).toOption.any fun m' =>
        decide (m.size = 15 ∧ m.keys ≠ m'.keys)) = true := by decide +kernel
  obtain ⟨m, hm, hkeys⟩ := any_toOption.1 hkeys
  obtain ⟨m', hm', hkeys⟩ := any_toOption.1 hkeys
  refine ⟨marketTree_reordered, hdistinct, m, m', hm, hm', (of_decide_eq_true hkeys).1, (of_decide_eq_true hkeys).2, ?_⟩
  rcases declaration_order_irrelevant marketTree_reordered hdistinct ⟨"../client", "granular", []⟩ with
    ⟨_, _, ho, ho', hget⟩ | ⟨_, _, he, -⟩
  · cases hm.symm.trans ho
    cases hm'.symm.trans ho'
    exact hget
  · cases hm.symm.trans he

end

end Hooks

end InterfacePages

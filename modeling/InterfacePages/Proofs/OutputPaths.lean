/-
Which paths the hooks of a tree are put on, and for which nodes.

Each visited account, address, program and instruction has its hooks on one path, and each visited root an index for
every family it lists something of (`outputs`). If no two of these share a path, a name under which nodes are rendered
belongs to one node of each kind (`DistinctOutputs.eq`).

What visits gather of a reordered tree is what they gather of the tree, in some order, if the same is told of each node
and its reordered one (`gather_carries_reordered`). Indexes sort the names of what they list, so those of a reordered
root are the same (`indexDrafts_carries`), and the outputs stay distinct (`DistinctOutputs.reordered`).
-/
import InterfacePages.Proofs.IndexModules
import InterfacePages.Proofs.ReorderedTrees

namespace InterfacePages

theorem Node.Reordered.nameText_eq {n n' : Node} (h : n.Reordered n') : n.nameText = n'.nameText := by
  unfold Node.nameText
  rw [h.get_eq (by decide)]

namespace Hooks

open Node (Reordered)
open PageMap (Draft)

/-! ## Outputs -/

/-- what is put on paths for a node itself, with the node: its hooks, or the indexes of a root -/
def ownOutputs (n : Node) : Except Fault (List (Text × Node)) :=
  match n.kind? with
  | none => .ok []
  | some .root => do return (← indexDrafts n).flatten.map fun d => (d.1, n)
  | some k =>
    if k ∈ Kind.program :: memberKinds then do return [(modulePath (folderOf k) (Name.camelCase (← n.nameText)), n)]
    else .ok []

/-- what is put on paths for a node and the nodes that visits from it come to -/
def outputs (n : Node) : Except Fault (List (Text × Node)) := gather (fun _ => ownOutputs) (n.height + 1) [] n

/-- no two of the rendered nodes and indexes share a path -/
def DistinctOutputs (n : Node) : Prop := ∀ os, outputs n = .ok os → (os.map Prod.fst).Nodup

theorem ownOutputs_ok {k : Kind} (hk : k ∈ Kind.program :: memberKinds) {n : Node} (hn : n.isKind k = true)
    {os : List (Text × Node)} (h : ownOutputs n = .ok os) :
    ∃ name, n.nameText = .ok name ∧ os = [(modulePath (folderOf k) (Name.camelCase name), n)] := by
  unfold ownOutputs at h
  rw [beq_iff_eq.1 hn] at h
  simp only [memberKinds, List.mem_cons, List.not_mem_nil, or_false] at hk
  rcases hk with rfl | rfl | rfl | rfl
  all_goals
    obtain ⟨name, hname, h⟩ := except_bind_ok.1 h
    cases h
    exact ⟨name, hname, rfl⟩

theorem ownOutputs_of_name {k : Kind} (hk : k ∈ Kind.program :: memberKinds) {n : Node} (hn : n.isKind k = true)
    {name : Text} (hname : n.nameText = .ok name) :
    ownOutputs n = .ok [(modulePath (folderOf k) (Name.camelCase name), n)] := by
  unfold ownOutputs
  rw [beq_iff_eq.1 hn]
  simp only [memberKinds, List.mem_cons, List.not_mem_nil, or_false] at hk
  rcases hk with rfl | rfl | rfl | rfl
  all_goals exact except_bind_ok.2 ⟨name, hname, rfl⟩

theorem ownOutputs_of_other {n : Node} (hroot : n.isKind .root = false)
    (hn : ∀ k ∈ Kind.program :: memberKinds, ¬ n.isKind k = true) : ownOutputs n = .ok [] := by
  unfold ownOutputs
  split
  · rfl
  · next hk => exact absurd (beq_iff_eq.2 hk) (by simp [Node.isKind, hk] at hroot)
  · next k _ hk =>
    rw [if_neg fun hmem => hn k hmem (beq_iff_eq.2 hk)]

/-- a visited node with hooks is among the outputs -/
theorem mem_outputs {n m : Node} {os : List (Text × Node)} (h : outputs n = .ok os) (hm : Visited n m) {k : Kind}
    (hk : k ∈ Kind.program :: memberKinds) (hkind : m.isKind k = true) :
    ∃ name, m.nameText = .ok name ∧ (modulePath (folderOf k) (Name.camelCase name), m) ∈ os := by
  obtain ⟨-, _, here, hhere, hsub⟩ := (gather_visited h).1 m hm
  obtain ⟨name, hname, rfl⟩ := ownOutputs_ok hk hkind hhere
  exact ⟨name, hname, hsub (List.mem_singleton_self _)⟩

/-- rendered nodes of one kind and name are one node -/
theorem DistinctOutputs.eq {n a b : Node} (h : DistinctOutputs n) {os : List (Text × Node)} (hos : outputs n = .ok os)
    (ha : Visited n a) (hb : Visited n b) {k : Kind} (hk : k ∈ Kind.program :: memberKinds) (hka : a.isKind k = true)
    (hkb : b.isKind k = true) (hname : a.SameName b) : a = b := by
  obtain ⟨name, hna, hmema⟩ := mem_outputs hos ha hk hka
  obtain ⟨name', hnb, hmemb⟩ := mem_outputs hos hb hk hkb
  obtain ⟨v, hv, hva⟩ := except_bind_ok.1 hna
  obtain ⟨w, hw, hwb⟩ := except_bind_ok.1 hnb
  have hkey := hname.nameKey_eq hv hw
  -- both names are texts, and texts are compared as they are
  cases v with
  | text t =>
    cases hva
    cases w with
    | text u =>
      cases hwb
      cases hkey
      exact (Prod.mk.inj (List.inj_on_of_nodup_map (h os hos) hmema hmemb rfl)).2
    | _ => cases hwb
  | _ => cases hva

/-! ## Gathering -/

section

variable {α β : Type} {own : NodeStack → Node → Except Fault (List α)} {own' : NodeStack → Node → Except Fault (List β)}
  {R : α → β → Prop} {depth : Nat} {above above' : NodeStack} {n n' : Node}

theorem eachNode_of_mapM {δ : Type} {f : Node → Except Fault δ} {vs : List Value} {ns : List Node} {ds : List δ}
    (hns : vs.mapM Value.asNode = .ok ns) (hds : ns.mapM f = .ok ds) : eachNode f vs = .ok ds := by
  have hnodes := mapM_eq_ok.1 hns
  refine mapM_eq_ok.2 ?_
  clear hns
  induction hnodes generalizing ds with
  | nil =>
    cases hds
    exact .nil
  | cons hv _ ih =>
    cases mapM_eq_ok.1 hds with
    | cons hd hrest => exact .cons (except_bind_ok.2 ⟨_, hv, hd⟩) (ih (mapM_eq_ok.2 hrest))

theorem mapM_append_ok {ι ρ : Type} {f : ι → Except Fault ρ} {is js : List ι} {rs : List ρ}
    (h : (is ++ js).mapM f = .ok rs) : ∃ as bs, is.mapM f = .ok as ∧ js.mapM f = .ok bs ∧ rs = as ++ bs := by
  rw [List.mapM_append] at h
  obtain ⟨as, has, h⟩ := except_bind_ok.1 h
  obtain ⟨bs, hbs, h⟩ := except_bind_ok.1 h
  cases h
  exact ⟨as, bs, has, hbs, rfl⟩

/-- what is told of a node and what the visits inside it gather is what is gathered -/
theorem gather_of_inner {here : List α} {ms : List Node} {ass : List (List α)} (hhere : own above n = .ok here)
    (hms : inner n = .ok ms) (h : ms.mapM (gather own depth (n :: above)) = .ok ass) :
    gather own (depth + 1) above n = .ok (here ++ ass.flatten) := by
  unfold gather
  refine except_bind_ok.2 ⟨here, hhere, ?_⟩
  unfold inner at hms
  split
  · next hk =>
    rw [hk] at hms
    obtain ⟨pdas, hpdas, hms⟩ := except_bind_ok.1 hms
    obtain ⟨accounts, haccounts, hms⟩ := except_bind_ok.1 hms
    obtain ⟨leaves, hleaves, hms⟩ := except_bind_ok.1 hms
    cases hms
    obtain ⟨_, iss, hmembers, hiss, rfl⟩ := mapM_append_ok h
    obtain ⟨pss, css, hpss, hcss, rfl⟩ := mapM_append_ok hmembers
    obtain ⟨pdaValues, hpdaValues, hpdas⟩ := except_bind_ok.1 hpdas
    obtain ⟨accountValues, haccountValues, haccounts⟩ := except_bind_ok.1 haccounts
    refine except_bind_ok.2 ⟨pdaValues, hpdaValues, except_bind_ok.2 ⟨pss, eachNode_of_mapM hpdas hpss, ?_⟩⟩
    refine except_bind_ok.2 ⟨accountValues, haccountValues, except_bind_ok.2 ⟨css, eachNode_of_mapM haccounts hcss, ?_⟩⟩
    exact except_bind_ok.2 ⟨leaves, hleaves, except_bind_ok.2 ⟨iss, hiss, rfl⟩⟩
  · next hk =>
    rw [hk] at hms
    exact except_bind_ok.2 ⟨ms, hms, except_bind_ok.2 ⟨ass, h, rfl⟩⟩
  · next hprogram hroot =>
    have hnone : ms = [] := by
      split at hms
      · next hk => exact absurd hk hroot
      · next hk => exact absurd hk hprogram
      · exact (Except.ok.inj hms).symm
    subst hnone
    cases h
    exact congrArg Except.ok (List.append_nil here).symm

/-- visits from a node go everywhere they have to, and the nodes with hooks that they come to have names -/
structure Named (n : Node) : Prop where
  inner : ∀ m, Visited n m → ∃ ms, inner m = .ok ms
  name : ∀ m, Visited n m → ∀ k ∈ Kind.program :: memberKinds, m.isKind k = true → ∃ name, m.nameText = .ok name

/-- what is told of nodes with hooks includes their names -/
def TellsNames (own : NodeStack → Node → Except Fault (List α)) : Prop :=
  ∀ above n here, own above n = .ok here → ∀ k ∈ Kind.program :: memberKinds, n.isKind k = true →
    ∃ name, n.nameText = .ok name

theorem named_of_gather (htells : TellsNames own) {as : List α} (h : gather own depth above n = .ok as) : Named n := by
  obtain ⟨hvisited, -⟩ := gather_visited h
  refine ⟨fun m hm => (hvisited m hm).1, fun m hm k hk hkind => ?_⟩
  obtain ⟨-, outer, here, hhere, -⟩ := hvisited m hm
  exact htells outer m here hhere k hk hkind

/-- **Visits of a reordered tree gather the same, in some order,** if the same is told of related nodes. -/
theorem gather_carries_reordered (htells : TellsNames own)
    (hown : ∀ {above above' n n'}, List.Forall₂ Reordered above above' → n.Reordered n' → Named n →
      Carries (Rearranged R) (own above n) (own' above' n'))
    (habove : List.Forall₂ Reordered above above') (h : n.Reordered n') :
    Carries (Rearranged R) (gather own depth above n) (gather own' depth above' n') := by
  induction depth generalizing n n' above above' with
  | zero => exact .error
  | succ depth ih =>
    intro as has
    obtain ⟨here, ms, ass, hhere, hms, hass, rfl⟩ := gather_step has
    obtain ⟨here', hhere', hrel⟩ := hown habove h (named_of_gather htells has) here hhere
    obtain ⟨ms', hms', hinner⟩ := inner_carries h ms hms
    obtain ⟨bss, hbss, hinside⟩ := hinner.mapM (fun m m' hm => ih (.cons h habove) hm) ass (mapM_eq_ok.2 hass)
    exact ⟨here' ++ bss.flatten, gather_of_inner hhere' hms' hbss, hrel.append hinside.flatten⟩

end

/-! ## Indexes -/

section

variable {n n' : Node}

/-- an index of nodes with names is the same in whatever order the nodes are listed -/
theorem indexDraft_carries (folder : Text) {ns ns' : List Node} (h : Rearranged Reordered ns ns')
    (hnames : ∀ n ∈ ns, ∃ name, n.nameText = .ok name) : Carries Eq (indexDraft folder ns) (indexDraft folder ns') := by
  obtain ⟨names, hnames⟩ := exists_mapM_ok hnames
  have hname : ∀ m m', Reordered m m' → Carries Eq m.nameText m'.nameText := fun m m' hm => by
    rw [hm.nameText_eq]
    exact .refl (fun _ => rfl) _
  obtain ⟨names', hnames', hsame⟩ := h.mapM hname names hnames
  have hsorted : exportedNames names = exportedNames names' :=
    Text.sorted_distinct_congr fun _ => ((Rearranged.eq_iff.1 hsame).map Name.camelCase).mem_iff
  unfold indexDraft
  rw [index_eq hnames, index_eq hnames', h.isEmpty_eq, hsorted]
  exact .refl (fun _ => rfl) _

theorem IndexPlace.listed_carries (h : n.Reordered n') {place : IndexPlace} (hplace : place ∈ indexPlaces) :
    Carries (Rearranged Reordered) (place.listed n) (place.listed n') := by
  simp only [indexPlaces, List.mem_cons, List.not_mem_nil, or_false] at hplace
  rcases hplace with rfl | rfl | rfl
  · exact h.programs.bind fun _ _ _ hps => (h.members _ _).bind fun _ _ _ has => .ok (has.append hps)
  · exact h.leafInstructions
  · exact h.members _ _

/-- the indexes of a reordered root are the same -/
theorem indexDrafts_carries (h : n.Reordered n') (hroot : n.isKind .root = true) (hnamed : Named n) :
    Carries Eq (indexDrafts n) (indexDrafts n') := by
  rw [indexDrafts_eq, indexDrafts_eq]
  have hplaces : List.Forall₂ (fun place place' => place = place' ∧ place ∈ indexPlaces) indexPlaces indexPlaces :=
    List.forall₂_same.2 fun place hplace => ⟨rfl, hplace⟩
  refine (Carries.mapM hplaces ?_).imp fun _ _ (heq : List.Forall₂ Eq _ _) => by rwa [List.forall₂_eq_eq_eq] at heq
  rintro place _ ⟨rfl, hplace⟩
  refine (IndexPlace.listed_carries h hplace).bind fun ns ns' hns hrel => indexDraft_carries _ hrel fun m hm => ?_
  obtain ⟨hvisited, k, hk, hkind⟩ := visited_of_listed hroot hnamed.inner hplace hns m hm
  exact hnamed.name m hvisited k hk hkind

theorem ownOutputs_tellsNames : TellsNames fun _ => ownOutputs := fun _ _ _ hhere _ hk hkind =>
  (ownOutputs_ok hk hkind hhere).imp fun _ hname => hname.1

theorem ownOutputs_carries (h : n.Reordered n') (hnamed : Named n) :
    Carries (Rearranged fun o o' => o.1 = o'.1) (ownOutputs n) (ownOutputs n') := by
  unfold ownOutputs
  rw [← h.kind_eq]
  split
  · exact .ok (.of_forall₂ .nil)
  · next hk =>
    refine (indexDrafts_carries h (beq_iff_eq.2 hk) hnamed).bind fun dss dss' _ hdss => .ok ?_
    subst hdss
    exact (Rearranged.eq_iff.2 (.refl dss.flatten)).map fun d d' (hd : d = d') => congrArg (fun d : Draft => d.1) hd
  · split
    · rw [h.nameText_eq]
      exact .after _ fun name _ => .ok (.of_forall₂ (.cons rfl .nil))
    · exact .ok (.of_forall₂ .nil)

/-- the outputs of a reordered tree are on the same paths -/
theorem outputs_carries (h : n.Reordered n') :
    Carries (Rearranged fun o o' => o.1 = o'.1) (outputs n) (outputs n') := by
  unfold outputs
  rw [← h.height_eq]
  exact gather_carries_reordered ownOutputs_tellsNames (fun _ hn hnamed => ownOutputs_carries hn hnamed) .nil h

theorem DistinctOutputs.reordered (hdistinct : DistinctOutputs n) (h : n.Reordered n') : DistinctOutputs n' := by
  intro os' hos'
  obtain ⟨os, hos, hpaths⟩ := outputs_carries h.symm os' hos'
  have hperm : (os'.map Prod.fst).Perm (os.map Prod.fst) := Rearranged.eq_iff.1 (hpaths.map fun _ _ ho => ho)
  exact hperm.nodup_iff.2 (hdistinct os hos)

end

end Hooks

end InterfacePages

/-
The nodes that visits come to.

Visits go from a root to its programs, from a program to what stands in its collections of addresses and accounts and
to its instructions without sub-instructions, and nowhere else. What they gather is what they are told of the nodes they
come to (`gather_visited`). The nodes that a root lists for its indexes are among these (`visited_of_members`,
`visited_of_leafInstructions`), but not the other way around: a collection is visited whatever kinds stand in it.
-/
import Mathlib.Logic.Relation
import InterfacePages.Proofs.HookBodies

namespace InterfacePages

namespace Hooks

open PageMap (Draft)

/-! ## Visits -/

/-- the values of a collection, all of which have to be nodes -/
def collected (a : Attr) (n : Node) : Except Fault (List Node) := do (← n.items a).mapM Value.asNode

/-- the nodes that the visit of a node goes into, in order -/
def inner (n : Node) : Except Fault (List Node) :=
  match n.kind? with
  | some .root => n.programs
  | some .program => do
    let pdas ← collected .pdas n
    let accounts ← collected .accounts n
    return pdas ++ accounts ++ (← n.leafInstructions)
  | _ => .ok []

/-- the visit of a node goes into another one -/
def Inside (n m : Node) : Prop := ∃ ms, inner n = .ok ms ∧ m ∈ ms

/-- visits that start at a node come to another one -/
def Visited (root n : Node) : Prop := Relation.ReflTransGen Inside root n

theorem eachNode_ok {δ : Type} {f : Node → Except Fault δ} {vs : List Value} {ds : List δ} (h : eachNode f vs = .ok ds) :
    ∃ ns, vs.mapM Value.asNode = .ok ns ∧ ns.mapM f = .ok ds := by
  simp only [mapM_eq_ok]
  have hpairs := mapM_eq_ok.1 h
  clear h
  induction hpairs with
  | nil => exact ⟨[], .nil, .nil⟩
  | cons hv _ ih =>
    obtain ⟨n, hn, hd⟩ := except_bind_ok.1 hv
    obtain ⟨ns, hns, hds⟩ := ih
    exact ⟨n :: ns, .cons hn hns, .cons hd hds⟩

section

variable {α : Type} {own : NodeStack → Node → Except Fault (List α)} {depth : Nat} {above : NodeStack} {n : Node}
  {as : List α}

/-- a visit gathers what is told of its node, and then what the visits inside it gather -/
theorem gather_step (h : gather own (depth + 1) above n = .ok as) :
    ∃ here ms bss, own above n = .ok here ∧ inner n = .ok ms ∧
      List.Forall₂ (fun m bs => gather own depth (n :: above) m = .ok bs) ms bss ∧ as = here ++ bss.flatten := by
  unfold gather at h
  unfold inner
  obtain ⟨here, hhere, h⟩ := except_bind_ok.1 h
  cases hk : n.kind? with
  | none =>
    rw [hk] at h
    cases h
    exact ⟨as, [], [], hhere, rfl, .nil, (List.append_nil as).symm⟩
  | some k =>
    rw [hk] at h
    cases k with
    | root =>
      obtain ⟨ps, hps, h⟩ := except_bind_ok.1 h
      obtain ⟨bss, hbss, h⟩ := except_bind_ok.1 h
      cases h
      exact ⟨here, ps, bss, hhere, hps, mapM_eq_ok.1 hbss, rfl⟩
    | program =>
      obtain ⟨pdaValues, hpdaValues, h⟩ := except_bind_ok.1 h
      obtain ⟨pdas, hpdas, h⟩ := except_bind_ok.1 h
      obtain ⟨accountValues, haccountValues, h⟩ := except_bind_ok.1 h
      obtain ⟨accounts, haccounts, h⟩ := except_bind_ok.1 h
      obtain ⟨leaves, hleaves, h⟩ := except_bind_ok.1 h
      obtain ⟨instructions, hinstructions, h⟩ := except_bind_ok.1 h
      cases h
      obtain ⟨pdaNodes, hpdaNodes, hpdas⟩ := eachNode_ok hpdas
      obtain ⟨accountNodes, haccountNodes, haccounts⟩ := eachNode_ok haccounts
      refine ⟨here, pdaNodes ++ accountNodes ++ leaves, pdas ++ accounts ++ instructions, hhere, ?_, ?_, rfl⟩
      · refine except_bind_ok.2 ⟨_, except_bind_ok.2 ⟨pdaValues, hpdaValues, hpdaNodes⟩, except_bind_ok.2 ?_⟩
        refine ⟨_, except_bind_ok.2 ⟨accountValues, haccountValues, haccountNodes⟩, except_bind_ok.2 ?_⟩
        exact ⟨leaves, hleaves, rfl⟩
      · exact List.rel_append (List.rel_append (mapM_eq_ok.1 hpdas) (mapM_eq_ok.1 haccounts)) (mapM_eq_ok.1 hinstructions)
    | _ =>
      cases h
      exact ⟨as, [], [], hhere, rfl, .nil, (List.append_nil as).symm⟩

/-- **What visits gather is what they are told of the nodes they come to.** -/
theorem gather_visited (h : gather own depth above n = .ok as) :
    (∀ m, Visited n m → (∃ ms, inner m = .ok ms) ∧ ∃ outer here, own outer m = .ok here ∧ here ⊆ as) ∧
      ∀ a ∈ as, ∃ m outer here, Visited n m ∧ own outer m = .ok here ∧ a ∈ here := by
  induction depth generalizing above n as with
  | zero => cases h
  | succ depth ih =>
    obtain ⟨here, ms, bss, hown, hms, hbss, rfl⟩ := gather_step h
    refine ⟨fun m hm => ?_, fun a ha => ?_⟩
    · rcases Relation.ReflTransGen.cases_head hm with rfl | ⟨next, ⟨_, hms', hnext⟩, hm⟩
      · exact ⟨⟨ms, hms⟩, above, here, hown, List.subset_append_left _ _⟩
      · cases hms.symm.trans hms'
        obtain ⟨bs, hbs, hgather⟩ := exists_of_forall₂ hbss.flip hnext
        obtain ⟨hinner, outer, there, hthere, hsub⟩ := (ih hgather).1 m hm
        refine ⟨hinner, outer, there, hthere, fun a ha => List.mem_append_right _ ?_⟩
        exact List.mem_flatten.2 ⟨bs, hbs, hsub ha⟩
    · rcases List.mem_append.1 ha with ha | ha
      · exact ⟨n, above, here, .refl, hown, ha⟩
      · obtain ⟨bs, hbs, ha⟩ := List.mem_flatten.1 ha
        obtain ⟨next, hnext, hgather⟩ := exists_of_forall₂ hbss hbs
        obtain ⟨m, outer, there, hm, hthere, ha⟩ := (ih hgather).2 a ha
        exact ⟨m, outer, there, .head ⟨ms, hms, hnext⟩ hm, hthere, ha⟩

end

/-! ## Listings -/

theorem collected_of_ownMembers {a : Attr} {k : Kind} {p : Node} {ns all : List Node} (hns : p.ownMembers a k = .ok ns)
    (hall : collected a p = .ok all) : ns ⊆ all := by
  intro n hn
  obtain ⟨vs, hvs, hns⟩ := except_bind_ok.1 hns
  obtain ⟨_, hvs', hall⟩ := except_bind_ok.1 hall
  cases hvs.symm.trans hvs'
  obtain ⟨v, hv, hvn⟩ := Node.mem_ofKind hns hn
  obtain ⟨m, hm, hvm⟩ := exists_of_forall₂ (mapM_eq_ok.1 hall).flip hv
  cases hvn.symm.trans hvm
  exact hm

theorem inner_program {p : Node} (hp : p.isKind .program = true) {ms : List Node} (h : inner p = .ok ms) :
    ∃ pdas accounts leaves, collected .pdas p = .ok pdas ∧ collected .accounts p = .ok accounts ∧
      p.leafInstructions = .ok leaves ∧ ms = pdas ++ accounts ++ leaves := by
  unfold inner at h
  rw [beq_iff_eq.1 hp] at h
  obtain ⟨pdas, hpdas, h⟩ := except_bind_ok.1 h
  obtain ⟨accounts, haccounts, h⟩ := except_bind_ok.1 h
  obtain ⟨leaves, hleaves, h⟩ := except_bind_ok.1 h
  cases h
  exact ⟨pdas, accounts, leaves, hpdas, haccounts, hleaves, rfl⟩

section

variable {r : Node} (hr : r.isKind .root = true) (hinner : ∀ n, Visited r n → ∃ ms, inner n = .ok ms)

include hr

theorem visited_of_programs {ps : List Node} (h : r.programs = .ok ps) : ∀ p ∈ ps, Visited r p := by
  intro p hp
  refine .single ⟨ps, ?_, hp⟩
  unfold inner
  rw [beq_iff_eq.1 hr]
  exact h

include hinner

theorem visited_of_members {a : Attr} (ha : a = .pdas ∨ a = .accounts) {k : Kind} {ns : List Node}
    (h : r.members a k = .ok ns) : ∀ n ∈ ns, Visited r n := by
  obtain ⟨ps, mss, hps, hmss, rfl⟩ := Node.members_ok h
  intro n hn
  obtain ⟨own, hown, hn⟩ := List.mem_flatten.1 hn
  obtain ⟨p, hp, hown⟩ := exists_of_forall₂ hmss hown
  have hvisited := visited_of_programs hr hps p hp
  obtain ⟨ms, hms⟩ := hinner p hvisited
  refine .tail hvisited ⟨ms, hms, ?_⟩
  obtain ⟨pdas, accounts, leaves, hpdas, haccounts, -, rfl⟩ := inner_program (Node.isKind_of_programs hps p hp) hms
  rw [List.mem_append, List.mem_append]
  rcases ha with rfl | rfl
  · exact .inl (.inl (collected_of_ownMembers hown hpdas hn))
  · exact .inl (.inr (collected_of_ownMembers hown haccounts hn))

theorem visited_of_leafInstructions {ls : List Node} (h : r.leafInstructions = .ok ls) : ∀ n ∈ ls, Visited r n := by
  obtain ⟨ps, lss, hps, hlss, rfl⟩ := (Node.leafInstructions_ok (Node.not_instruction hr (by decide))).1 h
  intro n hn
  obtain ⟨own, hown, hn⟩ := List.mem_flatten.1 hn
  obtain ⟨p, hp, hown⟩ := exists_of_forall₂ hlss hown
  have hvisited := visited_of_programs hr hps p hp
  obtain ⟨ms, hms⟩ := hinner p hvisited
  refine .tail hvisited ⟨ms, hms, ?_⟩
  obtain ⟨pdas, accounts, leaves, -, -, hleaves, rfl⟩ := inner_program (Node.isKind_of_programs hps p hp) hms
  cases hown.symm.trans hleaves
  exact List.mem_append_right _ hn

end

variable {naming : Naming} {links : LinkTable} {above : NodeStack} {n : Node} {ds : List Draft}

theorem nodeDrafts_own (h : n.isKind .root = false) :
    nodeDrafts naming links above n = ownDrafts naming links above n := by
  unfold nodeDrafts
  split
  · next hk =>
    rw [Node.isKind, hk] at h
    cases h
  · rfl

/-- a visited node with hooks has a name, and its draft is in the folder of its kind -/
theorem ownDrafts_of_visited {root : Node} {depth : Nat} (h : drafts naming links depth above root = .ok ds)
    (hn : Visited root n) {k : Kind} (hk : k ∈ Kind.program :: memberKinds) (hkind : n.isKind k = true) :
    ∃ outer name body, n.nameText = .ok name ∧
      ownDrafts naming links outer n = .ok [(modulePath (folderOf k) (Name.camelCase name), body)] ∧
      (modulePath (folderOf k) (Name.camelCase name), body) ∈ ds := by
  rw [drafts_eq_gather] at h
  obtain ⟨-, outer, here, hown, hsub⟩ := (gather_visited h).1 n hn
  have hroot : n.isKind .root = false := by
    rw [Node.isKind, beq_iff_eq.1 hkind]
    revert hk
    cases k <;> decide
  rw [nodeDrafts_own hroot] at hown
  obtain ⟨name, body, hname, rfl⟩ := ownDrafts_ok hk hkind hown
  exact ⟨outer, name, body, hname, hown, hsub (List.mem_singleton_self _)⟩

/-- only nodes of some kinds have hooks -/
theorem isKind_of_ownDrafts (h : ownDrafts naming links above n = .ok ds) (hne : ds ≠ []) :
    ∃ k ∈ Kind.program :: memberKinds, n.isKind k = true := by
  cases hk : n.kind? with
  | none =>
    unfold ownDrafts at h
    rw [hk] at h
    cases h
    exact absurd rfl hne
  | some k =>
    by_cases hmem : k ∈ Kind.program :: memberKinds
    · exact ⟨k, hmem, beq_iff_eq.2 hk⟩
    · unfold ownDrafts at h
      rw [hk] at h
      cases k with
      | program => exact absurd (by decide) hmem
      | account => exact absurd (by decide) hmem
      | instruction => exact absurd (by decide) hmem
      | pda => exact absurd (by decide) hmem
      | _ =>
        cases h
        exact absurd rfl hne

end Hooks

end InterfacePages

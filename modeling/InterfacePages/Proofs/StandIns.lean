/-
Which instructions stand for an instruction.

An instruction without sub-instructions stands for itself. One that has some is left out of the listing that the pages,
the modules, their index and the counts are made from, and what its sub-instructions come to is listed instead
(`mem_leafInstructions`). Having some is enough for that, whatever they are, while the listing passes over nodes of
other kinds: so nothing is listed for an instruction exactly if it is hollow, with nothing but other kinds at its ends
(`leafInstructions_eq_nil`), and a hollow instruction leaves no trace (`hollow_instruction_vanishes`). An instruction
that is not hollow has instructions that stand for it, and each of them has a page and a module (`instruction_stands`).
-/
import InterfacePages.Proofs.IndexModules
import InterfacePages.Proofs.OverviewLinks

namespace InterfacePages

namespace Node

open Hooks (collected)

/-! ## Steps of a listing -/

/-- the nodes that the listing of a node goes into: the sub-instructions of an instruction, and what the programs of
any other node have as instructions -/
def nested (n : Node) : Except Fault (List Node) :=
  if n.isKind .instruction then do
    let subs ← n.get .subInstructions
    if subs.isGiven then collected .subInstructions n else return []
  else do
    return (← (← n.programs).mapM (collected .instructions)).flatten

/-- the listing of a node goes into another one -/
def LeadsTo (n m : Node) : Prop := ∃ ms, n.nested = .ok ms ∧ m ∈ ms

/-- the listing of a node comes to another one -/
def ComesTo (n m : Node) : Prop := Relation.ReflTransGen LeadsTo n m

/-- an instruction without sub-instructions -/
def Single (n : Node) : Prop :=
  n.isKind .instruction = true ∧ ∃ subs, n.get .subInstructions = .ok subs ∧ subs.isGiven = false

theorem Single.nested {n : Node} (h : n.Single) : n.nested = .ok [] := by
  obtain ⟨hn, subs, hsubs, hgiven⟩ := h
  rw [Node.nested, if_pos hn, hsubs]
  change (if subs.isGiven then _ else _) = _
  rw [hgiven]
  rfl

theorem contains_collected {n m : Node} {a : Attr} {ms : List Node} (h : collected a n = .ok ms) (hm : m ∈ ms) :
    n.Contains m := by
  obtain ⟨vs, hvs, h⟩ := except_bind_ok.1 h
  obtain ⟨v, hv, hvm⟩ := exists_of_forall₂ (mapM_eq_ok.1 h) hm
  exact .item hvs hv hvm

/-- what a listing goes into stands in the node -/
theorem LeadsTo.contains {n m : Node} (h : n.LeadsTo m) : ∃ p, n.Occurs p ∧ p.Contains m := by
  obtain ⟨ms, hms, hm⟩ := h
  unfold nested at hms
  split at hms
  · obtain ⟨subs, _, hms⟩ := except_bind_ok.1 hms
    split at hms
    · exact ⟨n, .refl, contains_collected hms hm⟩
    · cases hms
      cases hm
  · obtain ⟨ps, hps, hms⟩ := except_bind_ok.1 hms
    obtain ⟨mss, hmss, hms⟩ := except_bind_ok.1 hms
    cases hms
    obtain ⟨ms, hms, hm⟩ := List.mem_flatten.1 hm
    obtain ⟨p, hp, hpms⟩ := exists_of_forall₂ (mapM_eq_ok.1 hmss) hms
    exact ⟨p, occurs_program hps hp, contains_collected hpms hm⟩

theorem LeadsTo.height_lt {n m : Node} (h : n.LeadsTo m) : m.height < n.height := by
  obtain ⟨p, hp, hm⟩ := h.contains
  exact Nat.lt_of_lt_of_le hm.height_lt hp.height_le

theorem ComesTo.occurs {n m : Node} (h : n.ComesTo m) : n.Occurs m := by
  induction h with
  | refl => exact .refl
  | tail _ hstep ih =>
    obtain ⟨p, hp, hm⟩ := hstep.contains
    exact (ih.trans hp).tail hm

theorem forall₂_append {α β : Type} {R : α → β → Prop} {xs ys : List α} {zs : List β}
    (h : List.Forall₂ R (xs ++ ys) zs) :
    ∃ us vs, List.Forall₂ R xs us ∧ List.Forall₂ R ys vs ∧ zs = us ++ vs := by
  induction xs generalizing zs with
  | nil => exact ⟨[], zs, .nil, h, rfl⟩
  | cons x xs ih =>
    cases h with
    | cons hx h =>
      obtain ⟨us, vs, hus, hvs, rfl⟩ := ih h
      exact ⟨_ :: us, vs, .cons hx hus, hvs, rfl⟩

section

variable {list : Node → Except Fault (List Node)} {ls : List Node}

/-- the listing of a collection is that of its nodes -/
theorem listAll_ok {vs : List Value} : listAll list vs = .ok ls ↔
    ∃ ms lss, vs.mapM Value.asNode = .ok ms ∧ ms.mapM list = .ok lss ∧ ls = lss.flatten := by
  simp only [mapM_eq_ok]
  induction vs generalizing ls with
  | nil =>
    constructor
    · intro h
      cases h
      exact ⟨[], [], .nil, .nil, rfl⟩
    · rintro ⟨_, _, ⟨⟩, ⟨⟩, rfl⟩
      rfl
  | cons v rest ih =>
    constructor
    · intro h
      obtain ⟨m, hm, h⟩ := except_bind_ok.1 h
      obtain ⟨here, hhere, h⟩ := except_bind_ok.1 h
      obtain ⟨others, hothers, h⟩ := except_bind_ok.1 h
      cases h
      obtain ⟨ms, lss, hms, hlss, rfl⟩ := ih.1 hothers
      exact ⟨m :: ms, here :: lss, .cons hm hms, .cons hhere hlss, rfl⟩
    · rintro ⟨_, _, hms, hlss, rfl⟩
      cases hms with
      | cons hm hrest =>
        cases hlss with
        | cons hhere hothers =>
          refine except_bind_ok.2 ⟨_, hm, except_bind_ok.2 ⟨_, hhere, except_bind_ok.2 ⟨_, ?_, rfl⟩⟩⟩
          exact ih.2 ⟨_, _, hrest, hothers, rfl⟩

/-- the listing of a collection that a node holds -/
theorem listAll_collected {a : Attr} {n : Node} : (do listAll list (← n.items a)) = .ok ls ↔
    ∃ ms lss, collected a n = .ok ms ∧ ms.mapM list = .ok lss ∧ ls = lss.flatten := by
  constructor
  · intro h
    obtain ⟨vs, hvs, h⟩ := except_bind_ok.1 h
    obtain ⟨ms, lss, hms, h⟩ := listAll_ok.1 h
    exact ⟨ms, lss, except_bind_ok.2 ⟨vs, hvs, hms⟩, h⟩
  · rintro ⟨ms, lss, hms, h⟩
    obtain ⟨vs, hvs, hms⟩ := except_bind_ok.1 hms
    exact except_bind_ok.2 ⟨vs, hvs, listAll_ok.2 ⟨ms, lss, hms, h⟩⟩

/-- the listing of what some programs hold -/
theorem listAll_programs {a : Attr} {ps : List Node} :
    (∃ lss, (ps.mapM fun p : Node => do listAll list (← p.items a)) = .ok lss ∧ ls = lss.flatten) ↔
      ∃ mss lss, ps.mapM (collected a) = .ok mss ∧ mss.flatten.mapM list = .ok lss ∧ ls = lss.flatten := by
  simp only [mapM_eq_ok, listAll_collected]
  constructor
  · rintro ⟨lss, h, rfl⟩
    induction h with
    | nil => exact ⟨[], [], .nil, .nil, rfl⟩
    | cons hp _ ih =>
      obtain ⟨ms, here, hms, hhere, rfl⟩ := hp
      obtain ⟨mss, others, hmss, hothers, hflat⟩ := ih
      refine ⟨ms :: mss, here ++ others, .cons hms hmss, List.rel_append hhere hothers, ?_⟩
      rw [List.flatten_cons, hflat, List.flatten_append]
  · rintro ⟨mss, lss, hmss, hlss, rfl⟩
    induction hmss generalizing lss with
    | nil =>
      cases hlss
      exact ⟨[], .nil, rfl⟩
    | cons hms _ ih =>
      obtain ⟨here, others, hhere, hothers, rfl⟩ := forall₂_append hlss
      obtain ⟨rest, hrest, hflat⟩ := ih others hothers
      exact ⟨here.flatten :: rest, .cons ⟨_, here, hms, hhere, rfl⟩ hrest, by
        rw [List.flatten_append, hflat, List.flatten_cons]⟩

end

theorem instructionsUpTo_single {n : Node} (h : n.Single) (leavesOnly : Bool) (fuel : Nat) :
    instructionsUpTo leavesOnly (fuel + 1) n = .ok [n] := by
  obtain ⟨hn, subs, hsubs, hgiven⟩ := h
  rw [instructionsUpTo, if_pos hn, hsubs]
  change (if !subs.isGiven then _ else _) = _
  rw [hgiven]
  rfl

/-- of an instruction with sub-instructions is listed what they come to, behind the instruction unless only those without
any are listed; of a node that is no instruction is listed what its programs hold -/
theorem instructionsUpTo_nested {leavesOnly : Bool} {n : Node} (h : ¬ n.Single) {fuel : Nat} {ls : List Node} :
    instructionsUpTo leavesOnly (fuel + 1) n = .ok ls ↔
      ∃ ms lss, n.nested = .ok ms ∧ ms.mapM (instructionsUpTo leavesOnly fuel) = .ok lss ∧
        ls = (if n.isKind .instruction && !leavesOnly then [n] else []) ++ lss.flatten := by
  unfold instructionsUpTo nested
  split
  · next hn =>
    cases hsubs : n.get .subInstructions with
    | error e =>
      constructor
      · intro h
        cases h
      · rintro ⟨ms, lss, hms, -⟩
        cases hms
    | ok subs =>
      have hgiven : subs.isGiven = true := eq_true_of_ne_false fun hgiven => h ⟨hn, subs, hsubs, hgiven⟩
      have hitems : n.items .subInstructions = subs.items := by rw [items, hsubs]; rfl
      change (if !subs.isGiven then _ else _) = _ ↔ ∃ ms lss, (if subs.isGiven then _ else _) = _ ∧ _
      rw [hgiven, if_neg (by decide), if_pos rfl, ← bind_assoc, ← hitems, except_bind_ok]
      simp only [listAll_collected]
      constructor
      · rintro ⟨_, ⟨ms, lss, hms, hlss, rfl⟩, h⟩
        refine ⟨ms, lss, hms, hlss, (Except.ok.inj h).symm.trans ?_⟩
        cases leavesOnly <;> simp [hn]
      · rintro ⟨ms, lss, hms, hlss, rfl⟩
        refine ⟨_, ⟨ms, lss, hms, hlss, rfl⟩, congrArg Except.ok ?_⟩
        cases leavesOnly <;> simp [hn]
  · next hn =>
    rw [eq_false_of_ne_true hn, Bool.false_and, if_neg Bool.false_ne_true]
    simp only [List.nil_append]
    constructor
    · intro h
      obtain ⟨ps, hps, h⟩ := except_bind_ok.1 h
      obtain ⟨lss, hlss, h⟩ := except_bind_ok.1 h
      obtain ⟨mss, rest, hmss, hrest⟩ := listAll_programs.1 ⟨lss, hlss, (Except.ok.inj h).symm⟩
      exact ⟨mss.flatten, rest, except_bind_ok.2 ⟨ps, hps, except_bind_ok.2 ⟨mss, hmss, rfl⟩⟩, hrest⟩
    · rintro ⟨ms, rest, hms, hrest⟩
      obtain ⟨ps, hps, hms⟩ := except_bind_ok.1 hms
      obtain ⟨mss, hmss, hms⟩ := except_bind_ok.1 hms
      cases hms
      obtain ⟨lss, hlss, rfl⟩ := listAll_programs.2 ⟨mss, rest, hmss, hrest⟩
      exact except_bind_ok.2 ⟨ps, hps, except_bind_ok.2 ⟨lss, hlss, rfl⟩⟩

/-- **One step of a listing.** An instruction without sub-instructions is listed itself; of any other node is listed
what its listing goes into. -/
theorem leafInstructions_step {n : Node} {ls : List Node} : n.leafInstructions = .ok ls ↔
    n.Single ∧ ls = [n] ∨
      ¬ n.Single ∧ ∃ ms lss, n.nested = .ok ms ∧ ms.mapM leafInstructions = .ok lss ∧ ls = lss.flatten := by
  obtain ⟨fuel, hf⟩ := Nat.exists_eq_add_one.2 n.height_pos
  have hlisted : n.leafInstructions = instructionsUpTo true (fuel + 1) n := congrArg (instructionsUpTo true · n) hf
  -- what is nested is lower, so less fuel lists the same of it
  have hlow : ∀ {ms}, n.nested = .ok ms → ms.mapM (instructionsUpTo true fuel) = ms.mapM leafInstructions :=
    fun hms => mapM_congr fun m hm => by
      have := LeadsTo.height_lt ⟨_, hms, hm⟩
      exact instructionsUpTo_eq (by omega) (Nat.le_refl _)
  rw [hlisted]
  by_cases h : n.Single
  · rw [instructionsUpTo_single h]
    simp [h, eq_comm]
  · rw [instructionsUpTo_nested h]
    simp only [h, false_and, false_or, not_false_eq_true, true_and]
    refine exists_congr fun ms => exists_congr fun lss => and_congr_right fun hms => ?_
    rw [hlow hms, Bool.not_true, Bool.and_false, if_neg Bool.false_ne_true, List.nil_append]

/-! ## Stand-ins -/

/-- an instruction stands for a node: it has no sub-instructions, and the listing of the node comes to it -/
def StandsFor (l n : Node) : Prop := n.ComesTo l ∧ l.Single

/-- a listing that goes into a node comes to no instruction without sub-instructions -/
inductive Hollow : Node → Prop
  | intro {n : Node} {ms : List Node} (several : ¬ n.Single) (nested : n.nested = .ok ms)
      (inside : ∀ m ∈ ms, Hollow m) : Hollow n

/-- an instruction has sub-instructions, none of which is an instruction -/
structure Barren (n : Node) : Prop where
  instruction : n.isKind .instruction = true
  several : ¬ n.Single
  others : ∀ m, n.LeadsTo m → m.isKind .instruction = false

/-- what holds of a node if it holds of all that its listing goes into holds of every node -/
theorem nested_induction {P : Node → Prop} (h : ∀ n, (∀ m, n.LeadsTo m → P m) → P n) (n : Node) : P n :=
  (InvImage.wf Node.height Nat.lt_wfRel.wf).induction n fun n ih => h n fun m hm => ih m hm.height_lt

/-- **What is listed for a node are the instructions that stand for it.** -/
theorem mem_leafInstructions {n : Node} {ls : List Node} (h : n.leafInstructions = .ok ls) (l : Node) :
    l ∈ ls ↔ l.StandsFor n := by
  induction n using nested_induction generalizing ls with
  | h n ih =>
    obtain ⟨hsingle, rfl⟩ | ⟨hseveral, ms, lss, hms, hlss, rfl⟩ := leafInstructions_step.1 h
    · rw [List.mem_singleton]
      constructor
      · rintro rfl
        exact ⟨.refl, hsingle⟩
      · rintro ⟨hcomes, -⟩
        obtain rfl | ⟨m, ⟨ms, hms, hm⟩, -⟩ := Relation.ReflTransGen.cases_head hcomes
        · rfl
        · cases hsingle.nested.symm.trans hms
          cases hm
    · rw [mapM_eq_ok] at hlss
      constructor
      · intro hl
        obtain ⟨ls, hls, hl⟩ := List.mem_flatten.1 hl
        obtain ⟨m, hm, hmls⟩ := exists_of_forall₂ hlss hls
        obtain ⟨hcomes, hl⟩ := (ih m ⟨ms, hms, hm⟩ hmls).1 hl
        exact ⟨.head ⟨ms, hms, hm⟩ hcomes, hl⟩
      · rintro ⟨hcomes, hl⟩
        obtain rfl | ⟨m, ⟨ms', hms', hm⟩, hcomes⟩ := Relation.ReflTransGen.cases_head hcomes
        · exact absurd hl hseveral
        · cases hms.symm.trans hms'
          obtain ⟨ls, hls, hmls⟩ := exists_of_forall₂ hlss.flip hm
          exact List.mem_flatten.2 ⟨ls, hls, (ih m ⟨ms, hms, hm⟩ hmls).2 ⟨hcomes, hl⟩⟩

/-- **Nothing is listed exactly for hollow nodes.** -/
theorem leafInstructions_eq_nil {n : Node} {ls : List Node} (h : n.leafInstructions = .ok ls) :
    ls = [] ↔ n.Hollow := by
  induction n using nested_induction generalizing ls with
  | h n ih =>
    obtain ⟨hsingle, rfl⟩ | ⟨hseveral, ms, lss, hms, hlss, rfl⟩ := leafInstructions_step.1 h
    · refine ⟨fun h => absurd h (List.cons_ne_nil _ _), ?_⟩
      rintro ⟨hseveral, -, -⟩
      exact absurd hsingle hseveral
    · rw [List.flatten_eq_nil_iff]
      rw [mapM_eq_ok] at hlss
      constructor
      · refine fun hnil => .intro hseveral hms fun m hm => ?_
        obtain ⟨ls, hls, hmls⟩ := exists_of_forall₂ hlss.flip hm
        exact (ih m ⟨ms, hms, hm⟩ hmls).1 (hnil ls hls)
      · rintro ⟨-, hms', hinside⟩ ls hls
        cases hms.symm.trans hms'
        obtain ⟨m, hm, hmls⟩ := exists_of_forall₂ hlss hls
        exact (ih m ⟨ms, hms, hm⟩ hmls).2 (hinside m hm)

/-- a listing returns exactly if all collections that it comes to hold nodes -/
theorem leafInstructions_returns {n : Node} :
    (∃ ls, n.leafInstructions = .ok ls) ↔ ∀ m, n.ComesTo m → ∃ ms, m.nested = .ok ms := by
  induction n using nested_induction with
  | h n ih =>
    constructor
    · rintro ⟨ls, h⟩ m hm
      obtain ⟨hsingle, rfl⟩ | ⟨hseveral, ms, lss, hms, hlss, rfl⟩ := leafInstructions_step.1 h
      · obtain rfl | ⟨m, ⟨ms, hms, hm⟩, -⟩ := Relation.ReflTransGen.cases_head hm
        · exact ⟨[], hsingle.nested⟩
        · cases hsingle.nested.symm.trans hms
          cases hm
      · obtain rfl | ⟨next, hnext, hm⟩ := Relation.ReflTransGen.cases_head hm
        · exact ⟨ms, hms⟩
        · obtain ⟨ms', hms', hmem⟩ := hnext
          cases hms.symm.trans hms'
          obtain ⟨ls, _, hls⟩ := exists_of_forall₂ (mapM_eq_ok.1 hlss).flip hmem
          exact (ih next ⟨ms, hms, hmem⟩).1 ⟨ls, hls⟩ m hm
    · intro h
      by_cases hsingle : n.Single
      · exact ⟨[n], leafInstructions_step.2 (.inl ⟨hsingle, rfl⟩)⟩
      · obtain ⟨ms, hms⟩ := h n .refl
        obtain ⟨lss, hlss⟩ := exists_mapM_ok fun m hm =>
          (ih m ⟨ms, hms, hm⟩).2 fun m' hm' => h m' (.head ⟨ms, hms, hm⟩ hm')
        exact ⟨lss.flatten, leafInstructions_step.2 (.inr ⟨hsingle, ms, lss, hms, hlss, rfl⟩)⟩

/-- below a hollow instruction, or at it, is one that has sub-instructions of other kinds only -/
theorem Hollow.barren {n : Node} (h : n.Hollow) (hn : n.isKind .instruction = true) :
    ∃ m, n.ComesTo m ∧ m.Barren := by
  induction h with
  | @intro n ms hseveral hms _ ih =>
    by_cases hother : ∀ m, n.LeadsTo m → m.isKind .instruction = false
    · exact ⟨n, .refl, hn, hseveral, hother⟩
    · push Not at hother
      obtain ⟨m, ⟨ms', hms', hm⟩, hkind⟩ := hother
      cases hms.symm.trans hms'
      obtain ⟨l, hl, hbarren⟩ := ih m hm (eq_true_of_ne_false hkind)
      exact ⟨l, .head ⟨ms, hms, hm⟩ hl, hbarren⟩

theorem leafInstructions_several {n : Node} {ls : List Node} (hn : ¬ n.Single) : n.leafInstructions = .ok ls ↔
    ∃ ms lss, n.nested = .ok ms ∧ ms.mapM leafInstructions = .ok lss ∧ ls = lss.flatten := by
  rw [leafInstructions_step]
  simp only [hn, false_and, false_or, not_false_eq_true, true_and]

theorem not_single {n : Node} {k : Kind} (hn : n.isKind k = true) (hk : k ≠ .instruction) : ¬ n.Single := fun h =>
  Bool.false_ne_true ((not_instruction hn hk).symm.trans h.1)

/-- what is listed for an instruction stands together in the listing of its root -/
theorem infix_of_leadsTo {r i : Node} (hr : r.isKind .root = true) (hi : r.LeadsTo i) {all ls : List Node}
    (hall : r.leafInstructions = .ok all) (hls : i.leafInstructions = .ok ls) : ls <:+: all := by
  obtain ⟨ms, lss, hms, hlss, rfl⟩ := (leafInstructions_several (not_single hr (by decide))).1 hall
  obtain ⟨ms', hms', hi⟩ := hi
  cases hms.symm.trans hms'
  obtain ⟨ls', hls', hi⟩ := exists_of_forall₂ (mapM_eq_ok.1 hlss).flip hi
  cases hls.symm.trans hi
  exact List.infix_of_mem_flatten hls'

end Node

namespace Docs

/-- a program lists its instructions, and each of them has a draft -/
theorem drafts_of_program {scope : Scope} {depth : Nat} {above : NodeStack} {p : Node} (hp : p.isKind .program = true)
    {ds : List PageMap.Draft} (h : drafts scope (depth + 1) above p = .ok ds) : ∃ ls, p.leafInstructions = .ok ls ∧
      ∀ l ∈ ls, ∃ path, pagePath "instructions" l = .ok path ∧ path ∈ ds.map Prod.fst := by
  unfold drafts at h
  rw [beq_iff_eq.1 hp] at h
  obtain ⟨own, _, h⟩ := except_bind_ok.1 h
  obtain ⟨_, _, h⟩ := except_bind_ok.1 h
  obtain ⟨pdas, _, h⟩ := except_bind_ok.1 h
  obtain ⟨_, _, h⟩ := except_bind_ok.1 h
  obtain ⟨accounts, _, h⟩ := except_bind_ok.1 h
  obtain ⟨_, _, h⟩ := except_bind_ok.1 h
  obtain ⟨types, _, h⟩ := except_bind_ok.1 h
  obtain ⟨ls, hls, h⟩ := except_bind_ok.1 h
  obtain ⟨instructions, hinstructions, h⟩ := except_bind_ok.1 h
  cases h
  have hfolder : (Kind.instruction, ("instructions" : Text)) ∈ memberFolders := by decide
  have hplaced := placedAt_drafts hfolder (Node.isKind_of_leafInstructions hls) (mapM_eq_ok.1 hinstructions)
  refine ⟨ls, hls, fun l hl => ?_⟩
  obtain ⟨path, hmem, hpath⟩ := exists_of_forall₂ hplaced.flip hl
  refine ⟨path, hpath, ?_⟩
  rw [List.flatten_append, List.map_append]
  exact List.mem_append_right _ hmem

/-- an instruction that stands for a root has a page -/
theorem page_of_standIn {options : Options} {r l : Node} (hr : r.isKind .root = true) (hl : l.StandsFor r) {m : PageMap}
    (h : pages options r = .ok m) : ∃ path, pagePath "instructions" l = .ok path ∧ path ∈ m.keys := by
  obtain ⟨naming, links, ds, merged, -, -, hds, hm, rfl⟩ := pages_eq_ok h
  obtain ⟨depth, hdepth⟩ := Nat.exists_eq_add_one.2 r.height_pos
  unfold drafts at hds
  rw [beq_iff_eq.1 hr, hdepth] at hds
  obtain ⟨ps, hps, hds⟩ := except_bind_ok.1 hds
  obtain ⟨dss, hdss, hds⟩ := except_bind_ok.1 hds
  cases hds
  rw [mapM_eq_ok] at hdss
  obtain ⟨lss, hlss⟩ := exists_mapM_ok fun p hp => by
    obtain ⟨ds, _, hds⟩ := exists_of_forall₂ hdss.flip hp
    exact (drafts_of_program (Node.isKind_of_programs hps p hp) hds).imp fun _ h => h.1
  have hother := Node.not_instruction hr (by decide)
  have hlisted := (Node.leafInstructions_ok hother).2 ⟨ps, lss, hps, mapM_eq_ok.1 hlss, rfl⟩
  obtain ⟨ls, hls, hl⟩ := List.mem_flatten.1 ((Node.mem_leafInstructions hlisted l).2 hl)
  obtain ⟨p, hp, hpls⟩ := exists_of_forall₂ (mapM_eq_ok.1 hlss) hls
  obtain ⟨ds, hds, hpds⟩ := exists_of_forall₂ hdss.flip hp
  obtain ⟨ls', hls', hpaths⟩ := drafts_of_program (Node.isKind_of_programs hps p hp) hpds
  cases hpls.symm.trans hls'
  obtain ⟨path, hpath, hmem⟩ := hpaths l hl
  refine ⟨path, hpath, ?_⟩
  rw [PageMap.mapContent, OrderedMap.keys_mapValues]
  refine (hm.paths path).2 ?_
  rw [List.map_flatten]
  exact List.mem_flatten.2 ⟨_, List.mem_map_of_mem hds, hmem⟩

end Docs

namespace Hooks

/-- an instruction that stands for a root has a module, and the index of instructions exports it -/
theorem module_of_standIn {options : Options} {r l : Node} (hr : r.isKind .root = true) (hl : l.StandsFor r)
    {m : PageMap} (h : pages options r = .ok m) : ∃ name, l.nameText = .ok name ∧
      modulePath instructionFolder (Name.camelCase name) ∈ m.keys ∧
      ∃ index, m.get? (modulePath instructionFolder "index") = some index ∧
        exportLine (Name.camelCase name) <:+: index.content := by
  obtain ⟨naming, strategy, links, ds, merged, -, -, -, hds, hm, hmodules⟩ := pages_eq_ok h
  obtain ⟨hkeys, hvalues⟩ := OrderedMap.tryMap_eq_ok hmodules
  have hpath : ∀ path, path ∈ m.keys ↔ path ∈ ds.map Prod.fst := fun path => by
    rw [hkeys]
    exact hm.paths path
  obtain ⟨all, hall⟩ : ∃ all, r.leafInstructions = .ok all := by
    have hroot := hds
    unfold drafts at hroot
    rw [beq_iff_eq.1 hr] at hroot
    obtain ⟨own, hown, -⟩ := except_bind_ok.1 hroot
    obtain ⟨_, _, hown⟩ := except_bind_ok.1 hown
    obtain ⟨_, _, hown⟩ := except_bind_ok.1 hown
    obtain ⟨_, _, hown⟩ := except_bind_ok.1 hown
    obtain ⟨all, hall, -⟩ := except_bind_ok.1 hown
    exact ⟨all, hall⟩
  have hmem := (Node.mem_leafInstructions hall l).2 hl
  have hgather := hds
  rw [drafts_eq_gather] at hgather
  have hvisited := visited_of_leafInstructions hr (fun n hn => ((gather_visited hgather).1 n hn).1) hall l hmem
  obtain ⟨_, name, body, hname, -, hdraft⟩ := ownDrafts_of_visited hds hvisited (k := .instruction) (by decide)
    (Node.isKind_of_leafInstructions hall l hmem)
  refine ⟨name, hname, (hpath _).2 (List.mem_map_of_mem hdraft), ?_⟩
  -- the index lists what the root lists
  obtain ⟨place, hplace, hfolder, hlisted⟩ : ∃ place ∈ indexPlaces, place.folder = instructionFolder ∧
      place.listed = Node.leafInstructions := ⟨_, List.mem_cons_of_mem _ List.mem_cons_self, rfl, rfl⟩
  have hholds := holds_of_drafts hds hplace
  have hexports : place.Exports r (Name.camelCase name) :=
    ⟨r, all, l, name, .refl, hr, hlisted ▸ hall, hmem, hname, rfl⟩
  obtain ⟨d, hd, names, hlists, -⟩ := hholds.exports _ hexports
  obtain ⟨index, hindex⟩ := OrderedMap.mem_keys.1 ((hpath _).2 (List.mem_map_of_mem hd))
  rw [hlists.draft] at hindex
  obtain ⟨body, hb, hpage⟩ := hvalues _ index hindex
  obtain ⟨d, -, hpage⟩ := except_bind_ok.1 hpage
  cases hpage
  rw [← hfolder]
  exact ⟨_, hindex, (module_of_holds hholds hm hb _).exports _ hexports⟩

end Hooks

namespace Node

/-- an instruction shows up in what a root is rendered to: a page, a module, and a line in the index of instructions -/
structure Shown (r l : Node) : Prop where
  page : ∀ options m, Docs.pages options r = .ok m → ∃ path, Docs.pagePath "instructions" l = .ok path ∧ path ∈ m.keys
  module : ∀ options m, Hooks.pages options r = .ok m → ∃ name, l.nameText = .ok name ∧
    Hooks.modulePath Hooks.instructionFolder (Name.camelCase name) ∈ m.keys ∧
    ∃ index, m.get? (Hooks.modulePath Hooks.instructionFolder "index") = some index ∧
      Hooks.exportLine (Name.camelCase name) <:+: index.content

/-- **An instruction is left out only for those that stand for it, unless it is hollow.** Of an instruction whose
sub-instructions are nodes, at every depth, are listed the instructions that stand for it. There are none exactly if it
is hollow, and then some instruction at it or below it has sub-instructions of other kinds only. What is listed for it
is listed, and counted, for every root that declares it, and all of it has pages and modules. -/
theorem instruction_stands {i : Node} (hi : i.isKind .instruction = true)
    (hread : ∀ m, i.ComesTo m → ∃ ms, m.nested = .ok ms) : ∃ ls, i.leafInstructions = .ok ls ∧
      (∀ l, l ∈ ls ↔ l.StandsFor i) ∧ (ls = [] ↔ i.Hollow) ∧ (i.Hollow → ∃ m, i.ComesTo m ∧ m.Barren) ∧
      ∀ r : Node, r.isKind .root = true → r.LeadsTo i → (∀ l ∈ ls, r.Shown l) ∧
        ∀ c, r.counts = .ok c → ∃ all, r.leafInstructions = .ok all ∧ ls <:+: all ∧ c.instructions = all.length := by
  obtain ⟨ls, hls⟩ := leafInstructions_returns.2 hread
  refine ⟨ls, hls, mem_leafInstructions hls, leafInstructions_eq_nil hls, fun h => h.barren hi,
    fun r hr hri => ⟨?_, ?_⟩⟩
  · intro l hl
    obtain ⟨hcomes, hsingle⟩ := (mem_leafInstructions hls l).1 hl
    have hstands : l.StandsFor r := ⟨.head hri hcomes, hsingle⟩
    exact ⟨fun _ _ => Docs.page_of_standIn hr hstands, fun _ _ => Hooks.module_of_standIn hr hstands⟩
  · intro c hc
    rw [counts_eq] at hc
    obtain ⟨listing, hlisting, hc⟩ := except_bind_ok.1 hc
    cases hc
    have hall := (listing_eq_ok.1 hlisting).2.2.1
    exact ⟨_, hall, infix_of_leadsTo hr hri hall hls, rfl⟩

def instructionOf (name : Text) (subs : List Value) : Node :=
  .known .instruction (fillSlots Kind.instruction.slots [(.name, .text name), (.subInstructions, .tuple subs)])

/-- a node of a kind without a model -/
def future : Value := .node (.unknown (.text "futureInstructionNode") [])

/-- a swap that is made of two steps, one of which is made of one; between them stand nodes of other kinds -/
def swap : Node :=
  instructionOf "swap" [future, .node (instructionOf "pay" []), .node (instructionOf "take" [
    .node (instructionOf "take_checked" []), future])]

/-- a transfer whose only sub-instruction has a kind without a model -/
def transfer : Node := instructionOf "transfer" [future]

def exchange (i : Node) : Node :=
  .known .root (fillSlots Kind.root.slots [(.program, .node (.known .program (fillSlots Kind.program.slots [
    (.name, .text "exchange"), (.instructions, .tuple [.node i])])))])

theorem leadsTo_exchange (i : Node) : (exchange i).LeadsTo i := ⟨[i], rfl, List.mem_singleton_self i⟩

/-- the steps of the swap stand for it -/
theorem swap_stands : swap.isKind .instruction = true ∧ (∀ m, swap.ComesTo m → ∃ ms, m.nested = .ok ms) ∧
    ∃ pay take, swap.leafInstructions = .ok [pay, take] ∧ pay.StandsFor swap ∧ take.StandsFor swap ∧ ¬ swap.Hollow ∧
      (exchange swap).Shown pay ∧ (exchange swap).Shown take := by
  have hread : ∀ m, swap.ComesTo m → ∃ ms, m.nested = .ok ms := fun m hm => by
    have hall : swap.everywhere (fun n => n.nested.isOk) swap.height = true := by decide +kernel
    exact exists_of_isOk (test_of_everywhere hall hm.occurs)
  obtain ⟨ls, hls, hstands, hhollow, -, hshown⟩ := instruction_stands (i := swap) (by decide) hread
  obtain rfl : [instructionOf "pay" [], instructionOf "take_checked" []] = ls := Except.ok.inj hls
  obtain ⟨hshown, -⟩ := hshown _ (by decide) (leadsTo_exchange swap)
  refine ⟨by decide, hread, _, _, hls, (hstands _).1 (by simp), (hstands _).1 (by simp), fun h => ?_,
    hshown _ (by simp), hshown _ (by simp)⟩
  exact List.cons_ne_nil _ _ (hhollow.2 h)

/-- **Nothing stands for a hollow instruction.** The transfer is declared, but it is not listed and not counted; it has
neither a page nor a module, and there is no index. -/
theorem hollow_instruction_vanishes : transfer.isKind .instruction = true ∧ transfer.leafInstructions = .ok [] ∧
    transfer.Hollow ∧ (exchange transfer).LeadsTo transfer ∧ (exchange transfer).counts = .ok ⟨1, 0, 0, 0, 0, 0⟩ ∧
    ∃ docs hooks, Docs.pages ⟨Docs.standardPackage, []⟩ (exchange transfer) = .ok docs ∧
      docs.keys = [Text.ofString "index.md"] ∧
      Hooks.pages ⟨"../client", "granular", []⟩ (exchange transfer) = .ok hooks ∧
      hooks.keys = ["hooks/index.ts", "hooks/exchange.ts"].map Text.ofString := by
  have hnone : transfer.leafInstructions = .ok [] := rfl
  have hdocs : (Docs.pages ⟨Docs.standardPackage, []⟩ (exchange transfer)).toOption.any (fun m =>
      m.keys = [Text.ofString "index.md"]) = true := by decide +kernel
  have hhooks : (Hooks.pages ⟨"../client", "granular", []⟩ (exchange transfer)).toOption.any (fun m =>
      m.keys = ["hooks/index.ts", "hooks/exchange.ts"].map Text.ofString) = true := by decide +kernel
  obtain ⟨docs, hdocs, hpages⟩ := any_toOption.1 hdocs
  obtain ⟨hooks, hhooks, hmodules⟩ := any_toOption.1 hhooks
  exact ⟨by decide, hnone, (leafInstructions_eq_nil hnone).1 rfl, leadsTo_exchange transfer, rfl, docs, hooks, hdocs,
    of_decide_eq_true hpages, hhooks, of_decide_eq_true hmodules⟩

end Node

end InterfacePages

/-
Links in reordered trees.

The first entry under a key stays, so what a link leads to depends on the order of declarations where two entries share
a key. Programs and addresses that share one are rendered on one path. If the outputs of a tree are distinct, a search
for a program or an address therefore has one answer, found in whatever order the declarations are searched
(`Rearranged.find?`), and a search for a defined type goes over one program, which declares its types in the same order
(`firstDeclared_types`). So links lead to the same addresses (`resolve_reordered`).
-/
import InterfacePages.Proofs.HookBuilding
import InterfacePages.Proofs.LinkSearch
import InterfacePages.Proofs.OutputPaths

namespace InterfacePages

/-- what is found in a list has its counterpart found in a rearranged one, if it is all there is to be found -/
theorem Rearranged.find? {α β : Type} {R : α → β → Prop} {xs : List α} {ys : List β} {p : α → Bool} {q : β → Bool}
    (h : Rearranged R xs ys) (hpq : ∀ a b, R a b → p a = q b)
    (hone : ∀ a ∈ xs, ∀ a' ∈ xs, p a = true → p a' = true → a = a') : Option.Rel R (xs.find? p) (ys.find? q) := by
  cases hx : xs.find? p with
  | none =>
    have hy : ys.find? q = none := by
      refine List.find?_eq_none.2 fun b hb hqb => ?_
      obtain ⟨a, ha, hab⟩ := h.exists_left hb
      exact List.find?_eq_none.1 hx a ha (hpq a b hab ▸ hqb)
    rw [hy]
    exact .none
  | some a =>
    have ha := List.mem_of_find?_eq_some hx
    have hpa := List.find?_some hx
    cases hy : ys.find? q with
    | none =>
      obtain ⟨b, hb, hab⟩ := h.exists_right ha
      exact absurd (hpq a b hab ▸ hpa) (List.find?_eq_none.1 hy b hb)
    | some b =>
      obtain ⟨a', ha', hab⟩ := h.exists_left (List.mem_of_find?_eq_some hy)
      rw [hone a ha a' ha' hpa (hpq a' b hab ▸ List.find?_some hy)]
      exact .some hab

namespace Node

theorem Reordered.isNamed_eq {n n' : Node} (h : n.Reordered n') (name : NameKey) :
    n.isNamed name = n'.isNamed name := by
  unfold isNamed
  rw [h.get_eq (by decide)]

theorem sameName_of_isNamed {a b : Node} {name : NameKey} (ha : a.isNamed name = true) (hb : b.isNamed name = true) :
    a.SameName b := by
  unfold isNamed at ha hb
  split at ha
  · next v hv =>
    split at hb
    · next w hw => exact ⟨v, w, hv, hw, (of_decide_eq_true ha).trans (of_decide_eq_true hb).symm⟩
    · cases hb
  · cases ha

/-- a program and its reordered one declare the same types in the same order -/
theorem Reordered.definedTypes {p p' : Node} (h : p.Reordered p') (hp : p.isKind .program = true) :
    p.definedTypes = p'.definedTypes := by
  have hown : p.ownMembers .definedTypes .definedType = p'.ownMembers .definedTypes .definedType := by
    unfold ownMembers Node.items
    rw [h.get_eq (by decide)]
  unfold Node.definedTypes Node.members
  rw [programs_program hp, programs_program (h.isKind_eq _ ▸ hp)]
  have hall : [p].mapM (ownMembers .definedTypes .definedType) = [p'].mapM (ownMembers .definedTypes .definedType) :=
    mapM_eq_of_forall₂ (.cons hown .nil) fun _ _ _ _ heq => heq
  exact congrArg (fun x : Except Fault (List (List Node)) => do return (← x).flatten) hall

end Node

namespace LinkTable

open Node (Reordered)

/-- a reordered node is filed under the same key -/
theorem entryOf_carries {n n' : Node} (h : n.Reordered n') (name : Value) :
    Carries (fun e e' => e.1 = e'.1) (entryOf name n) (entryOf name n') := by
  have hname := h.get_eq (a := .name) (by decide)
  cases h.level with
  | same => exact fun e he => ⟨e, he, rfl⟩
  | known k hfields =>
    unfold entryOf
    dsimp only
    rw [hname]
    exact .after _ fun v _ => .ok rfl

theorem entriesOf_carries {p p' : Node} (h : p.Reordered p') :
    Carries (Rearranged fun e e' => e.1 = e'.1) (entriesOf p) (entriesOf p') := by
  unfold entriesOf
  rw [h.get_eq (a := .name) (by decide)]
  refine .after _ fun name _ => (h.members _ _).bind fun pdas pdas' _ hpdas => ?_
  refine (h.members _ _).bind fun accounts accounts' _ haccounts => ?_
  refine (h.members _ _).bind fun types types' _ htypes => h.instructions.bind fun is is' _ his => ?_
  have hall := (((hpdas.append haccounts).append htypes).append his).cons h
  exact hall.mapM fun m m' hm => entryOf_carries hm name

/-- the recording of a reordered tree goes through, too -/
theorem recorded_reordered {n n' : Node} (h : n.Reordered n') {links : LinkTable} (hlinks : recorded n = .ok links) :
    ∃ links', recorded n' = .ok links' := by
  obtain ⟨ps, ess, hps, hess, rfl⟩ := recorded_eq_ok.1 hlinks
  obtain ⟨ps', hps', hrel⟩ := h.programs ps hps
  obtain ⟨ess', hess', -⟩ := hrel.mapM (fun p p' hp => entriesOf_carries hp) ess hess
  exact ⟨_, recorded_eq_ok.2 ⟨ps', ess', hps', hess', rfl⟩⟩

end LinkTable

namespace Hooks

open Node (Reordered)
open LinkTable (firstDeclared recorded fileAll)

/-! ## Recorded nodes -/

/-- the programs that are recorded of a tree are visited -/
theorem visited_programs {n : Node} {ps : List Node} (h : n.programs = .ok ps) : ∀ p ∈ ps, Visited n p := by
  cases hroot : n.isKind .root with
  | true => exact visited_of_programs hroot h
  | false =>
    unfold Node.programs at h
    split at h
    · next hk => exact absurd (beq_iff_eq.2 hk) (by simp [Node.isKind, hk] at hroot)
    · cases h
      exact List.forall_mem_singleton.2 .refl
    · cases h
      exact fun p hp => absurd hp List.not_mem_nil

/-- the addresses of a program are visited in it -/
theorem inside_of_pdas {p : Node} (hp : p.isKind .program = true) {ms pdas : List Node} (hms : inner p = .ok ms)
    (hpdas : p.pdas = .ok pdas) : ∀ m ∈ pdas, Inside p m := by
  obtain ⟨all, accounts, leaves, hall, -, -, rfl⟩ := inner_program hp hms
  intro m hm
  refine ⟨_, hms, List.mem_append_left _ (List.mem_append_left _ ?_)⟩
  exact collected_of_ownMembers ((Node.members_program hp).1 hpdas) hall hm

section

variable {n n' : Node} {os : List (Text × Node)} {ps ps' : List Node}

/-- the recorded programs with a name are one program -/
theorem DistinctOutputs.program_eq (h : DistinctOutputs n) (hos : outputs n = .ok os) (hps : n.programs = .ok ps)
    {name : NameKey} : ∀ p ∈ ps, ∀ q ∈ ps, p.isNamed name = true → q.isNamed name = true → p = q := by
  intro p hp q hq hpn hqn
  have hkind := Node.isKind_of_programs hps
  exact h.eq hos (visited_programs hps p hp) (visited_programs hps q hq) (by decide) (hkind p hp) (hkind q hq)
    (Node.sameName_of_isNamed hpn hqn)

/-- the recorded addresses with a name are one address -/
theorem DistinctOutputs.pda_eq (h : DistinctOutputs n) (hos : outputs n = .ok os) (hps : n.programs = .ok ps)
    {qs : List Node} (hqs : qs ⊆ ps) {mss : List (List Node)} (hmss : qs.mapM Node.pdas = .ok mss) {name : NameKey} :
    ∀ a ∈ mss.flatten, ∀ b ∈ mss.flatten, a.isNamed name = true → b.isNamed name = true → a = b := by
  have hvisited : ∀ m ∈ mss.flatten, Visited n m ∧ m.isKind .pda = true := fun m hm => by
    obtain ⟨ms, hms, hm⟩ := List.mem_flatten.1 hm
    obtain ⟨p, hp, hpdas⟩ := exists_of_forall₂ (mapM_eq_ok.1 hmss) hms
    have hpn := visited_programs hps p (hqs hp)
    obtain ⟨inside, hinside⟩ := ((gather_visited hos).1 p hpn).1
    refine ⟨hpn.tail ?_, Node.isKind_of_members hpdas m hm⟩
    exact inside_of_pdas (Node.isKind_of_programs hps p (hqs hp)) hinside hpdas m hm
  intro a ha b hb han hbn
  exact h.eq hos (hvisited a ha).1 (hvisited b hb).1 (by decide) (hvisited a ha).2 (hvisited b hb).2
    (Node.sameName_of_isNamed han hbn)

/-! ## Searches -/

theorem firstDeclared_ok {list : Node → Except Fault (List Node)} {program name : NameKey} {found : Option Node}
    (h : firstDeclared list ps program name = .ok found) :
    ∃ mss, (ps.filter (·.isNamed program)).mapM list = .ok mss ∧ found = mss.flatten.find? (·.isNamed name) := by
  obtain ⟨mss, hmss, h⟩ := except_bind_ok.1 h
  cases h
  exact ⟨mss, hmss, rfl⟩

theorem named_rearranged (h : Rearranged Reordered ps ps') (program : NameKey) :
    Rearranged Reordered (ps.filter (·.isNamed program)) (ps'.filter (·.isNamed program)) :=
  h.filter fun _ _ hp => hp.isNamed_eq program

/-- a search for an address finds the same one, reordered -/
theorem firstDeclared_pdas (hdistinct : DistinctOutputs n) (hos : outputs n = .ok os) (hps : n.programs = .ok ps)
    (h : Rearranged Reordered ps ps') (program name : NameKey) :
    Carries (Option.Rel Reordered) (firstDeclared Node.pdas ps program name)
      (firstDeclared Node.pdas ps' program name) := by
  refine ((named_rearranged h program).mapM fun p p' hp => hp.members _ _).bind fun mss mss' hmss hrel => .ok ?_
  refine hrel.flatten.find? (fun _ _ hm => hm.isNamed_eq name) ?_
  exact hdistinct.pda_eq hos hps (fun _ => List.mem_of_mem_filter) hmss

/-- a search for a defined type goes over the same types in the same order -/
theorem firstDeclared_types (hdistinct : DistinctOutputs n) (hos : outputs n = .ok os) (hps : n.programs = .ok ps)
    (h : Rearranged Reordered ps ps') (program name : NameKey) :
    Carries Eq (firstDeclared Node.definedTypes ps program name)
      (firstDeclared Node.definedTypes ps' program name) := by
  intro found hfound
  obtain ⟨mss, hmss, rfl⟩ := firstDeclared_ok hfound
  have hkind : ∀ p ∈ ps.filter (·.isNamed program), p.isKind .program = true := fun p hp =>
    Node.isKind_of_programs hps p (List.mem_of_mem_filter hp)
  -- whichever of the programs with the name lists its types, it is the same program
  have hone : ∀ ms ∈ mss, ∀ ms' ∈ mss, ms = ms' := fun ms hms ms' hms' => by
    obtain ⟨p, hp, hpm⟩ := exists_of_forall₂ (mapM_eq_ok.1 hmss) hms
    obtain ⟨q, hq, hqm⟩ := exists_of_forall₂ (mapM_eq_ok.1 hmss) hms'
    rw [List.mem_filter] at hp hq
    rw [hdistinct.program_eq hos hps p hp.1 q hq.1 hp.2 hq.2] at hpm
    exact Except.ok.inj (hpm.symm.trans hqm)
  obtain ⟨qs, hperm, hrel⟩ := named_rearranged h program
  obtain ⟨nss, hnss, hsame⟩ := List.perm_comp_forall₂ hperm.symm (mapM_eq_ok.1 hmss)
  have heq : nss = mss := hsame.eq_of_pairwise (fun ms ms' hms hms' _ _ => hone ms (hsame.mem_iff.1 hms) ms' hms')
    (List.pairwise_of_forall fun _ _ => trivial) (List.pairwise_of_forall fun _ _ => trivial)
  subst heq
  have htypes : qs.mapM Node.definedTypes = (ps'.filter (·.isNamed program)).mapM Node.definedTypes :=
    mapM_eq_of_forall₂ hrel fun p hp p' _ hpp => hpp.definedTypes (hkind p (hperm.mem_iff.2 hp))
  refine ⟨_, except_bind_ok.2 ⟨nss, htypes ▸ mapM_eq_ok.2 hnss, rfl⟩, rfl⟩

/-! ## Links -/

theorem SameSeeds.of_reordered {pda pda' : Node} (h : pda.Reordered pda') : SameSeeds pda pda' :=
  ⟨h.get_eq (by decide), h.get_eq (by decide)⟩

theorem sameSeeds_of_rel {found found' : Option Node} (h : Option.Rel Reordered found found') :
    Option.Rel SameSeeds found found' := by
  cases h with
  | none => exact .none
  | some hn => exact .some (.of_reordered hn)

/-- **Links of reordered trees lead to the same addresses,** if the outputs are distinct. -/
theorem resolve_reordered (h : n.Reordered n') (hdistinct : DistinctOutputs n) (hos : outputs n = .ok os)
    {links links' : LinkTable} (hlinks : recorded n = .ok links) (hlinks' : recorded n' = .ok links')
    {path path' : List Node} (hpath : List.Forall₂ Reordered path path') (link : Node) :
    Agree (Option.Rel SameSeeds) (links.resolve path link) (links'.resolve path' link) := by
  obtain ⟨ps, ess, hps, hess, rfl⟩ := LinkTable.recorded_eq_ok.1 hlinks
  obtain ⟨ps', ess', hps', hess', rfl⟩ := LinkTable.recorded_eq_ok.1 hlinks'
  obtain ⟨qs, hqs, hrel⟩ := h.programs ps hps
  cases hqs.symm.trans hps'
  have hkind := Node.isKind_of_programs hps
  have hkind' := Node.isKind_of_programs hps'
  -- what is filed under the key of a declared node is what a search finds
  have hfiled : ∀ {k list}, LinkTable.linked? k = some list → ∀ {program name S},
      Carries (Option.Rel S) (firstDeclared list ps program name) (firstDeclared list ps' program name) →
      Option.Rel S ((fileAll ess.flatten .empty).get? ⟨program, k, name⟩)
        ((fileAll ess'.flatten .empty).get? ⟨program, k, name⟩) := by
    intro k list hk program name S hcarries
    obtain ⟨found, hfound, hrel⟩ := hcarries _ (LinkTable.lookupIn_programs hkind hess hk program name)
    rw [LinkTable.lookupIn_programs hkind' hess' hk] at hfound
    cases hfound
    rw [LinkTable.get?_fileAll_empty, LinkTable.get?_fileAll_empty]
    exact hrel
  refine LinkTable.resolve_congr (fun name => ?_) (fun k hk program name => ?_) ?_
  · rw [LinkTable.get?_fileAll_empty, LinkTable.get?_fileAll_empty, LinkTable.lookupIn_program hkind hess,
      LinkTable.lookupIn_program hkind' hess']
    refine sameSeeds_of_rel (hrel.find? (fun _ _ hp => hp.isNamed_eq name) ?_)
    exact hdistinct.program_eq hos hps
  · simp only [List.mem_cons, List.not_mem_nil, or_false] at hk
    rcases hk with rfl | rfl
    · exact sameSeeds_of_rel (hfiled rfl (firstDeclared_pdas hdistinct hos hps hrel program name))
    · refine hfiled rfl ((firstDeclared_types hdistinct hos hps hrel program name).imp fun found found' heq => ?_)
      subst heq
      cases found with
      | none => exact .none
      | some type => exact .some ⟨rfl, rfl⟩
  · exact LinkTable.programName_congr (fun _ _ hn => hn.kind_eq) (fun _ _ hp _ => hp.get_eq (by decide)) hpath link

end

end Hooks

end InterfacePages

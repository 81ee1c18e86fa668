/-
The size of a link to a type of another program.

A link that names its program finds its type in that program (`resolve_linkTo`), but the links inside the type are
still looked up on the path of the first one. So what the link comes to is the size of the type on its own path, not on
that of the program the type is declared in; the two are the same fixed size exactly where no path is needed to find it
(`linked_size`).
-/
import InterfacePages.Node.Decode
import InterfacePages.Proofs.SizeVisits

namespace InterfacePages

namespace ByteSize

/-- a table recorded from a tree whose programs have distinct names and whose defined types have too -/
structure Recorded (root : Node) (links : LinkTable) (ps ts : List Node) : Prop where
  recorded : (LinkTable.recordTree root).perform .empty = (.ok (), links)
  programs : root.programs = .ok ps
  types : root.definedTypes = .ok ts
  programNames : Node.DistinctNames ps
  typeNames : Node.DistinctNames ts

/-- a type is declared by a program of some programs -/
structure Declares (ps : List Node) (p t : Node) : Prop where
  program : p ∈ ps
  type : ∃ types, p.definedTypes = .ok types ∧ t ∈ types

/-- a link to a defined type that names the type and its program -/
structure LinkTo (l p t : Node) : Prop where
  link : l.isKind .definedTypeLink = true
  name : l.SameName t
  program : ∃ q, l.get .program = .ok (.node q) ∧ q.SameName p

variable {root : Node} {links : LinkTable} {ps ts : List Node}

namespace Recorded

/-- what is found under the names of a program and a type is declared by a program of that name -/
theorem declares (hr : Recorded root links ps ts) {program name : NameKey} {t : Node}
    (ht : links.get? ⟨program, .definedType, name⟩ = some t) :
    ∃ p pv nv, Declares ps p t ∧ p.get .name = .ok pv ∧ pv.nameKey = program ∧ t.get .name = .ok nv ∧
      nv.nameKey = name := by
  obtain ⟨p, hp, pv, nv, types, hpv, hpk, hnv, hnk, htypes, hm⟩ :=
    LinkTable.type_of_get? hr.recorded hr.programs ht
  exact ⟨p, pv, nv, ⟨hp, types, htypes, hm⟩, hpv, hpk, hnv, hnk⟩

theorem eq_of_sameName (hr : Recorded root links ps ts) {p q t u : Node} (hp : Declares ps p t) (hq : Declares ps q u)
    (h : t.SameName u) : p = q ∧ t = u := by
  obtain ⟨types, htypes, ht⟩ := hp.type
  obtain ⟨types', htypes', hu⟩ := hq.type
  exact hr.typeNames.type_eq hr.programs hr.types hp.program hq.program htypes htypes' ht hu h

/-- under the names of a type and its program stands the type -/
theorem get?_eq (hr : Recorded root links ps ts) {p t : Node} (h : Declares ps p t) {pv nv : Value}
    (hpv : p.get .name = .ok pv) (hnv : t.get .name = .ok nv) :
    links.get? ⟨pv.nameKey, .definedType, nv.nameKey⟩ = some t := by
  obtain ⟨types, htypes, ht⟩ := h.type
  obtain ⟨found, hf⟩ := LinkTable.get?_of_type hr.recorded hr.programs h.program hpv hnv htypes ht
  obtain ⟨q, qv, mv, hq, -, -, hmv, hmk⟩ := hr.declares hf
  rw [hf, (hr.eq_of_sameName hq h (.of_get hmv hmk hnv rfl)).2]

/-- links of the name of a type find that type, whatever program they are looked up in -/
theorem resolve_name (hr : Recorded root links ps ts) {p t : Node} (h : Declares ps p t) {l u : Node} {path : List Node}
    (hl : l.isKind .definedTypeLink = true) (hs : l.SameName t) (hu : links.resolve path l = .ok (some u)) : u = t := by
  obtain ⟨program, name, _, hn, hf⟩ := (LinkTable.resolve_some hl).1 hu
  obtain ⟨q, qv, nv, hq, -, -, hnv, hnk⟩ := hr.declares hf
  have ⟨_, tv, _, htv, _⟩ := hs
  exact (hr.eq_of_sameName hq h (.of_get hnv hnk htv (hs.nameKey_eq hn htv).symm)).2

/-- a link to a type finds it on every path -/
theorem resolve_linkTo (hr : Recorded root links ps ts) {p t l : Node} (h : Declares ps p t) (hl : LinkTo l p t)
    (path : List Node) : links.resolve path l = .ok (some t) := by
  obtain ⟨lv, tv, hlv, htv, hname⟩ := hl.name
  obtain ⟨q, hq, qv, pv, hqv, hpv, hprogram⟩ := hl.program
  refine (LinkTable.resolve_some hl.link).2 ⟨qv, lv, ?_, hlv, ?_⟩
  · unfold LinkTable.programName
    rw [hq]
    change (do return some (← q.get .name)) = _
    rw [hqv]
    rfl
  · rw [hprogram, hname]
    exact hr.get?_eq h hpv htv

/-- a link that finds something on the paths of two programs finds the same without a path -/
theorem resolve_both (hr : Recorded root links ps ts) {p q : Node} (hp : p ∈ ps) (hq : q ∈ ps) (hne : p ≠ q)
    {l t u : Node} (hl : l.isKind .definedTypeLink = true) (ht : links.resolve [root, p] l = .ok (some t))
    (hu : links.resolve [root, q] l = .ok (some u)) : links.resolve [] l = .ok (some t) ∧ t = u := by
  obtain ⟨program, name, hprogram, hn, hf⟩ := (LinkTable.resolve_some hl).1 ht
  obtain ⟨program', name', hprogram', hn', hf'⟩ := (LinkTable.resolve_some hl).1 hu
  rw [hn] at hn'
  cases hn'
  obtain ⟨given, hg, _⟩ := except_bind_ok.1 hprogram
  cases ha : given.isAbsent
  · rw [LinkTable.programName_explicit [] hg ha] at hprogram hprogram'
    rw [hprogram] at hprogram'
    cases hprogram'
    rw [hf] at hf'
    cases hf'
    exact ⟨(LinkTable.resolve_some hl).2 ⟨program, name, hprogram, hn, hf⟩, rfl⟩
  · -- without a program of its own the link finds types of two programs under one name
    exfalso
    have hpn := LinkTable.programName_last (Node.isKind_of_programs hr.programs p hp) hg ha hprogram
    have hqn := LinkTable.programName_last (Node.isKind_of_programs hr.programs q hq) hg ha hprogram'
    obtain ⟨p', pv, tv, hp', hpv, hpk, htv, htk⟩ := hr.declares hf
    obtain ⟨q', qv, uv, hq', hqv, hqk, huv, huk⟩ := hr.declares hf'
    have hpp := hr.programNames.eq hp hp'.program (.of_get hpn rfl hpv hpk)
    have hqq := hr.programNames.eq hq hq'.program (.of_get hqn rfl hqv hqk)
    have hpq := (hr.eq_of_sameName hp' hq' (.of_get htv htk huv huk)).1
    exact hne (hpp.trans (hpq.trans hqq.symm))

/-- links of the name of a link to a type lead to that type -/
theorem leadAlike (hr : Recorded root links ps ts) {p t l : Node} (h : Declares ps p t) (hl : LinkTo l p t)
    (path : List Node) : LeadAlike links path l t := by
  intro m u hm hs hu
  obtain ⟨mv, lv, hmv, hlv, hml⟩ := hs
  obtain ⟨lv', tv, hlv', htv, hlt⟩ := hl.name
  rw [hlv] at hlv'
  cases hlv'
  exact hr.resolve_name h hm (.of_get hmv (hml.trans hlt) htv rfl) hu

/-- a link to a type has the size of that type on its own path -/
theorem size_of_type (hr : Recorded root links ps ts) {p t type l : Node} (h : Declares ps p t)
    (htype : t.child .type = .ok type) (hl : LinkTo l p t) {path : List Node} {v : Value}
    (hv : type.byteSize links path = .ok v) : l.byteSize links path = .ok v :=
  (hr.leadAlike h hl path).size_of_type hl.link (hr.resolve_linkTo h hl path) htype hv

/-- a link to a type that has a fixed size has it from that type -/
theorem type_of_size (hr : Recorded root links ps ts) {p t type l : Node} (h : Declares ps p t)
    (htype : t.child .type = .ok type) (hl : LinkTo l p t) {path : List Node} {v : Value}
    (hv : l.byteSize links path = .ok v) (hne : v ≠ .absent) : type.byteSize links path = .ok v := by
  obtain ⟨name, -, hsize⟩ := byteSize_target hl.link (hr.resolve_linkTo h hl path) htype
  rw [hsize] at hv
  exact sizeWithin_fixed (List.nil_subset _) hv hne

/-- two programs find the same fixed size of a type only if it is found without a path -/
theorem size_pathless (hr : Recorded root links ps ts) {p q : Node} (hp : p ∈ ps) (hq : q ∈ ps) (hne : p ≠ q)
    {type : Node} {v : Value} (hv : v ≠ .absent) (hvp : type.byteSize links [root, p] = .ok v)
    (hvq : type.byteSize links [root, q] = .ok v) : type.byteSize links [] = .ok v := by
  obtain ⟨fuel, hvp⟩ := byteSize_ok.1 hvp
  obtain ⟨fuel', hvq⟩ := byteSize_ok.1 hvq
  have hboth := measure_agree (fun l t t' hl ht ht' => hr.resolve_both hp hq hne hl ht ht')
    (measure_le (Nat.le_max_left fuel fuel') hvp) hv (measure_le (Nat.le_max_right fuel fuel') hvq) hv
  exact byteSize_ok.2 ⟨_, hboth.1⟩

end Recorded

/-- **Sizes of links between programs.** A link that names a type of the program `q`, on the path of the program `p`,
has the size that the type has on the path of `p`. Where the type has a fixed size on the path of `q`, the link has the
same one exactly if `p` is `q` or the size is found without a path, so without links that name no program; where it
varies for `q`, the link varies too exactly if the type varies for `p`. -/
theorem linked_size (hr : Recorded root links ps ts) {p q t type l : Node} (hp : p ∈ ps) (hq : Declares ps q t)
    (htype : t.child .type = .ok type) (hl : LinkTo l q t) :
    (∀ a, type.byteSize links [root, p] = .ok a → l.byteSize links [root, p] = .ok a) ∧
      (∀ b, b ≠ .absent → type.byteSize links [root, q] = .ok b →
        (l.byteSize links [root, p] = .ok b ↔ p = q ∨ type.byteSize links [] = .ok b)) ∧
      ∀ a, type.byteSize links [root, q] = .ok .absent → type.byteSize links [root, p] = .ok a →
        (l.byteSize links [root, p] = .ok .absent ↔ a = .absent) := by
  have hsize : ∀ a, type.byteSize links [root, p] = .ok a → l.byteSize links [root, p] = .ok a := by
    intro a ha
    exact hr.size_of_type hq htype hl ha
  have hfixed : ∀ b, b ≠ .absent → type.byteSize links [root, q] = .ok b →
      (l.byteSize links [root, p] = .ok b ↔ p = q ∨ type.byteSize links [] = .ok b) := by
    intro b hne hb
    constructor
    · intro h
      by_cases hpq : p = q
      · exact .inl hpq
      · have htp := hr.type_of_size hq htype hl h hne
        exact .inr (hr.size_pathless hp hq.program hpq hne htp hb)
    · rintro (rfl | h)
      · exact hsize b hb
      · obtain ⟨fuel, h⟩ := byteSize_ok.1 h
        exact hsize b (byteSize_ok.2 ⟨fuel, measure_pathless h hne _⟩)
  have hvaries : ∀ a, type.byteSize links [root, q] = .ok .absent → type.byteSize links [root, p] = .ok a →
      (l.byteSize links [root, p] = .ok .absent ↔ a = .absent) := by
    intro a _ ha
    rw [hsize a ha]
    exact ⟨fun h => Except.ok.inj h, congrArg Except.ok⟩
  exact ⟨hsize, hfixed, hvaries⟩

/-! ## A tree where they differ -/

def programNamed (name : Text) (types : List Node) : Node :=
  .known .program (Node.fillSlots Kind.program.slots [
    (.name, .text name), (.definedTypes, .tuple (types.map Value.node))])

def typeNamed (name : Text) (type : Node) : Node :=
  .known .definedType (Node.fillSlots Kind.definedType.slots [(.name, .text name), (.type, .node type)])

/-- a link to a defined type, in a program or where it stands -/
def linkNamed (name : Text) (program : Value) : Node :=
  .known .definedTypeLink [(.name, .text name), (.program, program)]

def inner : Node := typeNamed "inner" (.known .numberType [(.format, .text "u8"), (.endian, .text "le")])

/-- a type that is the same as `inner`, which it expects in its own program -/
def outer : Node := typeNamed "outer" (linkNamed "inner" .absent)

/-- the program that declares both types -/
def owner : Node := programNamed "owner" [outer, inner]

/-- a program without types -/
def user : Node := programNamed "user" []

def sharedTree : Node :=
  .known .root (Node.fillSlots Kind.root.slots [(.program, .node user), (.additionalPrograms, .tuple [.node owner])])

def sharedLinks : LinkTable := ((LinkTable.recordTree sharedTree).perform .empty).2

/-- the link to `outer` that names its program -/
def outerLink : Node := linkNamed "outer" (.node (.known .programLink [(.name, .text "owner")]))

theorem not_sameName {m n : Node} {s t : Text} (hm : m.get .name = .ok (.text s)) (hn : n.get .name = .ok (.text t))
    (h : s ≠ t) : ¬ m.SameName n := fun hs => h (NameKey.text.inj (hs.nameKey_eq hm hn))

theorem sharedTree_recorded : Recorded sharedTree sharedLinks [user, owner] [outer, inner] where
  recorded := rfl
  programs := rfl
  types := rfl
  programNames := List.pairwise_pair.2 (not_sameName (s := "user") (t := "owner") rfl rfl (by decide))
  typeNames := List.pairwise_pair.2 (not_sameName (s := "outer") (t := "inner") rfl rfl (by decide))

theorem owner_declares_outer : Declares [user, owner] owner outer where
  program := List.mem_cons_of_mem _ (List.mem_singleton_self _)
  type := ⟨[outer, inner], rfl, List.mem_cons_self⟩

theorem outerLink_to_outer : LinkTo outerLink owner outer where
  link := rfl
  name := ⟨.text "outer", .text "outer", rfl, rfl, rfl⟩
  program := ⟨_, rfl, .text "owner", .text "owner", rfl, rfl, rfl⟩

theorem outer_sizes :
    outerLink.byteSize sharedLinks [sharedTree, user] = .ok .absent ∧
      outerLink.byteSize sharedLinks [sharedTree, owner] = .ok (.int 1) := by
  have howner : owner ∈ [user, owner] := owner_declares_outer.program
  have hother := linked_size sharedTree_recorded List.mem_cons_self owner_declares_outer rfl outerLink_to_outer
  have hown := linked_size sharedTree_recorded howner owner_declares_outer rfl outerLink_to_outer
  constructor
  · exact hother.1 .absent rfl
  · exact (hown.2.1 (.int 1) (fun h => nomatch h) rfl).2 (.inl rfl)

/-- the size of a link depends on where it is looked at from -/
theorem size_depends_on_path :
    ¬ ∀ (root : Node) (links : LinkTable) (ps ts : List Node), Recorded root links ps ts → ∀ p ∈ ps,
      ∀ q t type l, Declares ps q t → t.child .type = .ok type → LinkTo l q t →
        l.byteSize links [root, p] = type.byteSize links [root, q] := by
  intro h
  have heq := h sharedTree sharedLinks _ _ sharedTree_recorded user List.mem_cons_self owner outer _ outerLink
    owner_declares_outer rfl outerLink_to_outer
  have hlink : outerLink.byteSize sharedLinks [sharedTree, user] = .ok .absent := rfl
  have htype : (linkNamed "inner" .absent).byteSize sharedLinks [sharedTree, owner] = .ok (.int 1) := rfl
  exact absurd (hlink.symm.trans (heq.trans htype)) (fun h => nomatch h)

end ByteSize

end InterfacePages

/-
Links in a tree of one program, unfolded.

In the program there is one type of a name to find, so all links of a name lead to it or nowhere (`leadAlike_of_single`).
A link then has the size of its type, though the type is measured with one name more being resolved (`unfolded_size`):
a link of the name that the visits of the type come to is taken for a return in one case and followed in the other, and
what it leads to varies then too, since a type that leads back to itself has no fixed size.

The two differ where a link of the name cannot be looked up at all, its program being no program: a link that is taken
for a return is not looked up, one that is followed fails (`unreadable_link_fails`).
-/
import InterfacePages.Proofs.LinkedSizes
import InterfacePages.Proofs.TreeListings
import InterfacePages.Proofs.WellTypedSizes

namespace InterfacePages

namespace ByteSize

variable {root p l t type : Node} {links : LinkTable} {path : List Node}

/-- what a link leads to after a recording has the name of the link -/
theorem sameName_of_resolve (hrec : (LinkTable.recordTree root).perform .empty = (.ok (), links)) {ps : List Node}
    (hps : root.programs = .ok ps) (hl : l.isKind .definedTypeLink = true)
    (hf : links.resolve path l = .ok (some t)) : l.SameName t := by
  obtain ⟨_, name, -, hn, hget⟩ := (LinkTable.resolve_some hl).1 hf
  obtain ⟨_, -, _, tv, _, -, -, htv, htk, -, -⟩ := LinkTable.type_of_get? hrec hps hget
  exact .of_get hn rfl htv htk

/-- in a tree of one program, links of a name lead to one type or nowhere -/
theorem leadAlike_of_single (hrec : (LinkTable.recordTree root).perform .empty = (.ok (), links))
    (hps : root.programs = .ok [p]) (hl : l.isKind .definedTypeLink = true)
    (hf : links.resolve path l = .ok (some t)) : LeadAlike links path l t := by
  intro m u hm hs hu
  obtain ⟨program, name, -, hn, hget⟩ := (LinkTable.resolve_some hl).1 hf
  obtain ⟨program', name', -, hn', hget'⟩ := (LinkTable.resolve_some hm).1 hu
  obtain ⟨q, hq, qv, _, _, hqv, hqk, -⟩ := LinkTable.type_of_get? hrec hps hget
  obtain ⟨q', hq', qv', _, _, hqv', hqk', -⟩ := LinkTable.type_of_get? hrec hps hget'
  obtain rfl := List.mem_singleton.1 hq
  obtain rfl := List.mem_singleton.1 hq'
  rw [hqv] at hqv'
  cases hqv'
  rw [← hqk', hs.nameKey_eq hn' hn, hqk, hget] at hget'
  exact (Option.some.inj hget').symm

/-- the types of a well-typed tree of one program are well typed, and the program has a name -/
theorem typed_of_single (hrec : (LinkTable.recordTree root).perform .empty = (.ok (), links))
    (hps : root.programs = .ok [p]) (htyped : root.WellTyped) (hl : l.isKind .definedTypeLink = true)
    (hf : links.resolve [root, p] l = .ok (some t)) : Typed links [root, p] where
  type program name u hu := by
    obtain ⟨q, hq, _, _, types, -, -, -, -, htypes, hm⟩ := LinkTable.type_of_get? hrec hps hu
    have hkind := Node.isKind_of_programs hps q hq
    refine ⟨beq_iff_eq.1 (Node.isKind_of_members htypes u hm), htyped.occurs ?_⟩
    exact (Node.occurs_program hps hq).tail (Node.contains_member hkind htypes hm)
  program q hq := by
    have hlast : LinkTable.programOf? [root, p] = some p :=
      List.find?_cons_of_pos (Node.isKind_of_programs hps p (List.mem_singleton_self p))
    rw [hlast] at hq
    cases hq
    obtain ⟨_, _, -, -, hget⟩ := (LinkTable.resolve_some hl).1 hf
    obtain ⟨q, hq, qv, _, _, hqv, -⟩ := LinkTable.type_of_get? hrec hps hget
    obtain rfl := List.mem_singleton.1 hq
    exact ⟨qv, hqv⟩

/-- the visits of a type come to a link to the node that the type is of -/
def Recurs (links : LinkTable) (path : List Node) (t type : Node) : Prop :=
  ∃ b, Comes links path ⟨[], type⟩ b ∧ b.node.isKind .definedTypeLink = true ∧
    links.resolve path b.node = .ok (some t)

/-- **The size of a link, unfolded.** In a tree of one program, a link has the size that its type has on its own; and
the type has the size that the link has, unless its visits come to a link of the name that cannot be looked up. A type
that leads back to itself has no other size than that it varies. In a well-typed tree both have a size. -/
theorem unfolded_size (hrec : (LinkTable.recordTree root).perform .empty = (.ok (), links))
    (hps : root.programs = .ok [p]) (hl : l.isKind .definedTypeLink = true)
    (hf : links.resolve [root, p] l = .ok (some t)) (htype : t.child .type = .ok type) :
    (∀ v, type.byteSize links [root, p] = .ok v → l.byteSize links [root, p] = .ok v) ∧
      (∀ v, l.byteSize links [root, p] = .ok v → type.byteSize links [root, p] = .ok v ∨
        ∃ b e, Comes links [root, p] ⟨[], type⟩ b ∧ b.node.isKind .definedTypeLink = true ∧ b.node.SameName l ∧
          links.resolve [root, p] b.node = .error e) ∧
      (Recurs links [root, p] t type → ∀ v,
        l.byteSize links [root, p] = .ok v ∨ type.byteSize links [root, p] = .ok v → v = .absent) ∧
      (root.WellTyped → ∃ v, v.IsSize ∧
        l.byteSize links [root, p] = .ok v ∧ type.byteSize links [root, p] = .ok v) := by
  have halike := leadAlike_of_single hrec hps hl hf
  have hsize : ∀ v, type.byteSize links [root, p] = .ok v → l.byteSize links [root, p] = .ok v :=
    fun _ hv => halike.size_of_type hl hf htype hv
  refine ⟨hsize, fun _ hv => halike.type_of_size hl hf htype hv, ?_, ?_⟩
  · rintro ⟨b, hb, hlb, hback⟩ v hv
    obtain ⟨lv, hlv, hwithin⟩ := byteSize_target hl hf htype
    -- whichever of the two is known, the size of the link is the one with the name being resolved
    have hlink : sizeWithin links [root, p] [lv.nameKey] type = .ok v := by
      rw [← hwithin]
      exact hv.elim id (hsize v)
    obtain ⟨bv, tv, hbv, htv, hbt⟩ := sameName_of_resolve hrec hps hlb hback
    have hlt := (sameName_of_resolve hrec hps hl hf).nameKey_eq hlv htv
    exact varies_of_comes hb (List.nil_subset _) hlink hlb hbv (List.mem_singleton.2 (hbt.trans hlt.symm))
  · intro hroot
    have htyped := typed_of_single hrec hps hroot hl hf
    obtain ⟨_, _, -, -, hget⟩ := (LinkTable.resolve_some hl).1 hf
    obtain ⟨hkind, hwell⟩ := htyped.type _ _ t hget
    obtain ⟨v, hv, hvsize⟩ : ∃ v, type.byteSize links [root, p] = .ok v ∧ v.IsSize :=
      sizeWithin_isSize htyped (hwell.contains (.child htype))
    exact ⟨v, hvsize, hsize v hv, hv⟩

/-! ## Types that hold each other -/

def treeOf (program : Node) : Node :=
  .known .root (Node.fillSlots Kind.root.slots [(.program, .node program)])

/-- an octet and a link to `hen` -/
def egg : Node := .known .tupleType [(.items, .tuple [Kind.octet, .node (linkNamed "hen" .absent)])]

/-- a link to `egg`, or zeros -/
def hen : Node :=
  .known .zeroableOptionType (Node.fillSlots Kind.zeroableOptionType.slots [(.item, .node (linkNamed "egg" .absent))])

def farm : Node := programNamed "farm" [typeNamed "egg" egg, typeNamed "hen" hen]

def farmLinks : LinkTable := ((LinkTable.recordTree (treeOf farm)).perform .empty).2

theorem egg_recurs : Recurs farmLinks [treeOf farm, farm] (typeNamed "egg" egg) egg := by
  have hpart : Calls farmLinks [treeOf farm, farm] ⟨[], egg⟩ ⟨[], linkNamed "hen" .absent⟩ :=
    .part rfl (.later (v := .int 1) rfl (.now _ _))
  have honward : Onward farmLinks [treeOf farm, farm] [] (linkNamed "hen" .absent)
      (some ((Value.text "hen").nameKey, hen)) := .follow rfl List.not_mem_nil rfl rfl
  have hback : Calls farmLinks [treeOf farm, farm] ⟨[.text "hen"], hen⟩ ⟨[.text "hen"], linkNamed "egg" .absent⟩ :=
    .part rfl (.now _ _)
  exact ⟨_, .head hpart (.head (.follow rfl honward) (.head hback (.refl _))), rfl, rfl⟩

theorem egg_varies :
    (linkNamed "egg" .absent).byteSize farmLinks [treeOf farm, farm] = .ok .absent ∧
      egg.byteSize farmLinks [treeOf farm, farm] = .ok .absent := by
  have hrec : (LinkTable.recordTree (treeOf farm)).perform .empty = (.ok (), farmLinks) := rfl
  have hprograms : (treeOf farm).programs = .ok [farm] := rfl
  have hsizes := unfolded_size (l := linkNamed "egg" .absent) (t := typeNamed "egg" egg) hrec hprograms rfl rfl rfl
  have htyped : (treeOf farm).WellTyped := by
    have hall : (treeOf farm).everywhere Node.wellTyped 10 = true := by decide +kernel
    exact Node.wellTyped_of_everywhere hall
  obtain ⟨v, -, hlink, htype⟩ := hsizes.2.2.2 htyped
  obtain rfl := hsizes.2.2.1 egg_recurs v (.inl hlink)
  exact ⟨hlink, htype⟩

/-- a link whose program is no program -/
def lostLink : Node := linkNamed "self" (.node (.unknown (.text "clusterNode") []))

def lost : Node := programNamed "lost" [typeNamed "self" lostLink]

def lostLinks : LinkTable := ((LinkTable.recordTree (treeOf lost)).perform .empty).2

/-- a link may vary where its type fails -/
theorem unreadable_link_fails :
    ¬ ∀ (root : Node) (links : LinkTable) (p l t type : Node),
      (LinkTable.recordTree root).perform .empty = (.ok (), links) → root.programs = .ok [p] →
      l.isKind .definedTypeLink = true → l.get .program = .ok .absent → links.resolve [root, p] l = .ok (some t) →
      t.child .type = .ok type → l.byteSize links [root, p] = type.byteSize links [root, p] := by
  intro h
  have heq := h (treeOf lost) lostLinks lost (linkNamed "self" .absent) (typeNamed "self" lostLink) lostLink
    rfl rfl rfl rfl rfl rfl
  have hlink : (linkNamed "self" .absent).byteSize lostLinks [treeOf lost, lost] = .ok .absent := rfl
  have htype : lostLink.byteSize lostLinks [treeOf lost, lost] = .error .missingAttribute := rfl
  exact absurd (hlink.symm.trans (heq.trans htype)) (fun h => nomatch h)

end ByteSize

end InterfacePages

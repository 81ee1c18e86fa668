/-
Types that share a name.

A link is looked up under the names of a program and a type (`LinkTable.keyOf`), but of the types being resolved only
the names are kept. Where no type leads back to itself (`Acyclic`), the visits of a type come to no link to that type
(`no_return`), so a link has the size of its type as long as they come to no link to a type of the same name
either. Where they come to one, that link is taken for a return and the first one varies (`clashing_size`).

`guard_stops_price`: a type `price` of one program that is the type `price` of another one has a size of one octet, and
a link to it varies.
-/
import InterfacePages.Proofs.LinkedSizes
import InterfacePages.Proofs.SizeVisits

namespace InterfacePages

namespace LinkTable

variable {table : LinkTable} {path : List Node} {l : Node}

/-- what a link to a defined type is looked up under, if a program is found -/
def keyOf (path : List Node) (l : Node) : Except Fault (Option LinkKey) := do
  match ← programName path l with
  | none => return none
  | some program => return some ⟨program.nameKey, .definedType, (← l.get .name).nameKey⟩

theorem keyOf_some {k : LinkKey} : keyOf path l = .ok (some k) ↔
    ∃ program name, programName path l = .ok (some program) ∧ l.get .name = .ok name ∧
      k = ⟨program.nameKey, .definedType, name.nameKey⟩ := by
  unfold keyOf
  rw [except_bind_ok]
  constructor
  · rintro ⟨found, hf, h⟩
    cases found with
    | none => cases h
    | some program =>
      obtain ⟨name, hn, h⟩ := except_bind_ok.1 h
      exact ⟨program, name, hf, hn, (Option.some.inj (Except.ok.inj h)).symm⟩
  · rintro ⟨program, name, hf, hn, rfl⟩
    exact ⟨some program, hf, except_bind_ok.2 ⟨name, hn, rfl⟩⟩

/-- a link finds what is filed under its key -/
theorem resolve_key (hl : l.isKind .definedTypeLink = true) {target : Node} :
    table.resolve path l = .ok (some target) ↔ ∃ k, keyOf path l = .ok (some k) ∧ table.get? k = some target := by
  rw [resolve_some hl]
  constructor
  · rintro ⟨program, name, hf, hn, hget⟩
    exact ⟨_, keyOf_some.2 ⟨program, name, hf, hn, rfl⟩, hget⟩
  · rintro ⟨k, hk, hget⟩
    obtain ⟨program, name, hf, hn, rfl⟩ := keyOf_some.1 hk
    exact ⟨program, name, hf, hn, hget⟩

/-- a link stands in what is filed under one key and is looked up under the other -/
def Leads (table : LinkTable) (path : List Node) (a b : LinkKey) : Prop :=
  ∃ t m, table.get? a = some t ∧ t.Occurs m ∧ m.isKind .definedTypeLink = true ∧ keyOf path m = .ok (some b)

/-- following links leads from nowhere back -/
def Acyclic (table : LinkTable) (path : List Node) : Prop := ∀ k, ¬ Relation.TransGen (Leads table path) k k

/-- links that all lead to one place, which leads nowhere, lead nowhere back -/
theorem acyclic_of_end {k : LinkKey} (hto : ∀ a b, Leads table path a b → b = k) (hend : ∀ b, ¬ Leads table path k b) :
    Acyclic table path := by
  intro a h
  obtain ⟨b, hfirst, -⟩ := Relation.TransGen.head'_iff.1 h
  obtain ⟨c, -, hlast⟩ := Relation.TransGen.tail'_iff.1 h
  exact hend b (hto c a hlast ▸ hfirst)

end LinkTable

namespace ByteSize

open LinkTable

variable {links : LinkTable} {path : List Node} {resolving : Resolving} {l t type : Node} {k : LinkKey} {b : Visit}

/-- what the visits of a type come to stands in the type or in one that it leads to -/
theorem Comes.stands (h : Comes links path ⟨resolving, type⟩ b) (ht : links.get? k = some t)
    (htype : t.child .type = .ok type) :
    ∃ k' t', links.get? k' = some t' ∧ t'.Occurs b.node ∧ Relation.ReflTransGen (Leads links path) k k' := by
  induction h with
  | refl => exact ⟨k, t, ht, .single (.child htype), .refl⟩
  | tail _ hcall ih =>
    obtain ⟨k', t', ht', hocc, hlead⟩ := ih
    cases hcall with
    | part hl hm => exact ⟨k', t', ht', hocc.tail ((Plan.sound_forNode _).of_asks hm), hlead⟩
    | follow hl h =>
      cases h with
      | follow hn hr hf hnext =>
        obtain ⟨k'', hkey, ht''⟩ := (resolve_key hl).1 hf
        exact ⟨k'', _, ht'', .single (.child hnext), hlead.tail ⟨t', _, ht', hocc, hl, hkey⟩⟩

/-- the visits of a type come to no link to the type itself where links lead nowhere back -/
theorem no_return (hacyclic : Acyclic links path) (h : Comes links path ⟨resolving, type⟩ b)
    (ht : links.get? k = some t) (htype : t.child .type = .ok type) (hl : b.node.isKind .definedTypeLink = true) :
    keyOf path b.node ≠ .ok (some k) := by
  intro hkey
  obtain ⟨k', t', ht', hocc, hlead⟩ := h.stands ht htype
  exact hacyclic k (.tail' hlead ⟨t', _, ht', hocc, hl, hkey⟩)

/-- the visits of a type come to a link of the name of another link that is not looked up where that one is -/
def Clashes (links : LinkTable) (path : List Node) (l type : Node) : Prop :=
  ∃ b, Comes links path ⟨[], type⟩ b ∧ b.node.isKind .definedTypeLink = true ∧ b.node.SameName l ∧
    keyOf path b.node ≠ keyOf path l

/-- **The size of a link where links lead nowhere back.** A link has the size that its type has on its own, or fails as
that does, unless the visits of the type come to a link to another type of the same name. If they do, the link varies
whatever size the type has. It varies too if the type does. -/
theorem clashing_size (hacyclic : Acyclic links path) (hl : l.isKind .definedTypeLink = true)
    (hf : links.resolve path l = .ok (some t)) (htype : t.child .type = .ok type) :
    (¬ Clashes links path l type → l.byteSize links path = type.byteSize links path) ∧
      (Clashes links path l type → ∀ v, type.byteSize links path = .ok v → l.byteSize links path = .ok .absent) ∧
      (type.byteSize links path = .ok .absent → l.byteSize links path = .ok .absent) := by
  obtain ⟨k, hkey, ht⟩ := (resolve_key hl).1 hf
  obtain ⟨name, hn, hsize⟩ := byteSize_target hl hf htype
  rw [hsize]
  refine ⟨fun hclash => ?_, fun ⟨b, hb, hlb, hname, _⟩ v hv => ?_, fun hv => ?_⟩
  · refine size_unaffected (a := ⟨[], type⟩) (List.nil_subset _) (List.Subset.refl _) fun b hb hlb name' hn' hsame => ?_
    -- a link of the name either closes a cycle or clashes
    by_cases hback : keyOf path b.node = keyOf path l
    · exact absurd (hback.trans hkey) (no_return hacyclic hb ht htype hlb)
    · exact absurd ⟨b, hb, hlb, .of_get hn' hsame hn rfl, hback⟩ hclash
  · rcases sizeWithin_dims (List.nil_subset [name.nameKey]) type v hv with hv' | habsent
    · obtain ⟨name', _, hn', _, _⟩ := id hname
      have hsame := hname.nameKey_eq hn' hn
      rw [hv', varies_of_comes hb (List.nil_subset _) hv' hlb hn' (List.mem_singleton.2 hsame)]
    · exact habsent
  · exact sizeWithin_absent (List.nil_subset _) hv

/-! ## A name in two programs -/

def linkInto (program name : Text) : Node := linkNamed name (.node (.known .programLink [(.name, .text program)]))

/-- the type `price` of the shop, which is that of the bank -/
def shopPrice : Node := typeNamed "price" (linkInto "bank" "price")

/-- the type `price` of the bank -/
def bankPrice : Node := typeNamed "price" (.known .numberType [(.format, .text "u8"), (.endian, .text "le")])

def shop : Node := programNamed "shop" [shopPrice]

def bank : Node := programNamed "bank" [bankPrice]

/-- a tree with both programs -/
def pricedTree : Node :=
  .known .root (Node.fillSlots Kind.root.slots [(.program, .node shop), (.additionalPrograms, .tuple [.node bank])])

def pricedLinks : LinkTable := ((LinkTable.recordTree pricedTree).perform .empty).2

/-- what the only link of the tree is looked up under -/
def bankKey : LinkKey := ⟨.text "bank", .definedType, .text "price"⟩

/-- no type of the tree leads back to itself: links lead to `bankPrice`, which has none -/
theorem priced_acyclic : Acyclic pricedLinks [pricedTree, shop] := by
  refine acyclic_of_end (k := bankKey) ?_ ?_
  · rintro a b ⟨t, m, ht, hocc, hl, hkey⟩
    have hall : ∀ e ∈ pricedLinks.entries, e.2.everywhere (fun m => !m.isKind .definedTypeLink ||
        (keyOf [pricedTree, shop] m).toOption == some (some bankKey)) 10 = true := by decide +kernel
    have htest := Node.test_of_everywhere (hall _ (OrderedMap.mem_entries.2 ht)) hocc
    rw [hl, hkey] at htest
    exact Option.some.inj (Option.some.inj (beq_iff_eq.1 htest))
  · rintro b ⟨t, m, ht, hocc, hl, -⟩
    have hfound : pricedLinks.get? bankKey = some bankPrice := rfl
    rw [hfound] at ht
    cases ht
    have hnone : bankPrice.everywhere (fun m => !m.isKind .definedTypeLink) 10 = true := by decide +kernel
    have htest := Node.test_of_everywhere hnone hocc
    rw [hl] at htest
    cases htest

theorem price_clashes : (linkInto "shop" "price").byteSize pricedLinks [pricedTree, shop] = .ok .absent := by
  refine (clashing_size (l := linkInto "shop" "price") (t := shopPrice) priced_acyclic rfl rfl rfl).2.1 ?_ (.int 1) rfl
  have hnames : (linkInto "bank" "price").SameName (linkInto "shop" "price") := ⟨_, _, rfl, rfl, rfl⟩
  refine ⟨⟨[], linkInto "bank" "price"⟩, .refl _, rfl, hnames, fun h => ?_⟩
  exact absurd (Option.some.inj (Except.ok.inj h)) (by decide +kernel)

/-- a link names its program -/
def NamesProgram (l : Node) : Prop := ∃ q, l.get .program = .ok (.node q) ∧ q.isKind .programLink = true

/-- a link may vary where its type has a fixed size and nothing leads back to itself -/
theorem guard_stops_price :
    ¬ ∀ (root : Node) (links : LinkTable) (ps : List Node) (p l t type : Node),
      (LinkTable.recordTree root).perform .empty = (.ok (), links) → root.programs = .ok ps → Node.DistinctNames ps →
      (∀ m, root.Occurs m → m.isKind .definedTypeLink = true → NamesProgram m) → Acyclic links [root, p] → p ∈ ps →
      l.isKind .definedTypeLink = true → NamesProgram l → links.resolve [root, p] l = .ok (some t) →
      t.child .type = .ok type → l.byteSize links [root, p] = type.byteSize links [root, p] := by
  intro h
  have hnames : Node.DistinctNames [shop, bank] :=
    List.pairwise_pair.2 (not_sameName (s := "shop") (t := "bank") rfl rfl (by decide))
  have hexplicit : ∀ m, pricedTree.Occurs m → m.isKind .definedTypeLink = true → NamesProgram m := by
    intro m hocc hl
    have hall : pricedTree.everywhere (fun m => !m.isKind .definedTypeLink ||
        (m.get .program).toOption.any fun v => v.asNode.toOption.any (·.isKind .programLink)) 10 = true := by
      decide +kernel
    have htest := Node.test_of_everywhere hall hocc
    rw [hl] at htest
    obtain ⟨v, hv, htest⟩ := any_toOption.1 htest
    obtain ⟨q, hq, hkind⟩ := any_toOption.1 htest
    cases v with
    | node q' =>
      cases hq
      exact ⟨_, hv, hkind⟩
    | _ => cases hq
  have heq := h pricedTree pricedLinks [shop, bank] shop (linkInto "shop" "price") shopPrice _ rfl rfl hnames hexplicit
    priced_acyclic List.mem_cons_self rfl ⟨_, rfl, rfl⟩ rfl rfl
  have hlink : (linkInto "shop" "price").byteSize pricedLinks [pricedTree, shop] = .ok .absent := rfl
  have htype : (linkInto "bank" "price").byteSize pricedLinks [pricedTree, shop] = .ok (.int 1) := rfl
  exact absurd (hlink.symm.trans (heq.trans htype)) (fun h => nomatch h)

end ByteSize

end InterfacePages

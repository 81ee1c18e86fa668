/-
The documentation of a tree, program by program.

What stands in a program is a region that its pages do not leave: everything in its nodes stands in it, and a link in it
leads to a defined type of the program, as long as the links that name a program name this one. In the table of the whole
tree such a link finds what it finds in the table of the program alone, because no other program has its name
(`resolve_alone`). So the sizes of the program's accounts are the same (`byteSize_alone`), its pages are the same
(`built_alone`), and the pages of the tree are those of its programs one after another.
-/
import InterfacePages.Proofs.DocsBuilding
import InterfacePages.Proofs.LinkSearch
import InterfacePages.Proofs.LinkedSizes

namespace InterfacePages

/-! ## What stands in a program -/

namespace Node

theorem isNamed_iff {n : Node} {name : NameKey} : n.isNamed name = true ↔ ∃ v, n.get .name = .ok v ∧ v.nameKey = name := by
  unfold isNamed
  cases n.get .name with
  | error e => exact ⟨nofun, nofun⟩
  | ok v => exact ⟨fun h => ⟨v, rfl, of_decide_eq_true h⟩, fun ⟨w, hw, h⟩ => decide_eq_true (Except.ok.inj hw ▸ h)⟩

/-- links to defined types in a program that name a program name this one -/
def LinksInside (p : Node) : Prop :=
  ∀ l, p.Occurs l → l.isKind .definedTypeLink = true → ∀ program, l.get .program = .ok program →
    program.isAbsent = false → ∃ q, program.asNode = .ok q ∧ q.SameName p

/-- whether a link to a defined type names no program or one of a name -/
def namesProgram (name : NameKey) (l : Node) : Bool :=
  !l.isKind .definedTypeLink || (l.get .program).toOption.all fun program =>
    program.isAbsent || program.asNode.toOption.any (·.isNamed name)

/-- the links of a program stay inside if the test says so everywhere in it -/
theorem linksInside_of_everywhere {p : Node} {name : NameKey} (hp : p.isNamed name = true) {fuel : Nat}
    (h : p.everywhere (namesProgram name) fuel = true) : p.LinksInside := by
  intro l hoccurs hl program hprogram ha
  have htest := test_of_everywhere h hoccurs
  rw [namesProgram, hl, hprogram] at htest
  change (program.isAbsent || _) = true at htest
  rw [ha, Bool.false_or] at htest
  obtain ⟨q, hq, hnamed⟩ := any_toOption.1 htest
  obtain ⟨v, hv, hvn⟩ := isNamed_iff.1 hnamed
  obtain ⟨w, hw, hwn⟩ := isNamed_iff.1 hp
  exact ⟨q, hq, .of_get hv hvn hw hwn⟩

/-- of nodes with distinct names only one has a name -/
theorem DistinctNames.filter_isNamed {ns : List Node} (h : DistinctNames ns) {n : Node} (hn : n ∈ ns) {name : NameKey}
    (hnamed : n.isNamed name = true) : ns.filter (·.isNamed name) = [n] := by
  have hsame : ∀ m : Node, m.isNamed name = true → m.SameName n := by
    intro m hm
    obtain ⟨v, hv, hvn⟩ := isNamed_iff.1 hm
    obtain ⟨w, hw, hwn⟩ := isNamed_iff.1 hnamed
    exact .of_get hv hvn hw hwn
  induction ns with
  | nil => cases hn
  | cons m rest ih =>
    obtain ⟨hm, hrest⟩ := List.pairwise_cons.1 h
    rcases List.mem_cons.1 hn with rfl | hn
    · have hnone : rest.filter (·.isNamed name) = [] :=
        List.filter_eq_nil_iff.2 fun q hq hqn => hm q hq (hsame q hqn).symm
      rw [List.filter_cons_of_pos hnamed, hnone]
    · rw [List.filter_cons_of_neg fun hmn => hm n hn (hsame m hmn)]
      exact ih hrest hn

end Node

/-! ## Links -/

namespace LinkTable

variable {ps : List Node} {ess : List (List (LinkKey × Node))} {p : Node} {es : List (LinkKey × Node)}
  {path path' : List Node} {l : Node}

/-- under the name of a program only what it files itself is found -/
theorem lookupIn_alone (hps : ∀ q ∈ ps, q.isKind .program = true) (hess : ps.mapM entriesOf = .ok ess)
    (hdistinct : Node.DistinctNames ps) (hp : p ∈ ps) (hes : entriesOf p = .ok es) {program : NameKey}
    (hnamed : p.isNamed program = true) (name : NameKey) :
    OrderedMap.lookupIn ⟨program, .definedType, name⟩ ess.flatten =
      OrderedMap.lookupIn ⟨program, .definedType, name⟩ es := by
  have hall := lookupIn_programs hps hess (k := .definedType) rfl program name
  have halone : firstDeclared Node.definedTypes [p] program name =
      .ok (OrderedMap.lookupIn ⟨program, .definedType, name⟩ [es].flatten) :=
    lookupIn_programs (List.forall_mem_singleton.2 (hps p hp)) (mapM_eq_ok.2 (.cons hes .nil)) rfl program name
  have hfilter : ps.filter (·.isNamed program) = [p].filter (·.isNamed program) := by
    rw [hdistinct.filter_isNamed hp hnamed, List.filter_singleton, hnamed]
    rfl
  unfold firstDeclared at hall halone
  rw [hfilter, halone, List.flatten_singleton] at hall
  exact (Except.ok.inj hall).symm

/-- the program in which a link in a program is looked up has the name of the program -/
theorem programName_inside (hinside : p.LinksInside) (hpath : programOf? path = some p) (hoccurs : p.Occurs l)
    (hl : l.isKind .definedTypeLink = true) {program : Value} (h : programName path l = .ok (some program)) :
    p.isNamed program.nameKey = true := by
  obtain ⟨given, hgiven, hrest⟩ := except_bind_ok.1 h
  cases ha : given.isAbsent
  · obtain ⟨q, hq, v, w, hv, hw, hvw⟩ := hinside l hoccurs hl given hgiven ha
    rw [ha] at hrest
    obtain ⟨q', hq', hrest⟩ := except_bind_ok.1 hrest
    obtain ⟨u, hu, hrest⟩ := except_bind_ok.1 hrest
    cases hrest
    cases hq.symm.trans hq'
    cases hv.symm.trans hu
    exact Node.isNamed_iff.2 ⟨w, hw, hvw.symm⟩
  · rw [programName_implicit hgiven ha, hpath] at h
    obtain ⟨u, hu, h⟩ := except_bind_ok.1 h
    cases h
    exact Node.isNamed_iff.2 ⟨program, hu, rfl⟩

/-- in the table of all programs a link in a program finds what it finds in that of the program alone -/
theorem resolve_alone (hps : ∀ q ∈ ps, q.isKind .program = true) (hess : ps.mapM entriesOf = .ok ess)
    (hdistinct : Node.DistinctNames ps) (hp : p ∈ ps) (hes : entriesOf p = .ok es) (hinside : p.LinksInside)
    (hpath : programOf? path = some p) (hpath' : programOf? path' = some p) (hoccurs : p.Occurs l)
    (hl : l.isKind .definedTypeLink = true) :
    (fileAll ess.flatten .empty).resolve path l = (fileAll es .empty).resolve path' l := by
  have hname : programName path l = programName path' l := by
    unfold programName
    rw [hpath, hpath']
  rw [resolve_eq hl, resolve_eq hl, ← hname]
  refine bind_congr_ok fun found hfound => ?_
  cases found with
  | none => rfl
  | some program =>
    refine bind_congr_ok fun name _ => congrArg Except.ok ?_
    rw [get?_fileAll_empty, get?_fileAll_empty]
    exact lookupIn_alone hps hess hdistinct hp hes (programName_inside hinside hpath hoccurs hl hfound) name.nameKey

/-- what a link to a defined type finds in the table of a program alone stands in the program -/
theorem occurs_of_resolve (hp : p.isKind .program = true) (hes : entriesOf p = .ok es)
    (hl : l.isKind .definedTypeLink = true) {target : Node}
    (h : (fileAll es .empty).resolve path l = .ok (some target)) : p.Occurs target := by
  obtain ⟨program, name, -, -, hfound⟩ := (resolve_some hl).1 h
  obtain ⟨types, htypes, hlookup⟩ := lookupIn_entriesOf hp hes (k := .definedType) rfl program.nameKey name.nameKey
  rw [get?_fileAll_empty, hlookup] at hfound
  split at hfound
  · exact .single (Node.contains_member hp htypes (List.mem_of_find?_eq_some hfound))
  · cases hfound

/-- what stands in a program is as large in the table of all programs as in that of the program alone -/
theorem byteSize_alone (hps : ∀ q ∈ ps, q.isKind .program = true) (hess : ps.mapM entriesOf = .ok ess)
    (hdistinct : Node.DistinctNames ps) (hp : p ∈ ps) (hes : entriesOf p = .ok es) (hinside : p.LinksInside)
    (hpath : programOf? path = some p) (hpath' : programOf? path' = some p) {n : Node} (hn : p.Occurs n) :
    n.byteSize (fileAll ess.flatten .empty) path = n.byteSize (fileAll es .empty) path' := by
  refine ByteSize.byteSize_congr (P := p.Occurs) (fun n m hn hm => hn.tail hm) (fun l hoccurs hl => ?_) hn
  have hsame := resolve_alone hps hess hdistinct hp hes hinside hpath hpath' hoccurs hl
  exact ⟨hsame, fun target ht => occurs_of_resolve (hps p hp) hes hl (hsame ▸ ht)⟩

end LinkTable

/-! ## Pages -/

namespace Docs

variable {naming : Naming} {package : Text} {links links' : LinkTable}

/-- the pages of a program are the same below a root as alone, where its accounts have the same sizes -/
theorem built_alone {root p : Node} (hp : p.isKind .program = true)
    (hfit : ∀ a k, (a, k) ∈ Node.visitedCollections → ∀ vs, p.items a = .ok vs → ∀ v ∈ vs, v.fits k = true)
    (hsize : ∀ a type, a.isKind .account = true → p.Contains a → a.child .data = .ok type →
      type.byteSize links [root, p, a] = type.byteSize links' [p, a]) (depth depth' : Nat) :
    built ⟨naming, package, links⟩ (depth + 2) [root] p = built ⟨naming, package, links'⟩ (depth' + 2) [] p := by
  have hmember : ∀ m k, m.kind? = some k → k ≠ .program → k ≠ .root →
      (m.isKind .account = true → p.Contains m) →
      built ⟨naming, package, links⟩ (depth + 1) [p, root] m =
        built ⟨naming, package, links'⟩ (depth' + 1) [p] m := by
    intro m k hk hprogram hroot hm
    refine built_member ?_ ?_ fun ha type htype => hsize m type ha (hm ha) htype
    · exact fun h => hprogram (Option.some.inj (hk.symm.trans h))
    · exact fun h => hroot (Option.some.inj (hk.symm.trans h))
  have hitems : ∀ a k, (a, k) ∈ Node.visitedCollections → k ≠ .program → k ≠ .root → ∀ vs, p.items a = .ok vs →
      eachNode (built ⟨naming, package, links⟩ (depth + 1) [p, root]) vs =
        eachNode (built ⟨naming, package, links'⟩ (depth' + 1) [p]) vs := by
    intro a k ha hprogram hroot vs hvs
    refine eachNode_congr fun v hv m hm => ?_
    cases hk : m.kind? with
    | none => rw [built_unknown _ hk, built_unknown _ hk]
    | some k' =>
      have hkk : k' = k := Value.kind_of_fits (hfit a k ha vs hvs v hv) hm hk
      exact hmember m k' hk (hkk ▸ hprogram) (hkk ▸ hroot) fun _ => .item hvs hv hm
  unfold built
  rw [beq_iff_eq.1 hp]
  refine programPages_congr ?_ ?_ rfl fun ls hls l hl => ?_
  · refine ownPages_congr (.refl p) (by simp) (by simp) fun as has a ha type htype => ?_
    exact hsize a type (Node.isKind_of_members has a ha) (Node.contains_member hp has ha) htype
  · have hcollection : ∀ a k, (a, k) ∈ Node.visitedCollections → k ≠ .program → k ≠ .root →
        Agree PageMap.SamePages (p.items a >>= eachNode (built ⟨naming, package, links⟩ (depth + 1) [p, root]))
          (p.items a >>= eachNode (built ⟨naming, package, links'⟩ (depth' + 1) [p])) := by
      intro a k ha hprogram hroot
      rw [bind_congr_ok (hitems a k ha hprogram hroot)]
      exact .refl (fun ms => (rfl : PageMap.SamePages ms ms)) _
    simp only [List.forall_mem_cons]
    exact ⟨hcollection .pdas .pda (by decide) (by decide) (by decide),
      hcollection .accounts .account (by decide) (by decide) (by decide),
      hcollection .definedTypes .definedType (by decide) (by decide) (by decide), fun a ha => absurd ha List.not_mem_nil⟩
  · have hk := Node.isKind_of_leafInstructions hls l hl
    refine hmember l .instruction (beq_iff_eq.1 hk) (by decide) (by decide) fun ha => ?_
    rw [Node.not_instruction ha (by decide)] at hk
    cases hk

/-- the draft of a program alone has the pages that the program has below the root -/
theorem draft_eq_built {options : Options} {root : Node} {ps : List Node} (hroot : root.isKind .root = true)
    (hfit : root.membersFit = true) (hps : root.programs = .ok ps) (hdistinct : Node.DistinctNames ps)
    (hnaming : Naming.make Role.client options.transformers = .ok naming) {ess : List (List (LinkKey × Node))}
    (hess : ps.mapM LinkTable.entriesOf = .ok ess) {p : Node} (hp : p ∈ ps) (hinside : p.LinksInside) :
    draft options p =
      built ⟨naming, options.package, LinkTable.fileAll ess.flatten .empty⟩ root.height [root] p := by
  have hprograms := Node.isKind_of_programs hps
  have hkind := hprograms p hp
  obtain ⟨es, -, hes⟩ := exists_of_forall₂ (mapM_eq_ok.1 hess).flip hp
  have hrecorded : LinkTable.recorded p = .ok (LinkTable.fileAll es .empty) := by
    refine LinkTable.recorded_eq_ok.2 ⟨[p], [es], Node.programs_program hkind, mapM_eq_ok.2 (.cons hes .nil), ?_⟩
    rw [List.flatten_singleton]
  have hpages : draft options p =
      built ⟨naming, options.package, LinkTable.fileAll es .empty⟩ (p.height + 1) [] p := by
    rw [draft_eq, hnaming, hrecorded]
    rfl
  -- both visits are deep enough to reach the members of the program
  have hpos := p.height_pos
  have hlow := Node.height_of_rootPrograms (beq_iff_eq.1 hroot) hps p hp
  obtain ⟨depth, hdepth⟩ : ∃ d, root.height = d + 2 := ⟨root.height - 2, by omega⟩
  obtain ⟨depth', hdepth'⟩ : ∃ d, p.height + 1 = d + 2 := ⟨p.height - 1, by omega⟩
  rw [hpages, hdepth, hdepth']
  refine (built_alone hkind (fun a k ha vs => Node.fits_of_membersFit hfit hps hp ha) ?_ depth depth').symm
  intro a type ha hin htype
  have hother : a.isKind .program = false := by
    rw [Node.isKind, beq_iff_eq.1 ha]
    rfl
  refine LinkTable.byteSize_alone hprograms hess hdistinct hp hes hinside ?_ ?_ (.tail (.single hin) (.child htype))
  · simp [LinkTable.programOf?, hother, hkind]
  · simp [LinkTable.programOf?, hother, hkind]

/-- **Documentation is made program by program.** A root holds in each place only nodes of the kind that belongs there
or of no modelled kind, its programs have distinct names, and links in a program that name one name that program. If the
documentation of the root can be made, that of each program can be made on its own, and the former is all of the latter
merged in the order of the programs: the same pages in the same order. -/
theorem draft_eq_merge {options : Options} {root : Node} {ps : List Node} {m : PageMap}
    (hroot : root.isKind .root = true) (hfit : root.membersFit = true) (hps : root.programs = .ok ps)
    (hdistinct : Node.DistinctNames ps) (hlinks : ∀ p ∈ ps, p.LinksInside) (h : draft options root = .ok m) :
    ∃ ms, ps.mapM (draft options) = .ok ms ∧ m = PageMap.merge ms := by
  rw [draft_eq] at h
  obtain ⟨naming, hnaming, h⟩ := except_bind_ok.1 h
  obtain ⟨links, hrecorded, h⟩ := except_bind_ok.1 h
  obtain ⟨ps', ess, hps', hess, rfl⟩ := LinkTable.recorded_eq_ok.1 hrecorded
  cases hps.symm.trans hps'
  unfold built at h
  rw [beq_iff_eq.1 hroot] at h
  obtain ⟨ps', hps', h⟩ := except_bind_ok.1 h
  cases hps.symm.trans hps'
  obtain ⟨ms, hms, h⟩ := except_bind_ok.1 h
  cases h
  refine ⟨ms, ?_, rfl⟩
  rw [← hms]
  exact Node.mapM_congr fun p hp => draft_eq_built hroot hfit hps hdistinct hnaming hess hp (hlinks p hp)

def pricedProgram (name account format : Text) (link : Node) : Node :=
  .known .program (Node.fillSlots Kind.program.slots [
    (.name, .text name),
    (.accounts, .tuple [
      .node (.unknown (.text "eventNode") []),
      .node (.known .account (Node.fillSlots Kind.account.slots [(.name, .text account), (.data, .node link)]))]),
    (.definedTypes, .tuple [.node (ByteSize.typeNamed "price" (.known .numberType [(.format, .text format)]))])])

/-- a program whose link names it -/
def market : Node :=
  pricedProgram "market" "offer" "u64"
    (ByteSize.linkNamed "price" (.node (.known .programLink [(.name, .text "market")])))

/-- a program with a type of the same name, which its link expects where it stands -/
def stall : Node := pricedProgram "stall" "tag" "u8" (ByteSize.linkNamed "price" .absent)

/-- a tree with both programs -/
def fairTree : Node :=
  .known .root (Node.fillSlots Kind.root.slots [(.program, .node market), (.additionalPrograms, .tuple [.node stall])])

/-- the overviews and the pages of the types share their paths -/
theorem fair_merges : ∃ m ms, draft ⟨standardPackage, []⟩ fairTree = .ok m ∧
    [market, stall].mapM (draft ⟨standardPackage, []⟩) = .ok ms ∧ m = PageMap.merge ms ∧
    ms.map (·.keys) = [["index.md", "accounts/offer.md", "types/price.md"].map Text.ofString,
      ["index.md", "accounts/tag.md", "types/price.md"].map Text.ofString] ∧
    m.keys = ["index.md", "accounts/offer.md", "types/price.md", "accounts/tag.md"].map Text.ofString := by
  have hpages : (draft ⟨standardPackage, []⟩ fairTree).toOption.any (fun m =>
      m.keys = ["index.md", "accounts/offer.md", "types/price.md", "accounts/tag.md"].map Text.ofString) = true := by
    decide +kernel
  obtain ⟨m, hm, hkeys⟩ := any_toOption.1 hpages
  have hdistinct : Node.DistinctNames [market, stall] :=
    List.pairwise_pair.2 (ByteSize.not_sameName (s := "market") (t := "stall") rfl rfl (by decide))
  have hlinks : ∀ p ∈ [market, stall], p.LinksInside := by
    simp only [List.forall_mem_cons]
    have hmarket : market.everywhere (Node.namesProgram (.text "market")) market.height = true := by decide
    have hstall : stall.everywhere (Node.namesProgram (.text "stall")) stall.height = true := by decide
    exact ⟨Node.linksInside_of_everywhere (by decide) hmarket, Node.linksInside_of_everywhere (by decide) hstall, nofun⟩
  have heach : ([market, stall].mapM (draft ⟨standardPackage, []⟩)).toOption.any (fun ms =>
      ms.map (·.keys) = [["index.md", "accounts/offer.md", "types/price.md"].map Text.ofString,
        ["index.md", "accounts/tag.md", "types/price.md"].map Text.ofString]) = true := by decide +kernel
  obtain ⟨ms', hms', hkeys'⟩ := any_toOption.1 heach
  obtain ⟨ms, hms, hmerge⟩ := draft_eq_merge rfl (by decide +kernel) rfl hdistinct hlinks hm
  cases hms'.symm.trans hms
  exact ⟨m, ms', hm, hms, hmerge, of_decide_eq_true hkeys', of_decide_eq_true hkeys⟩

end Docs

end InterfacePages

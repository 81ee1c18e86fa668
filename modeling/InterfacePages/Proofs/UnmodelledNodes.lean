/-
Nodes of no modelled kind leave no trace.

A tree and one with such nodes inserted in the collections of its programs and among its programs are visited side by
side. Both visits go through the same members, since the listings are the same and the inserted nodes have no pages; the
pages of a member see the links and the path only through sizes and addresses, and these are the same as links lead to
the same nodes. Programs and roots put the pages of their nodes together in the same order.
-/
import InterfacePages.Proofs.DocsBuilding
import InterfacePages.Proofs.HookBuilding
import InterfacePages.Proofs.InsertedNodes
import InterfacePages.Proofs.SizeEvaluation

namespace InterfacePages

variable {links links' : LinkTable} {path path' : List Node} {n n' p p' : Node} {above above' : NodeStack}

/-- the size of a node is the same with what is recorded of a spaced tree -/
theorem LinkTable.Spaced.byteSize_eq (h : links.Spaced links') (hpath : List.Forall₂ Node.Spaced path path')
    (n : Node) : n.byteSize links path = n.byteSize links' path' := by
  refine ByteSize.byteSize_congr (P := fun _ => True) (fun _ _ _ _ => trivial) (fun l _ hl => ?_) trivial
  refine ⟨h.resolve_eq hpath ?_, fun _ _ => trivial⟩
  rw [beq_iff_eq.1 hl]
  decide

/-- the pages of the members of a program are the same if those of each are -/
theorem Node.ProgramSpaced.eachNode_agree (h : p.ProgramSpaced p') {f f' : Node → Except Fault PageMap} (a : Attr)
    (hsame : ∀ m : Node, m.height < p.height → m.height < p'.height → f m = f' m)
    (hnone : ∀ m : Node, m.height < p'.height → m.kind? = none → f' m = .ok .empty) :
    Agree PageMap.SamePages (p.items a >>= eachNode f) (p'.items a >>= eachNode f') := by
  refine (h.items_agree a).outcomes.bind ?_
  rintro vs vs' ⟨hspaced, hvs, hvs'⟩
  refine hspaced.eachNode_agree (fun v hv hv' m hm => ?_) fun v hv' m hm => ?_
  · exact hsame m (Node.height_of_item hvs hv hm) (Node.height_of_item hvs' hv' hm)
  · exact hnone m (Node.height_of_item hvs' hv' hm)

/-- the instructions of a program are lower than the program and the spaced one -/
theorem Node.ProgramSpaced.height_of_leafInstructions (h : p.ProgramSpaced p') (hp : p.kind? = some .program)
    {ls : List Node} (hls : p.leafInstructions = .ok ls) : ∀ l ∈ ls, l.height < p.height ∧ l.height < p'.height := by
  have hleaves : p.leafInstructions = p'.leafInstructions := (Node.Spaced.inside h).instructionsUpTo_eq true
  have hp' : p'.kind? = some .program := h.kind_eq ▸ hp
  intro l hl
  constructor
  · exact Node.height_of_leafInstructions (Node.not_instruction (beq_iff_eq.2 hp) (by decide)) hls l hl
  · exact Node.height_of_leafInstructions (Node.not_instruction (beq_iff_eq.2 hp') (by decide)) (hleaves ▸ hls) l hl

/-- the pages of the programs of a root are the same if those of each are -/
theorem Node.Spaced.mapM_programs_eq (h : n.Spaced n') (hn : n.kind? = some .root) {f f' : Node → Except Fault PageMap}
    (hsame : ∀ q q' : Node, q.ProgramSpaced q' → q.height < n.height → q'.height < n'.height → f q = f' q') :
    (n.programs >>= fun ps => ps.mapM f) = n'.programs >>= fun ps => ps.mapM f' := by
  have hn' : n'.kind? = some .root := h.kind_eq ▸ hn
  refine h.programs_agree.bind_eq fun ps ps' hps hps' hagree => ?_
  refine mapM_eq_of_forall₂ hagree fun q hq q' hq' hqq => hsame q q' hqq ?_ ?_
  · exact Node.height_of_rootPrograms hn hps q hq
  · exact Node.height_of_rootPrograms hn' hps' q' hq'

/-! ## Documentation -/

namespace Docs

theorem sameFace (h : p.ProgramSpaced p') : SameFace p p' where
  accounts := (Node.Spaced.inside h).members_eq _ _
  leafInstructions := (Node.Spaced.inside h).instructionsUpTo_eq true
  pdas := (Node.Spaced.inside h).members_eq _ _
  definedTypes := (Node.Spaced.inside h).members_eq _ _
  errors := (Node.Spaced.inside h).members_eq _ _
  name := h.get_eq (by decide)
  docs := h.get_eq (by decide)

section

variable {naming : Naming} {package : Text} {depth depth' : Nat}

/-- the pages of a spaced program are those of the program, if those of lower nodes in it are the same -/
theorem built_program (hlinks : links.Spaced links') (h : p.ProgramSpaced p') (hk : p.kind? = some .program)
    (habove : List.Forall₂ Node.Spaced above above') (hd : p'.height ≤ depth' + 1)
    (hinside : ∀ m : Node, m.height < p.height → m.height < p'.height →
      built ⟨naming, package, links⟩ depth (p :: above) m = built ⟨naming, package, links'⟩ depth' (p' :: above') m) :
    built ⟨naming, package, links⟩ (depth + 1) above p = built ⟨naming, package, links'⟩ (depth' + 1) above' p' := by
  have hk' : p'.kind? = some .program := h.kind_eq ▸ hk
  have hpath : List.Forall₂ Node.Spaced (p :: above).reverse (p' :: above').reverse :=
    List.forall₂_reverse_iff.2 (.cons (.inside h) habove)
  unfold built
  rw [hk, hk']
  refine programPages_congr ?_ (fun a _ => h.eachNode_agree a hinside fun m hm hunknown => ?_)
    (sameFace h).leafInstructions fun ls hls l hl => ?_
  · refine ownPages_congr (sameFace h) (by simp) (by simp) fun as _ a _ type _ => hlinks.byteSize_eq ?_ type
    exact List.rel_append hpath (.cons (.refl a) .nil)
  · have hpos := m.height_pos
    obtain ⟨d, rfl⟩ : ∃ d, depth' = d + 1 := Nat.exists_eq_add_one.2 (by omega)
    exact built_unknown _ hunknown
  · obtain ⟨hlow, hlow'⟩ := h.height_of_leafInstructions hk hls l hl
    exact hinside l hlow hlow'

/-- the pages of a spaced root are those of the root, if those of lower programs are the same -/
theorem built_root (h : n.Spaced n') (hk : n.kind? = some .root)
    (hinside : ∀ q q' : Node, q.ProgramSpaced q' → q.height < n.height → q'.height < n'.height →
      built ⟨naming, package, links⟩ depth (n :: above) q = built ⟨naming, package, links'⟩ depth' (n' :: above') q') :
    built ⟨naming, package, links⟩ (depth + 1) above n = built ⟨naming, package, links'⟩ (depth' + 1) above' n' := by
  have hk' : n'.kind? = some .root := h.kind_eq ▸ hk
  have hpages := h.mapM_programs_eq hk hinside
  unfold built
  rw [hk, hk']
  dsimp only
  rw [← bind_assoc, hpages, bind_assoc]

/-- the pages of a spaced tree are those of the tree, if both are visited deep enough -/
theorem built_eq (hlinks : links.Spaced links') (h : n.Spaced n') (hd : n.height ≤ depth) (hd' : n'.height ≤ depth')
    (habove : List.Forall₂ Node.Spaced above above') :
    built ⟨naming, package, links⟩ depth above n = built ⟨naming, package, links'⟩ depth' above' n' := by
  induction depth generalizing n n' above above' depth' with
  | zero => exact absurd hd (Nat.not_le.2 n.height_pos)
  | succ depth ih =>
    obtain ⟨depth', rfl⟩ : ∃ d, depth' = d + 1 := Nat.exists_eq_add_one.2 (Nat.lt_of_lt_of_le n'.height_pos hd')
    have hon : List.Forall₂ Node.Spaced (n :: above) (n' :: above') := .cons h habove
    have hlower : ∀ q q' : Node, q.Spaced q' → q.height < n.height → q'.height < n'.height →
        built ⟨naming, package, links⟩ depth (n :: above) q =
          built ⟨naming, package, links'⟩ depth' (n' :: above') q' :=
      fun q q' hq hlow hlow' => ih hq (by omega) (by omega) hon
    by_cases hroot : n.kind? = some .root
    · exact built_root h hroot fun q q' hq => hlower q q' (.inside hq)
    · have hp := h.inside_of_kind hroot
      by_cases hprogram : n.kind? = some .program
      · exact built_program hlinks hp hprogram habove hd' fun m => hlower m m (.refl m)
      · obtain rfl := hp.eq_of_kind hprogram
        exact built_member hprogram hroot fun _ type _ => hlinks.byteSize_eq (List.forall₂_reverse_iff.2 hon) type

end

theorem draft_spaced (h : n.Spaced n') (options : Options) : draft options n = draft options n' := by
  rw [draft_eq, draft_eq]
  refine bind_congr_ok fun naming _ => (LinkTable.recorded_agree h).bind_eq fun links links' _ _ hlinks => ?_
  exact built_eq hlinks h (Nat.le_succ _) (Nat.le_succ _) .nil

end Docs

/-! ## Hooks -/

namespace Hooks

theorem indexes_eq (h : n.Spaced n') : indexes n = indexes n' := by
  have hleaves : n.leafInstructions = n'.leafInstructions := h.instructionsUpTo_eq true
  unfold indexes Node.accounts Node.pdas
  rw [hleaves, h.members_eq, h.members_eq]
  refine h.programs_agree.bind_eq fun ps ps' _ _ hps => bind_congr_ok fun accounts _ => ?_
  have hnodes : List.Forall₂ Node.ProgramSpaced (accounts ++ ps) (accounts ++ ps') :=
    List.rel_append (List.forall₂_same.2 fun m _ => .same m) hps
  rw [indexPage_congr hooksFolder (hnodes.imp fun m m' hm => hm.get_eq (by decide))]

theorem sameAddress (hlinks : links.Spaced links') (hpath : List.Forall₂ Node.Spaced path path') (n : Node) :
    SameAddress links links' path path' n := by
  refine fun link _ => (hlinks.resolve_agree hpath link).imp fun found found' hfound => ?_
  cases hfound with
  | none => exact .none
  | some hpda => exact .some ⟨hpda.get_eq (by decide), hpda.get_eq (by decide)⟩

section

variable {naming : Naming} {depth depth' : Nat}

/-- the hooks of a spaced program are those of the program, if those of lower nodes in it are the same -/
theorem built_program (h : p.ProgramSpaced p') (hk : p.kind? = some .program) (hd : p'.height ≤ depth' + 1)
    (hinside : ∀ m : Node, m.height < p.height → m.height < p'.height →
      built naming links depth (p :: above) m = built naming links' depth' (p' :: above') m) :
    built naming links (depth + 1) above p = built naming links' (depth' + 1) above' p' := by
  have hp : p.Spaced p' := .inside h
  have hk' : p'.kind? = some .program := h.kind_eq ▸ hk
  unfold built
  rw [hk, hk']
  refine programPages_congr (h.get_eq (by decide)) (hp.members_eq _ _)
    (fun a _ => h.eachNode_agree a hinside fun m hm hunknown => ?_) (hp.instructionsUpTo_eq true) fun ls hls l hl => ?_
  · have hpos := m.height_pos
    obtain ⟨d, rfl⟩ : ∃ d, depth' = d + 1 := Nat.exists_eq_add_one.2 (by omega)
    exact built_unknown naming _ hunknown
  · obtain ⟨hlow, hlow'⟩ := h.height_of_leafInstructions hk hls l hl
    exact hinside l hlow hlow'

/-- the hooks of a spaced root are those of the root, if those of lower programs are the same -/
theorem built_root (h : n.Spaced n') (hk : n.kind? = some .root)
    (hinside : ∀ q q' : Node, q.ProgramSpaced q' → q.height < n.height → q'.height < n'.height →
      built naming links depth (n :: above) q = built naming links' depth' (n' :: above') q') :
    built naming links (depth + 1) above n = built naming links' (depth' + 1) above' n' := by
  have hk' : n'.kind? = some .root := h.kind_eq ▸ hk
  have hpages := h.mapM_programs_eq hk hinside
  unfold built
  rw [hk, hk']
  dsimp only
  unfold rootPages
  rw [indexes_eq h]
  refine bind_congr_ok fun own _ => ?_
  rw [← bind_assoc, hpages, bind_assoc]

/-- the hooks of a spaced tree are those of the tree, if both are visited deep enough -/
theorem built_eq (hlinks : links.Spaced links') (h : n.Spaced n') (hd : n.height ≤ depth) (hd' : n'.height ≤ depth')
    (habove : List.Forall₂ Node.Spaced above above') :
    built naming links depth above n = built naming links' depth' above' n' := by
  induction depth generalizing n n' above above' depth' with
  | zero => exact absurd hd (Nat.not_le.2 n.height_pos)
  | succ depth ih =>
    obtain ⟨depth', rfl⟩ : ∃ d, depth' = d + 1 := Nat.exists_eq_add_one.2 (Nat.lt_of_lt_of_le n'.height_pos hd')
    have hon : List.Forall₂ Node.Spaced (n :: above) (n' :: above') := .cons h habove
    have hlower : ∀ q q' : Node, q.Spaced q' → q.height < n.height → q'.height < n'.height →
        built naming links depth (n :: above) q = built naming links' depth' (n' :: above') q' :=
      fun q q' hq hlow hlow' => ih hq (by omega) (by omega) hon
    by_cases hroot : n.kind? = some .root
    · exact built_root h hroot fun q q' hq => hlower q q' (.inside hq)
    · have hp := h.inside_of_kind hroot
      by_cases hprogram : n.kind? = some .program
      · exact built_program hp hprogram hd' fun m => hlower m m (.refl m)
      · obtain rfl := hp.eq_of_kind hprogram
        exact built_member hprogram hroot fun _ => sameAddress hlinks (List.forall₂_reverse_iff.2 hon) n

end

theorem pages_spaced (h : n.Spaced n') (options : Options) : pages options n = pages options n' := by
  rw [pages_eq, pages_eq]
  refine bind_congr_ok fun naming _ => bind_congr_ok fun strategy _ => ?_
  refine (LinkTable.recorded_agree h).bind_eq fun links links' _ _ hlinks => congrArg (· >>= _) ?_
  exact built_eq hlinks h (Nat.le_succ _) (Nat.le_succ _) .nil

end Hooks

/-! ## No trace -/

namespace Node

/-- **Nodes of no modelled kind do not interfere.** Some are inserted, anywhere, in the collections of accounts,
instructions, defined types, addresses and errors of the programs of a tree, and among its additional programs. Then the
documentation and the hooks have the same pages in the same order as before, or fail in the same way, and the tree is as
large as it was. -/
theorem spaced_leaves_no_trace {root root' : Node} (h : root.Spaced root') (docs : Docs.Options) (hooks : Hooks.Options) :
    Docs.pages docs root' = Docs.pages docs root ∧ Hooks.pages hooks root' = Hooks.pages hooks root ∧
      root'.counts = root.counts := by
  refine ⟨?_, (Hooks.pages_spaced h hooks).symm, h.counts_eq.symm⟩
  unfold Docs.pages
  rw [Docs.draft_spaced h]

def event : Value := .node (.unknown (.text "eventNode") [])

/-- a program with one member of each family, and other members before and after these -/
def tollProgram (others : List Value) : Node :=
  .known .program (fillSlots Kind.program.slots [
    (.name, .text "toll"),
    (.accounts, .tuple (others ++ [.node (.known .account (fillSlots Kind.account.slots [(.name, .text "gate")]))])),
    (.instructions, .tuple (others ++
      [.node (.known .instruction (fillSlots Kind.instruction.slots [(.name, .text "pay")]))] ++ others)),
    (.definedTypes, .tuple (.node (.known .definedType (fillSlots Kind.definedType.slots [
      (.name, .text "fee"), (.type, .node (.known .numberType (fillSlots Kind.numberType.slots [
        (.format, .text "u64")])))])) :: others)),
    (.pdas, .tuple (.node (.known .pda (fillSlots Kind.pda.slots [(.name, .text "lane")])) :: others)),
    (.errors, .tuple (others ++ [.node (.known .error (fillSlots Kind.error.slots [
      (.name, .text "closed"), (.code, .int 1), (.message, .text "The gate is closed.")]))]))])

/-- the program in a root with another one, and others before and after that -/
def tollTree (others : List Value) : Node :=
  .known .root (fillSlots Kind.root.slots [
    (.program, .node (tollProgram others)),
    (.additionalPrograms, .tuple (others ++
      [.node (.known .program (fillSlots Kind.program.slots [(.name, .text "ledger")]))] ++ others))])

/-- an event among all members and programs of the tree changes nothing: there are the pages and hooks of the others -/
theorem events_leave_no_trace : ∃ docs hooks,
    (tollTree []).Spaced (tollTree [event]) ∧
    Docs.pages ⟨Docs.standardPackage, []⟩ (tollTree [event]) = .ok docs ∧
    docs.keys = ["index.md", "errors.md", "pdas/lane.md", "accounts/gate.md", "types/fee.md",
      "instructions/pay.md"].map Text.ofString ∧
    Hooks.pages ⟨"../client", "granular", []⟩ (tollTree [event]) = .ok hooks ∧
    hooks.size = 8 ∧
    (tollTree [event]).counts = .ok ⟨2, 1, 1, 1, 1, 1⟩ := by
  have hbefore : ∀ v : Value, Interspersed Eq [v] [event, v] :=
    fun v => .insert _ _ (.keep rfl .nil)
  have hafter : ∀ v : Value, Interspersed Eq [v] [v, event] :=
    fun v => .keep rfl (.insert _ _ .nil)
  have hprogram : (tollProgram []).ProgramSpaced (tollProgram [event]) := by
    refine .program (.cons ⟨rfl, programField_same _ _⟩ (.cons ⟨rfl, programField_same _ _⟩
      (.cons ⟨rfl, programField_same _ _⟩ (.cons ⟨rfl, programField_same _ _⟩ (.cons ⟨rfl, programField_same _ _⟩ ?_)))))
    refine .cons ⟨rfl, programField_collection (by decide) (hbefore _)⟩ (.cons ⟨rfl, ?_⟩ ?_)
    · exact programField_collection (by decide) (.insert _ _ (hafter _))
    · refine .cons ⟨rfl, programField_collection (by decide) (hafter _)⟩ (.cons ⟨rfl, ?_⟩ (.cons ⟨rfl, ?_⟩ .nil))
      · exact programField_collection (by decide) (hafter _)
      · exact programField_collection (by decide) (hbefore _)
  have htree : (tollTree []).Spaced (tollTree [event]) :=
    .root (.cons ⟨rfl, .node hprogram⟩ (.cons ⟨rfl, .tuple (.insert _ _ (.keep (.same _) (.insert _ _ .nil)))⟩
      (.cons ⟨rfl, rfl⟩ (.cons ⟨rfl, rfl⟩ .nil))))
  obtain ⟨hdocs, hhooks, hcounts⟩ :=
    spaced_leaves_no_trace htree ⟨Docs.standardPackage, []⟩ ⟨"../client", "granular", []⟩
  have hpages : (Docs.pages ⟨Docs.standardPackage, []⟩ (tollTree [])).toOption.any (fun m =>
      m.keys = ["index.md", "errors.md", "pdas/lane.md", "accounts/gate.md", "types/fee.md",
        "instructions/pay.md"].map Text.ofString) = true := by decide +kernel
  have hmodules : (Hooks.pages ⟨"../client", "granular", []⟩ (tollTree [])).toOption.any (fun m => m.size = 8) = true := by
    decide +kernel
  obtain ⟨m, hm, hkeys⟩ := any_toOption.1 hpages
  obtain ⟨m', hm', hsize⟩ := any_toOption.1 hmodules
  refine ⟨m, m', htree, hdocs.trans hm, of_decide_eq_true hkeys, hhooks.trans hm', of_decide_eq_true hsize, ?_⟩
  exact hcounts.trans (by rfl)

end Node

end InterfacePages

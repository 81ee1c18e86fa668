/-
Types whose attributes hold what their declarations say have sizes.

`Node.wellTyped` tests of one node what sizes are made of: a node where a handler visits one, a whole number where one is
counted with. In a tree that passes everywhere every plan comes to a size as long as it gets sizes (`answers_forNode`),
so by induction on the visits every visit finds one (`sizeWithin_isSize`): a whole number, or that the size varies.
-/
import InterfacePages.Proofs.SizeVisits

namespace InterfacePages

/-- a size: a whole number, or none when it varies -/
def Value.IsSize (v : Value) : Prop := v = .absent ∨ ∃ n, v.whole? = some n

namespace ByteSize

/-! ## What attributes hold -/

/-- what an attribute has to hold -/
inductive Demand where
  | anything | number | text | node | nodes | program
deriving DecidableEq

/-- whether a value is what is demanded; a truth value is a number, and no program need be named -/
def Demand.metBy : Demand → Value → Bool
  | .anything, _ => true
  | .number, v => v.whole?.isSome
  | .text, .text _ => true
  | .node, .node _ => true
  | .nodes, .tuple vs => vs.all fun v => v.asNode.isOk
  | .program, .absent => true
  | .program, .node n => (n.get .name).isOk
  | _, _ => false

/-- what the attributes that sizes are made of have to hold -/
def demands : Kind → List (Attr × Demand)
  | .numberType => [(.format, .text)]
  | .amountType => [(.number, .node)]
  | .solAmountType => [(.number, .node)]
  | .dateTimeType => [(.number, .node)]
  | .booleanType => [(.size, .node)]
  | .fixedCount => [(.value, .number)]
  | .structFieldType => [(.type, .node)]
  | .structType => [(.fields, .nodes)]
  | .tupleType => [(.items, .nodes)]
  | .arrayType => [(.item, .node), (.count, .node)]
  | .setType => [(.item, .node), (.count, .node)]
  | .mapType => [(.key, .node), (.value, .node), (.count, .node)]
  | .optionType => [(.fixed, .anything), (.lead, .node), (.item, .node)]
  | .zeroableOptionType => [(.item, .node)]
  | .enumTupleVariantType => [(.tuple, .node)]
  | .enumStructVariantType => [(.struct, .node)]
  | .enumType => [(.size, .node), (.variants, .nodes)]
  | .fixedSizeType => [(.size, .number)]
  | .preOffsetType => [(.type, .node), (.strategy, .anything), (.offset, .number)]
  | .postOffsetType => [(.type, .node), (.strategy, .anything), (.offset, .number)]
  | .definedTypeLink => [(.name, .anything), (.program, .program)]
  | .definedType => [(.type, .node)]
  | _ => []

end ByteSize

namespace Node

/-- whether the attributes of a node that sizes are made of hold what they have to -/
def wellTyped (n : Node) : Bool :=
  (n.kind?.elim [] ByteSize.demands).all fun d => (n.get d.1).toOption.any d.2.metBy

/-- a node is well typed, and so is all that stands in it -/
def WellTyped (n : Node) : Prop := ∀ m, n.Occurs m → m.wellTyped = true

theorem WellTyped.occurs {n m : Node} (h : n.WellTyped) (hm : n.Occurs m) : m.WellTyped :=
  fun k hk => h k (hm.trans hk)

theorem WellTyped.contains {n m : Node} (h : n.WellTyped) (hm : n.Contains m) : m.WellTyped := h.occurs (.single hm)

theorem wellTyped_of_everywhere {n : Node} {fuel : Nat} (h : n.everywhere wellTyped fuel = true) : n.WellTyped :=
  fun _ hm => test_of_everywhere h hm

variable {n : Node} {k : Kind} {a : Attr}

theorem WellTyped.get (h : n.WellTyped) (hk : n.kind? = some k) {d : ByteSize.Demand} (hd : (a, d) ∈ ByteSize.demands k) :
    ∃ v, n.get a = .ok v ∧ d.metBy v = true := by
  have hn := h n .refl
  rw [wellTyped, hk] at hn
  exact any_toOption.1 (List.all_eq_true.1 hn (a, d) hd)

theorem WellTyped.child (h : n.WellTyped) (hk : n.kind? = some k) (hd : (a, .node) ∈ ByteSize.demands k) :
    ∃ m, n.get a = .ok (.node m) ∧ n.child a = .ok m ∧ m.WellTyped := by
  obtain ⟨v, hv, hmet⟩ := h.get hk hd
  cases v with
  | node m =>
    have hchild : n.child a = .ok m := except_bind_ok.2 ⟨_, hv, rfl⟩
    exact ⟨m, hv, hchild, h.contains (.child hchild)⟩
  | _ => cases hmet

theorem WellTyped.items (h : n.WellTyped) (hk : n.kind? = some k) (hd : (a, .nodes) ∈ ByteSize.demands k) :
    ∃ vs, n.items a = .ok vs ∧ ∀ v ∈ vs, ∃ m, v.asNode = .ok m := by
  obtain ⟨v, hv, hmet⟩ := h.get hk hd
  cases v with
  | tuple vs =>
    refine ⟨vs, except_bind_ok.2 ⟨_, hv, rfl⟩, fun w hw => ?_⟩
    exact exists_of_isOk (List.all_eq_true.1 hmet w hw)
  | _ => cases hmet

theorem WellTyped.number (h : n.WellTyped) (hk : n.kind? = some k) (hd : (a, .number) ∈ ByteSize.demands k) :
    ∃ v i, n.get a = .ok v ∧ v.whole? = some i := by
  obtain ⟨v, hv, hmet⟩ := h.get hk hd
  obtain ⟨i, hi⟩ := Option.isSome_iff_exists.1 hmet
  exact ⟨v, i, hv, hi⟩

end Node

/-! ## Counting with sizes -/

namespace Value

theorem IsSize.absent : Value.absent.IsSize := .inl rfl

theorem IsSize.int (i : Int) : (Value.int i).IsSize := .inr ⟨i, rfl⟩

theorem add_whole {v w : Value} {i j : Int} (hv : v.whole? = some i) (hw : w.whole? = some j) :
    v.add w = .ok (.int (i + j)) := by
  unfold add
  rw [hv, hw]

theorem times_whole {v w : Value} {i j : Int} (hv : v.whole? = some i) (hw : w.whole? = some j) :
    v.times w = .ok (.int (i * j)) := by
  unfold times
  rw [hv, hw]

theorem isAbsent_of_whole {v : Value} {i : Int} (hv : v.whole? = some i) : v.isAbsent = false := by
  cases v with
  | absent => cases hv
  | _ => rfl

theorem IsSize.isKey {v : Value} (h : v.IsSize) : v.isKey = true := by
  rcases h with rfl | ⟨i, hi⟩
  · rfl
  · cases v with
    | bool b => rfl
    | int j => rfl
    | _ => cases hi

/-- two sizes have a sum -/
theorem sumKnown_isSize {v w : Value} (hv : v.IsSize) (hw : w.IsSize) :
    ∃ s, sumKnown (.int 0) [.ok v, .ok w] = .ok s ∧ s.IsSize := by
  rcases hv with rfl | ⟨i, hi⟩
  · exact ⟨.absent, rfl, .absent⟩
  · rcases hw with rfl | ⟨j, hj⟩
    · refine ⟨.absent, ?_, .absent⟩
      change (if v.isAbsent then _ else Value.add (.int 0) v >>= _) = _
      rw [isAbsent_of_whole hi, add_whole rfl hi]
      rfl
    · refine ⟨.int (0 + i + j), ?_, .int _⟩
      change (if v.isAbsent then _ else Value.add (.int 0) v >>= fun s => if w.isAbsent then _ else s.add w >>= _) = _
      rw [isAbsent_of_whole hi, add_whole rfl hi]
      change (if w.isAbsent then _ else Value.add (.int (0 + i)) w >>= _) = _
      rw [isAbsent_of_whole hj, add_whole rfl hj]
      rfl

end Value

namespace ByteSize

/-- a size can be counted with a well-typed count -/
theorem counted_isSize {count : Node} (h : count.WellTyped) {size : Value} (hs : size.IsSize) :
    ∃ s, counted (.node count) size = .ok s ∧ s.IsSize := by
  change ∃ s, (if !count.isKind .fixedCount || size.isAbsent then _
    else count.get .value >>= fun v => v.times size) = _ ∧ _
  cases hk : count.isKind .fixedCount
  · exact ⟨.absent, rfl, .absent⟩
  · rcases hs with rfl | ⟨i, hi⟩
    · exact ⟨.absent, rfl, .absent⟩
    · obtain ⟨v, j, hv, hj⟩ := h.number (beq_iff_eq.1 hk) (List.mem_singleton_self _)
      refine ⟨.int (j * i), ?_, .int _⟩
      rw [Value.isAbsent_of_whole hi, hv]
      exact Value.times_whole hj hi

/-! ## Plans that answer -/

namespace Plan

/-- a plan comes to a size as long as it gets sizes -/
inductive Answers : Plan → Prop
  | done {v : Value} (h : v.IsSize) : Answers (.done (.ok v))
  | ask {n : Node} {next : Value → Plan} (h : ∀ v, v.IsSize → Answers (next v)) : Answers (.ask n next)

variable {p : Plan} {size : Node → Except Fault Value} {n : Node} {k : Kind} {a : Attr}

theorem Answers.eval (h : p.Answers) (hsize : ∀ m, p.Asks size m → ∃ v, size m = .ok v ∧ v.IsSize) :
    ∃ v, p.eval size = .ok v ∧ v.IsSize := by
  induction h with
  | done h => exact ⟨_, rfl, h⟩
  | @ask n next _ ih =>
    obtain ⟨v, hv, hs⟩ := hsize n (.now n next)
    rw [Plan.eval, hv]
    exact ih v hs fun m hm => hsize m (.later hv hm)

theorem Answers.after {α : Type} {x : Except Fault α} {next : α → Plan} {b : α} (hx : x = .ok b) (h : (next b).Answers) :
    (after x next).Answers := by
  rw [hx]
  exact h

theorem Answers.finish {x : Except Fault Value} (h : ∃ v, x = .ok v ∧ v.IsSize) : (Plan.done x).Answers := by
  obtain ⟨v, rfl, hv⟩ := h
  exact .done hv

theorem answers_through (h : n.WellTyped) (hk : n.kind? = some k) (hd : (a, .node) ∈ demands k) :
    (through a n).Answers := by
  obtain ⟨m, -, hm, -⟩ := h.child hk hd
  exact .after hm (.ask fun v hv => .done hv)

theorem answers_sumOf {vs : List Value} (h : ∀ v ∈ vs, ∃ m, v.asNode = .ok m) (i : Int) :
    (sumOf (.int i) vs).Answers := by
  induction vs generalizing i with
  | nil => exact .done (.int i)
  | cons v rest ih =>
    obtain ⟨m, hm⟩ := h v List.mem_cons_self
    refine .after hm (.ask fun s hs => ?_)
    rcases hs with rfl | ⟨j, hj⟩
    · exact .done .absent
    · rw [Value.isAbsent_of_whole hj]
      exact .after (Value.add_whole rfl hj) (ih (fun w hw => h w (List.mem_cons_of_mem _ hw)) _)

theorem answers_sum (h : n.WellTyped) (hk : n.kind? = some k) (hd : (a, .nodes) ∈ demands k) :
    (after (n.items a) fun vs => sumOf (.int 0) vs).Answers := by
  obtain ⟨vs, hvs, hnodes⟩ := h.items hk hd
  exact .after hvs (answers_sumOf hnodes 0)

theorem answers_repetition (h : n.WellTyped) (hk : n.kind? = some k) (hitem : (.item, .node) ∈ demands k)
    (hcount : (.count, .node) ∈ demands k) : (repetition n).Answers := by
  obtain ⟨count, hcount, -, htyped⟩ := h.child hk hcount
  obtain ⟨m, -, hm, -⟩ := h.child hk hitem
  exact .after hcount (.after hm (.ask fun size hs => .finish (counted_isSize htyped hs)))

theorem answers_mapping (h : n.WellTyped) (hk : n.kind? = some .mapType) : (mapping n).Answers := by
  obtain ⟨count, hcount, -, htyped⟩ := h.child (a := .count) hk (by decide)
  obtain ⟨m, -, hm, -⟩ := h.child (a := .key) hk (by decide)
  obtain ⟨m', -, hm', -⟩ := h.child (a := .value) hk (by decide)
  refine .after hcount (.after hm (.ask fun key hkey => .after hm' (.ask fun value hvalue => .finish ?_)))
  obtain ⟨total, htotal, hsize⟩ := Value.sumKnown_isSize hkey hvalue
  rw [htotal]
  exact counted_isSize htyped hsize

theorem numberSize_isSize (h : n.WellTyped) (hk : n.kind? = some .numberType) :
    ∃ v, numberSize n = .ok v ∧ v.IsSize := by
  obtain ⟨v, hv, hmet⟩ := h.get (a := .format) hk (List.mem_singleton_self _)
  unfold numberSize
  rw [hv]
  cases v with
  | text t =>
    dsimp only [bind, Except.bind]
    cases formatSizes.lookup t with
    | some size => exact ⟨_, rfl, .int size⟩
    | none => exact ⟨_, rfl, .absent⟩
  | _ => cases hmet

theorem answers_option (h : n.WellTyped) (hk : n.kind? = some .optionType) : (option n).Answers := by
  obtain ⟨fixed, hfixed, -⟩ := h.get (a := .fixed) hk List.mem_cons_self
  obtain ⟨m, -, hm, -⟩ := h.child (a := .lead) hk (by decide)
  obtain ⟨m', -, hm', -⟩ := h.child (a := .item) hk (by decide)
  refine .after hfixed ?_
  cases fixed.isGiven
  · exact .done .absent
  · exact .after hm (.ask fun lead hlead => .after hm' (.ask fun item hitem =>
      .finish (Value.sumKnown_isSize hlead hitem)))

theorem answers_offset (h : n.WellTyped) (hk : n.kind? = some k) (htype : (.type, .node) ∈ demands k)
    (hstrategy : (.strategy, .anything) ∈ demands k) (hoffset : (.offset, .number) ∈ demands k) :
    (offset n).Answers := by
  obtain ⟨m, -, hm, -⟩ := h.child hk htype
  obtain ⟨strategy, hstrategy, -⟩ := h.get hk hstrategy
  obtain ⟨v, j, hv, hj⟩ := h.number hk hoffset
  refine .after hm (.ask fun size hs => .after hstrategy (.finish ?_))
  rcases hs with rfl | ⟨i, hi⟩
  · exact ⟨.absent, rfl, .absent⟩
  · rw [Value.isAbsent_of_whole hi]
    cases strategy.same (.text "padded")
    · exact ⟨size, rfl, .inr ⟨i, hi⟩⟩
    · refine ⟨.int (i + j), ?_, .int _⟩
      change (n.get .offset >>= fun v => size.add v) = _
      rw [hv]
      exact Value.add_whole hi hj

theorem allEmpty_ok {vs : List Value} (h : ∀ v ∈ vs, ∃ m, v.asNode = .ok m) :
    ∃ b, Node.isScalarEnum.allEmpty vs = .ok b := by
  induction vs with
  | nil => exact ⟨true, rfl⟩
  | cons v rest ih =>
    obtain ⟨m, hm⟩ := h v List.mem_cons_self
    unfold Node.isScalarEnum.allEmpty
    rw [hm]
    change ∃ b, (if m.isKind .enumEmptyVariantType then Node.isScalarEnum.allEmpty rest
      else (.ok false : Except Fault Bool)) = .ok b
    split
    · exact ih fun w hw => h w (List.mem_cons_of_mem _ hw)
    · exact ⟨false, rfl⟩

theorem enumerationSize_isSize {lead : Value} (hlead : lead.IsSize) {sizes : List Value} (h : ∀ s ∈ sizes, s.IsSize) :
    ∃ v, enumerationSize lead sizes = .ok v ∧ v.IsSize := by
  rcases sizes with _ | ⟨size, _ | ⟨size', sizes⟩⟩
  · exact ⟨.absent, rfl, .absent⟩
  · rcases hlead with rfl | ⟨i, hi⟩
    · exact ⟨.absent, rfl, .absent⟩
    · change ∃ v, (if lead.isAbsent || size.isAbsent then _ else lead.add size) = _ ∧ _
      rcases h size (List.mem_singleton_self _) with rfl | ⟨j, hj⟩
      · exact ⟨.absent, if_pos (Bool.or_true _), .absent⟩
      · refine ⟨.int (i + j), ?_, .int _⟩
        rw [Value.isAbsent_of_whole hi, Value.isAbsent_of_whole hj]
        exact Value.add_whole hi hj
  · exact ⟨.absent, rfl, .absent⟩

theorem answers_distinctSizes {vs : List Value} (h : ∀ v ∈ vs, ∃ m, v.asNode = .ok m) {lead : Value}
    (hlead : lead.IsSize) {found : List Value} (hfound : ∀ s ∈ found, s.IsSize) :
    (distinctSizes (enumerationSize lead) found vs).Answers := by
  induction vs generalizing found with
  | nil => exact .finish (enumerationSize_isSize hlead hfound)
  | cons v rest ih =>
    obtain ⟨m, hm⟩ := h v List.mem_cons_self
    refine .after hm (.ask fun size hs => ?_)
    rw [hs.isKey]
    refine ih (fun w hw => h w (List.mem_cons_of_mem _ hw)) fun s hs' => ?_
    unfold withSize at hs'
    split at hs'
    · exact hfound s hs'
    · rcases List.mem_append.1 hs' with hs' | hs'
      · exact hfound s hs'
      · exact List.mem_singleton.1 hs' ▸ hs

theorem answers_enumeration (h : n.WellTyped) (hk : n.kind? = some .enumType) : (enumeration n).Answers := by
  obtain ⟨m, -, hm, -⟩ := h.child (a := .size) hk (by decide)
  obtain ⟨vs, hvs, hnodes⟩ := h.items (a := .variants) hk (by decide)
  refine .after hm (.ask fun lead hlead => ?_)
  obtain ⟨scalar, hscalar⟩ := allEmpty_ok hnodes
  refine .after (except_bind_ok.2 ⟨vs, hvs, hscalar⟩) ?_
  cases scalar
  · exact .after hvs (answers_distinctSizes hnodes hlead fun s hs => absurd hs List.not_mem_nil)
  · exact .done hlead

theorem answers_fixedSize (h : n.WellTyped) (hk : n.kind? = some .fixedSizeType) : (Plan.done (n.get .size)).Answers := by
  obtain ⟨v, i, hv, hi⟩ := h.number (a := .size) hk (List.mem_singleton_self _)
  exact .finish ⟨v, hv, .inr ⟨i, hi⟩⟩

/-- **The plan of a well-typed node comes to a size** as long as it gets sizes. -/
theorem answers_forNode (h : n.WellTyped) : (forNode n).Answers := by
  unfold forNode
  cases hk : n.kind? with
  | none => exact .done .absent
  | some k =>
    change (forKind n k).Answers
    cases k with
    | amountType | dateTimeType | solAmountType => exact answers_through h hk (by decide)
    | booleanType | enumStructVariantType | enumTupleVariantType => exact answers_through h hk (by decide)
    | structFieldType | zeroableOptionType => exact answers_through h hk (by decide)
    | structType | tupleType => exact answers_sum h hk (by decide)
    | arrayType | setType => exact answers_repetition h hk (by decide) (by decide)
    | mapType => exact answers_mapping h hk
    | numberType => exact .finish (numberSize_isSize h hk)
    | optionType => exact answers_option h hk
    | postOffsetType | preOffsetType => exact answers_offset h hk (by decide) (by decide) (by decide)
    | enumType => exact answers_enumeration h hk
    | fixedSizeType => exact answers_fixedSize h hk
    | enumEmptyVariantType => exact .done (.int 0)
    | publicKeyType => exact .done (.int 32)
    | _ => exact .done .absent

end Plan

/-! ## Visits that answer -/

/-- the types that links are looked up among are well typed, and a program they are looked up in has a name -/
structure Typed (links : LinkTable) (path : List Node) : Prop where
  type : ∀ program name t, links.get? ⟨program, .definedType, name⟩ = some t →
    t.kind? = some .definedType ∧ t.WellTyped
  program : ∀ p, LinkTable.programOf? path = some p → ∃ name, p.get .name = .ok name

variable {links : LinkTable} {path : List Node} {resolving : Resolving} {n : Node}

/-- a well-typed link can be looked up -/
theorem Typed.resolve (ht : Typed links path) (h : n.WellTyped) (hl : n.isKind .definedTypeLink = true) :
    ∃ found, links.resolve path n = .ok found := by
  have hk := beq_iff_eq.1 hl
  obtain ⟨name, hn, -⟩ := h.get (a := .name) (d := .anything) hk (by decide)
  obtain ⟨program, hp, hmet⟩ := h.get (a := .program) (d := .program) hk (by decide)
  obtain ⟨found, hfound⟩ : ∃ found, LinkTable.programName path n = .ok found := by
    cases ha : program.isAbsent
    · cases program with
      | node q =>
        obtain ⟨qv, hqv⟩ := exists_of_isOk hmet
        refine ⟨some qv, ?_⟩
        unfold LinkTable.programName
        rw [hp]
        change (do return some (← q.get .name)) = _
        rw [hqv]
        rfl
      | absent => cases ha
      | _ => cases hmet
    · rw [LinkTable.programName_implicit hp ha]
      cases hpath : LinkTable.programOf? path with
      | none => exact ⟨none, rfl⟩
      | some p =>
        obtain ⟨pv, hpv⟩ := ht.program p hpath
        refine ⟨some pv, ?_⟩
        dsimp only
        rw [hpv]
        rfl
  rw [LinkTable.resolve_eq hl, hfound]
  cases found with
  | none => exact ⟨none, rfl⟩
  | some pv =>
    change ∃ found, (do return links.get? ⟨pv.nameKey, .definedType, (← n.get .name).nameKey⟩) = .ok found
    rw [hn]
    exact ⟨_, rfl⟩

/-- a well-typed link leads somewhere or nowhere, and to a well-typed type if anywhere -/
theorem Typed.onward (ht : Typed links path) (h : n.WellTyped) (hl : n.isKind .definedTypeLink = true) :
    ∃ next, Onward links path resolving n next ∧ ∀ behind ∈ next, behind.2.WellTyped := by
  obtain ⟨name, hn, -⟩ := h.get (a := .name) (d := .anything) (beq_iff_eq.1 hl) (by decide)
  by_cases hr : name.nameKey ∈ resolving
  · exact ⟨none, .again hn hr, fun _ hb => nomatch hb⟩
  · obtain ⟨found, hf⟩ := ht.resolve h hl
    cases found with
    | none => exact ⟨none, .nowhere hn hr hf, fun _ hb => nomatch hb⟩
    | some t =>
      obtain ⟨_, _, -, -, hget⟩ := (LinkTable.resolve_some hl).1 hf
      obtain ⟨hk, htyped⟩ := ht.type _ _ t hget
      obtain ⟨type, -, htype, hwell⟩ := htyped.child (a := .type) hk (List.mem_singleton_self _)
      refine ⟨_, .follow hn hr hf htype, fun behind hb => ?_⟩
      cases hb
      exact hwell

/-- **Every visit of a well-typed node finds a size**, where its links lead to well-typed types. -/
theorem sizeWithin_isSize (ht : Typed links path) (h : n.WellTyped) :
    ∃ v, sizeWithin links path resolving n = .ok v ∧ v.IsSize := by
  suffices ∀ a : Visit, a.node.WellTyped → ∃ v, sizeWithin links path a.resolving a.node = .ok v ∧ v.IsSize from
    this ⟨resolving, n⟩ h
  intro a
  induction a using (calls_wellFounded links path).induction with
  | _ a ih =>
    obtain ⟨resolving, n⟩ := a
    dsimp only at ih ⊢
    intro h
    cases hl : n.isKind .definedTypeLink
    · rw [sizeWithin_plan hl]
      refine (Plan.answers_forNode h).eval fun m hm => ?_
      exact ih ⟨resolving, m⟩ (.part hl hm) (h.contains ((Plan.sound_forNode n).of_asks hm))
    · obtain ⟨next, hnext, hwell⟩ := ht.onward h hl
      rw [sizeWithin_onward hl hnext]
      cases next with
      | none => exact ⟨.absent, rfl, .absent⟩
      | some behind => exact ih ⟨_, behind.2⟩ (.follow hl hnext) (hwell behind rfl)

end ByteSize

end InterfacePages

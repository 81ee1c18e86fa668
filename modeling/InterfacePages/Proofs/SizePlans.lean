/-
What the handlers for sizes do with the sizes they ask for.

A plan is what a handler does at a node: it is done, or it asks for the size of a node and goes on with the answer.
Every handler but the one for links follows a plan (`handlerFor_eq_plan`), and every plan is `Sound`: it asks only about
nodes that stand in its own, and as soon as one of the sizes it asks for varies, what it comes to varies. That is all
that is needed to know about a handler.
-/
import InterfacePages.Proofs.NodeHeights
import InterfacePages.Proofs.Visiting
import InterfacePages.Shape.ByteSize

namespace InterfacePages

namespace ByteSize

/-- what is done at a node: an outcome, or a node to ask for the size of and what to do with the answer -/
inductive Plan where
  | done (r : Except Fault Value)
  | ask (n : Node) (next : Value → Plan)

namespace Plan

/-- goes on after something that needs no visit -/
def after {α : Type} (x : Except Fault α) (next : α → Plan) : Plan :=
  match x with
  | .ok a => next a
  | .error e => .done (.error e)

/-- follows a plan with a way to visit nodes -/
def run (visit : Node → Sizing) : Plan → Sizing
  | .done r => Act.ofExcept r
  | .ask n next => do run visit (next (← visit n))

/-- what a plan comes to when the sizes of nodes are given -/
def eval (size : Node → Except Fault Value) : Plan → Except Fault Value
  | .done r => r
  | .ask n next => do eval size (next (← size n))

variable {α : Type} {visit : Node → Sizing} {size size' : Node → Except Fault Value}

/-- the nodes that a plan comes to ask about when the sizes of nodes are given -/
inductive Asks (size : Node → Except Fault Value) : Plan → Node → Prop
  | now (n : Node) (next : Value → Plan) : Asks size (.ask n next) n
  | later {n m : Node} {next : Value → Plan} {v : Value} (hv : size n = .ok v) (h : Asks size (next v) m) :
      Asks size (.ask n next) m

@[simp]
theorem run_after (x : Except Fault α) (next : α → Plan) :
    (after x next).run visit = Act.ofExcept x >>= fun a => (next a).run visit := by
  cases x <;> rfl

/-! ## Sound plans -/

/-- one plan loses its size wherever another one succeeds, when it gets the same answers or less of them -/
inductive Fades : Plan → Plan → Prop
  | failed (e : Fault) (q : Plan) : Fades (.done (.error e)) q
  | absent (p : Plan) : Fades p (.done (.ok .absent))
  | ask (n : Node) {next next' : Value → Plan} (same : ∀ v, Fades (next v) (next' v))
      (less : ∀ v, Fades (next v) (next' .absent)) : Fades (.ask n next) (.ask n next')

/-- a plan asks only about nodes of a class, and a size that varies makes it fade -/
inductive Sound (P : Node → Prop) : Plan → Prop
  | done (r : Except Fault Value) : Sound P (.done r)
  | ask {n : Node} {next : Value → Plan} (asked : P n) (going : ∀ v, Sound P (next v))
      (less : ∀ v, Fades (next v) (next .absent)) : Sound P (.ask n next)

variable {P : Node → Prop}

theorem Fades.done {r r' : Except Fault Value} (h : ∀ v, r = .ok v → r' = .ok .absent) :
    Fades (.done r) (.done r') := by
  cases r with
  | error e => exact .failed e _
  | ok v =>
    rw [h v rfl]
    exact .absent _

theorem Fades.after (x : Except Fault α) {next next' : α → Plan} (h : ∀ a, Fades (next a) (next' a)) :
    Fades (Plan.after x next) (Plan.after x next') := by
  cases x with
  | ok a => exact h a
  | error e => exact .failed e _

theorem Sound.after {x : Except Fault α} {next : α → Plan} (h : ∀ a, x = .ok a → Sound P (next a)) :
    Sound P (Plan.after x next) := by
  cases x with
  | ok a => exact h a rfl
  | error e => exact .done _

/-- only the sizes of the nodes asked about count -/
theorem Sound.eval_congr {p : Plan} (hp : Sound P p) (h : ∀ m, P m → size m = size' m) :
    p.eval size = p.eval size' := by
  induction hp with
  | done r => rfl
  | @ask n next asked _ _ ih =>
    rw [eval, eval, h n asked]
    cases size' n with
    | error e => rfl
    | ok v => exact ih v

/-- only the sizes that a plan comes to ask for count -/
theorem eval_congr_asked {p : Plan} (h : ∀ m, p.Asks size m → size m = size' m) : p.eval size = p.eval size' := by
  induction p with
  | done r => rfl
  | ask n next ih =>
    rw [eval, eval, ← h n (.now n next)]
    cases hn : size n with
    | error e => rfl
    | ok v => exact ih v fun m hm => h m (.later hn hm)

theorem Sound.of_asks {p : Plan} (hp : Sound P p) {m : Node} (h : p.Asks size m) : P m := by
  induction h with
  | now n next =>
    cases hp with
    | ask asked going less => exact asked
  | later hv h ih =>
    cases hp with
    | ask asked going less => exact ih (going _)

/-- where a plan comes to a size, it got the sizes it asked for -/
theorem Asks.ok {p : Plan} {m : Node} (h : p.Asks size m) {v : Value} (hv : p.eval size = .ok v) :
    ∃ w, size m = .ok w := by
  induction h with
  | now n next => exact (except_bind_ok.1 hv).imp fun _ h => h.1
  | later hn h ih =>
    rw [eval, hn] at hv
    exact ih hv

/-- a way to find sizes that finds more serves every plan as well -/
theorem eval_le (h : ∀ m v, size m = .ok v → size' m = .ok v) {p : Plan} {v : Value} (hv : p.eval size = .ok v) :
    p.eval size' = .ok v := by
  induction p with
  | done r => exact hv
  | ask n next ih =>
    obtain ⟨w, hw, hv⟩ := except_bind_ok.1 hv
    rw [Plan.eval, h n w hw]
    exact ih w hv

/-- one way to find sizes finds what another one does, or that they vary -/
def Dims (size size' : Node → Except Fault Value) : Prop :=
  ∀ m v, size m = .ok v → size' m = .ok v ∨ size' m = .ok .absent

theorem Fades.eval {p q : Plan} (h : Fades p q) (hd : Dims size size') {v : Value} (hv : p.eval size = .ok v) :
    q.eval size' = .ok .absent := by
  induction h with
  | failed e q => cases hv
  | absent p => rfl
  | ask n same less ihsame ihless =>
    obtain ⟨w, hw, hv⟩ := except_bind_ok.1 hv
    rcases hd n w hw with hw' | hw' <;> rw [Plan.eval, hw']
    · exact ihsame w hv
    · exact ihless w hv

/-- a sound plan with smaller answers comes to the same or varies -/
theorem Sound.eval_dims {p : Plan} (hp : Sound P p) (hd : Dims size size') {v : Value} (hv : p.eval size = .ok v) :
    p.eval size' = .ok v ∨ p.eval size' = .ok .absent := by
  induction hp with
  | done r => exact .inl hv
  | @ask n next _ _ less ih =>
    obtain ⟨w, hw, hv⟩ := except_bind_ok.1 hv
    rcases hd n w hw with hw' | hw' <;> rw [Plan.eval, hw']
    · exact ih w hv
    · exact .inr ((less w).eval hd hv)

theorem Dims.refl (size : Node → Except Fault Value) : Dims size size := fun _ _ h => .inl h

theorem Fades.ne_absent {next : Value → Plan} (less : ∀ v, Fades (next v) (next .absent)) {w v : Value}
    (hv : (next w).eval size = .ok v) (hne : v ≠ .absent) : w ≠ .absent := by
  rintro rfl
  have habsent := (less .absent).eval (Dims.refl size) hv
  rw [hv] at habsent
  exact hne (Except.ok.inj habsent)

/-- where a sound plan comes to a fixed size, all the sizes it asked for are fixed; so it comes to the same with any
sizes that agree with these -/
theorem Sound.eval_fixed {p : Plan} (hp : Sound P p) (h : ∀ m v, size m = .ok v → v ≠ .absent → size' m = .ok v)
    {v : Value} (hv : p.eval size = .ok v) (hne : v ≠ .absent) : p.eval size' = .ok v := by
  induction hp with
  | done r => exact hv
  | @ask n next _ _ less ih =>
    obtain ⟨w, hw, hv⟩ := except_bind_ok.1 hv
    rw [Plan.eval, h n w hw (Fades.ne_absent less hv hne)]
    exact ih w hv

/-- what a plan asks for with some sizes, it asks for as well with others that make it come to a fixed size, if those
of them that are fixed are the same; and it gets a fixed size -/
theorem Sound.asks_fixed {p : Plan} (hp : Sound P p) {m : Node} (hm : p.Asks size m)
    (h : ∀ m v, size' m = .ok v → v ≠ .absent → size m = .ok v) {v : Value} (hv : p.eval size' = .ok v)
    (hne : v ≠ .absent) : p.Asks size' m ∧ ∃ w, size' m = .ok w ∧ w ≠ .absent := by
  induction hm with
  | now n next =>
    cases hp with
    | ask asked going less =>
      obtain ⟨w, hw, hv⟩ := except_bind_ok.1 hv
      exact ⟨.now n next, w, hw, Fades.ne_absent less hv hne⟩
  | later hn hm ih =>
    cases hp with
    | ask asked going less =>
      obtain ⟨w, hw, hv⟩ := except_bind_ok.1 hv
      cases hn.symm.trans (h _ w hw (Fades.ne_absent less hv hne))
      obtain ⟨hasks, hfixed⟩ := ih (going _) hv
      exact ⟨.later hw hasks, hfixed⟩

/-- two ways to find sizes by which a sound plan comes to fixed sizes agree on everything it asked for -/
theorem Sound.eval_agree {common : Node → Except Fault Value} {p : Plan} (hp : Sound P p)
    (h : ∀ m v v', size m = .ok v → size' m = .ok v' → v ≠ .absent → v' ≠ .absent → common m = .ok v ∧ v = v')
    {v v' : Value} (hv : p.eval size = .ok v) (hv' : p.eval size' = .ok v') (hne : v ≠ .absent) (hne' : v' ≠ .absent) :
    p.eval common = .ok v ∧ v = v' := by
  induction hp with
  | done r => exact ⟨hv, Except.ok.inj (hv.symm.trans hv')⟩
  | @ask n next _ _ less ih =>
    obtain ⟨w, hw, hv⟩ := except_bind_ok.1 hv
    obtain ⟨w', hw', hv'⟩ := except_bind_ok.1 hv'
    obtain ⟨hc, rfl⟩ := h n w w' hw hw' (Fades.ne_absent less hv hne) (Fades.ne_absent less hv' hne')
    rw [Plan.eval, hc]
    exact ih w hv hv'

/-! ## Plans of handlers -/

def through (a : Attr) (n : Node) : Plan := after (n.child a) fun m => .ask m fun size => .done (.ok size)

def sumOf : Value → List Value → Plan
  | total, [] => .done (.ok total)
  | total, v :: rest =>
    after v.asNode fun m => .ask m fun size =>
      if size.isAbsent then .done (.ok .absent) else after (total.add size) fun total => sumOf total rest

/-- the size of an item as many times as a count says -/
def repetition (n : Node) : Plan :=
  after (n.get .count) fun count => after (n.child .item) fun m => .ask m fun size => .done (counted count size)

/-- the size of an entry as many times as a count says -/
def mapping (n : Node) : Plan :=
  after (n.get .count) fun count =>
    after (n.child .key) fun k => .ask k fun key =>
      after (n.child .value) fun m => .ask m fun value =>
        .done (do counted count (← Value.sumKnown (.int 0) [.ok key, .ok value]))

def numberSize (n : Node) : Except Fault Value := do
  let format ← n.get .format
  if !format.isKey then throw .wrongType
  match format with
  | .text t =>
    match formatSizes.lookup t with
    | some size => return .int size
    | none => return .absent
  | _ => return .absent

def option (n : Node) : Plan :=
  after (n.get .fixed) fun fixed =>
    if !fixed.isGiven then .done (.ok .absent)
    else
      after (n.child .lead) fun l => .ask l fun lead =>
        after (n.child .item) fun m => .ask m fun item =>
          .done (Value.sumKnown (.int 0) [.ok lead, .ok item])

def offset (n : Node) : Plan :=
  after (n.child .type) fun m => .ask m fun size =>
    after (n.get .strategy) fun strategy =>
      .done (if size.isAbsent || !strategy.same (.text "padded") then .ok size else do size.add (← n.get .offset))

/-- the sizes found so far with another one -/
def withSize (found : List Value) (size : Value) : List Value :=
  if found.any (·.same size) then found else found ++ [size]

/-- what an enumeration comes to with the size of its number and the different sizes of its variants -/
def enumerationSize (lead : Value) (sizes : List Value) : Except Fault Value :=
  match sizes with
  | [size] => if lead.isAbsent || size.isAbsent then .ok .absent else lead.add size
  | _ => .ok .absent

def distinctSizes (finish : List Value → Except Fault Value) : List Value → List Value → Plan
  | found, [] => .done (finish found)
  | found, v :: rest =>
    after v.asNode fun m => .ask m fun size =>
      if !size.isKey then .done (.error .wrongType) else distinctSizes finish (withSize found size) rest

def enumeration (n : Node) : Plan :=
  after (n.child .size) fun l => .ask l fun lead =>
    after n.isScalarEnum fun scalar =>
      if scalar then .done (.ok lead)
      else after (n.items .variants) fun vs => distinctSizes (enumerationSize lead) [] vs

def forKind (n : Node) : Kind → Plan
  | .amountType => through .number n
  | .arrayType => repetition n
  | .booleanType => through .size n
  | .dateTimeType => through .number n
  | .enumEmptyVariantType => .done (.ok (.int 0))
  | .enumStructVariantType => through .struct n
  | .enumTupleVariantType => through .tuple n
  | .enumType => enumeration n
  | .fixedSizeType => .done (n.get .size)
  | .mapType => mapping n
  | .numberType => .done (numberSize n)
  | .optionType => option n
  | .postOffsetType => offset n
  | .preOffsetType => offset n
  | .publicKeyType => .done (.ok (.int 32))
  | .setType => repetition n
  | .solAmountType => through .number n
  | .structFieldType => through .type n
  | .structType => after (n.items .fields) fun vs => sumOf (.int 0) vs
  | .tupleType => after (n.items .items) fun vs => sumOf (.int 0) vs
  | .zeroableOptionType => through .item n
  | _ => .done (.ok .absent)

/-- the plan for a node; one of no known kind varies -/
def forNode (n : Node) : Plan := n.kind?.elim (.done (.ok .absent)) (forKind n)

/-! ## Handlers follow their plans -/

theorem run_through (a : Attr) (n : Node) : (through a n).run visit = ByteSize.through a n visit := by
  unfold through ByteSize.through
  rw [run_after]
  refine congrArg _ (funext fun m => ?_)
  exact bind_pure (visit m)

theorem run_sumOf (total : Value) (vs : List Value) : (sumOf total vs).run visit = ByteSize.sumOf visit total vs := by
  induction vs generalizing total with
  | nil => rfl
  | cons v rest ih =>
    unfold sumOf ByteSize.sumOf
    rw [run_after]
    refine congrArg _ (funext fun m => congrArg _ (funext fun size => ?_))
    cases h : size.isAbsent
    · simp only [h, Bool.false_eq_true, if_false, run_after, ih]
    · simp only [h, if_true]
      rfl

theorem run_sum (a : Attr) (n : Node) : (after (n.items a) fun vs => sumOf (.int 0) vs).run visit = sum a n visit := by
  rw [run_after]
  exact congrArg _ (funext fun vs => run_sumOf _ vs)

theorem run_repetition (n : Node) : (repetition n).run visit = ByteSize.repetition n visit := by
  simp only [repetition, run_after]
  rfl

theorem run_mapping (n : Node) : (mapping n).run visit = ByteSize.mapping n visit := by
  simp only [mapping, run_after, run]
  rfl

theorem run_number (n : Node) : (done (numberSize n)).run visit = number n visit := by
  unfold number numberSize run
  rw [Act.ofExcept_bind]
  refine congrArg _ (funext fun format => ?_)
  cases format.isKey
  · rfl
  · cases format with
    | text t =>
      dsimp only
      cases formatSizes.lookup t <;> rfl
    | _ => rfl

theorem run_option (n : Node) : (option n).run visit = ByteSize.option n visit := by
  unfold option ByteSize.option
  rw [run_after]
  refine congrArg _ (funext fun fixed => ?_)
  cases fixed.isGiven
  · rfl
  · simp only [Bool.not_true, Bool.false_eq_true, if_false, run_after, run]

theorem run_offset (n : Node) : (offset n).run visit = ByteSize.offset n visit := by
  unfold offset ByteSize.offset
  rw [run_after]
  refine congrArg _ (funext fun m => congrArg _ (funext fun size => ?_))
  rw [run_after]
  refine congrArg _ (funext fun strategy => ?_)
  cases size.isAbsent || !strategy.same (.text "padded")
  · rfl
  · rfl

theorem run_distinctSizes (finish : List Value → Except Fault Value) (found vs : List Value) :
    (distinctSizes finish found vs).run visit =
      ByteSize.distinctSizes visit found vs >>= fun sizes => Act.ofExcept (finish sizes) := by
  induction vs generalizing found with
  | nil => rfl
  | cons v rest ih =>
    unfold distinctSizes ByteSize.distinctSizes
    rw [run_after, bind_assoc]
    refine congrArg _ (funext fun m => ?_)
    rw [bind_assoc]
    refine congrArg _ (funext fun size => ?_)
    cases h : size.isKey
    · simp only [h]
      rfl
    · simp only [h]
      exact ih (withSize found size)

theorem run_enumeration (n : Node) : (enumeration n).run visit = ByteSize.enumeration n visit := by
  unfold enumeration ByteSize.enumeration
  rw [run_after]
  refine congrArg _ (funext fun m => congrArg _ (funext fun lead => ?_))
  rw [run_after]
  refine congrArg _ (funext fun scalar => ?_)
  cases scalar
  · simp only [Bool.false_eq_true, if_false, run_after, run_distinctSizes]
    refine congrArg _ (funext fun vs => congrArg _ (funext fun sizes => ?_))
    unfold enumerationSize
    rcases sizes with _ | ⟨size, _ | ⟨size', sizes⟩⟩
    · rfl
    · cases h : lead.isAbsent || size.isAbsent
      · simp only [h]
        rfl
      · simp only [h]
        rfl
    · rfl
  · rfl

/-! ## Plans are sound -/

theorem sound_through (a : Attr) (n : Node) : Sound n.Contains (through a n) := by
  apply Sound.after
  intro m hm
  apply Sound.ask (Node.Contains.child hm)
  · intro size
    exact .done _
  · intro size
    exact .absent _

theorem sound_sumOf {vs : List Value} (h : ∀ v ∈ vs, ∀ m, v.asNode = .ok m → P m) (total : Value) :
    Sound P (sumOf total vs) := by
  induction vs generalizing total with
  | nil => exact .done _
  | cons v rest ih =>
    have hrest : ∀ w ∈ rest, ∀ m, w.asNode = .ok m → P m := fun w hw => h w (List.mem_cons_of_mem _ hw)
    apply Sound.after
    intro m hm
    apply Sound.ask (h v List.mem_cons_self m hm)
    · intro size
      split
      · exact .done _
      · exact .after fun total _ => ih hrest total
    · intro size
      exact .absent _

theorem sound_sum (a : Attr) (n : Node) :
    Sound n.Contains (after (n.items a) fun vs => sumOf (.int 0) vs) := by
  apply Sound.after
  intro vs hvs
  exact sound_sumOf (fun v hv m hm => Node.Contains.item hvs hv hm) _

theorem counted_absent {count size v : Value} (h : counted count size = .ok v) :
    counted count .absent = .ok .absent := by
  unfold counted at h ⊢
  obtain ⟨m, hm, -⟩ := except_bind_ok.1 h
  rw [hm]
  change (if !m.isKind .fixedCount || Value.absent.isAbsent then _ else _) = _
  cases m.isKind .fixedCount <;> rfl

theorem sound_repetition (n : Node) : Sound n.Contains (repetition n) := by
  apply Sound.after
  intro count _
  apply Sound.after
  intro m hm
  apply Sound.ask (Node.Contains.child hm)
  · intro size
    exact .done _
  · intro size
    exact .done fun v hv => counted_absent hv

/-- a sum of two sizes that succeeds is not hindered by a second one that varies -/
theorem sumKnown_absent {a b v : Value} (h : Value.sumKnown (.int 0) [.ok a, .ok b] = .ok v) :
    Value.sumKnown (.int 0) [.ok a, .ok .absent] = .ok .absent := by
  change (if a.isAbsent then _ else _) = _ at h
  change (if a.isAbsent then _ else _) = _
  split
  · rfl
  · next ha =>
    rw [if_neg ha] at h
    obtain ⟨total, htotal, -⟩ := except_bind_ok.1 h
    rw [htotal]
    rfl

theorem sound_option (n : Node) : Sound n.Contains (option n) := by
  apply Sound.after
  intro fixed _
  split
  · exact .done _
  · apply Sound.after
    intro l hl
    apply Sound.ask (Node.Contains.child hl)
    · intro lead
      apply Sound.after
      intro m hm
      apply Sound.ask (Node.Contains.child hm)
      · intro item
        exact .done _
      · intro item
        exact .done fun v hv => sumKnown_absent hv
    · intro lead
      apply Fades.after
      intro m
      exact .ask m (fun item => .absent _) fun item => .absent _

theorem sound_mapping (n : Node) : Sound n.Contains (mapping n) := by
  apply Sound.after
  intro count _
  apply Sound.after
  intro k hk
  apply Sound.ask (Node.Contains.child hk)
  · intro key
    apply Sound.after
    intro m hm
    apply Sound.ask (Node.Contains.child hm)
    · intro value
      exact .done _
    · intro value
      apply Fades.done
      intro v hv
      obtain ⟨total, htotal, hv⟩ := except_bind_ok.1 hv
      rw [sumKnown_absent htotal]
      exact counted_absent hv
  · intro key
    have habsent : ∀ value v, (do counted count (← Value.sumKnown (.int 0) [.ok key, .ok value])) = .ok v →
        counted count .absent = .ok .absent := by
      intro value v hv
      obtain ⟨total, -, hv⟩ := except_bind_ok.1 hv
      exact counted_absent hv
    apply Fades.after
    intro m
    exact .ask m (fun value => .done (habsent value)) fun value => .done (habsent value)

theorem sound_offset (n : Node) : Sound n.Contains (offset n) := by
  apply Sound.after
  intro m hm
  apply Sound.ask (Node.Contains.child hm)
  · intro size
    exact .after fun strategy _ => .done _
  · intro size
    exact .after _ fun strategy => .absent _

/-- different sizes are looked for in the same places, and once they have a property to the end they keep it -/
theorem fades_distinctSizes {finish finish' : List Value → Except Fault Value} {Q : List Value → Prop}
    (hend : ∀ sizes, Q sizes → finish' sizes = .ok .absent) (hkeep : ∀ found size, Q found → Q (withSize found size))
    (found : List Value) {found' : List Value} (hf : Q found') (vs : List Value) :
    Fades (distinctSizes finish found vs) (distinctSizes finish' found' vs) := by
  induction vs generalizing found found' with
  | nil => exact .done fun _ _ => hend _ hf
  | cons v rest ih =>
    apply Fades.after
    intro m
    apply Fades.ask m
    · intro size
      split
      · exact .failed _ _
      · exact ih _ (hkeep _ _ hf)
    · intro size
      split
      · exact .failed _ _
      · exact ih _ (hkeep _ _ hf)

theorem mem_withSize {found : List Value} {v : Value} (h : v ∈ found) (size : Value) : v ∈ withSize found size := by
  unfold withSize
  split
  · exact h
  · exact List.mem_append_left _ h

theorem absent_mem_withSize (found : List Value) : .absent ∈ withSize found .absent := by
  unfold withSize
  split
  · next h =>
    obtain ⟨v, hv, hsame⟩ := List.any_eq_true.1 h
    cases v with
    | absent => exact hv
    | _ => simp [Value.same] at hsame
  · exact List.mem_append_right _ (List.mem_singleton_self _)

theorem enumerationSize_absent {lead : Value} {sizes : List Value} (h : .absent ∈ sizes) :
    enumerationSize lead sizes = .ok .absent := by
  unfold enumerationSize
  split
  · next size =>
    cases List.mem_singleton.1 h
    have habsent : (lead.isAbsent || Value.absent.isAbsent) = true := Bool.or_true _
    rw [if_pos habsent]
  · rfl

theorem sound_distinctSizes {vs : List Value} (h : ∀ v ∈ vs, ∀ m, v.asNode = .ok m → P m) (lead : Value)
    (found : List Value) : Sound P (distinctSizes (enumerationSize lead) found vs) := by
  induction vs generalizing found with
  | nil => exact .done _
  | cons v rest ih =>
    have hrest : ∀ w ∈ rest, ∀ m, w.asNode = .ok m → P m := fun w hw => h w (List.mem_cons_of_mem _ hw)
    apply Sound.after
    intro m hm
    apply Sound.ask (h v List.mem_cons_self m hm)
    · intro size
      split
      · exact .done _
      · exact ih hrest _
    · -- a variant that varies stays among the sizes that are found
      intro size
      split
      · exact .failed _ _
      · exact fades_distinctSizes (Q := fun found => .absent ∈ found) (fun _ => enumerationSize_absent)
          (fun _ size hf => mem_withSize hf size) _ (absent_mem_withSize found) rest

theorem sound_enumeration (n : Node) : Sound n.Contains (enumeration n) := by
  apply Sound.after
  intro l hl
  apply Sound.ask (Node.Contains.child hl)
  · intro lead
    apply Sound.after
    intro scalar _
    split
    · exact .done _
    · apply Sound.after
      intro vs hvs
      exact sound_distinctSizes (fun v hv m hm => Node.Contains.item hvs hv hm) lead []
  · intro lead
    apply Fades.after
    intro scalar
    split
    · exact .absent _
    · apply Fades.after
      intro vs
      have hend : ∀ sizes, True → enumerationSize .absent sizes = .ok .absent := by
        intro sizes _
        rcases sizes with _ | ⟨size, _ | ⟨size', sizes⟩⟩ <;> rfl
      exact fades_distinctSizes hend (fun _ _ h => h) [] trivial vs

/-- the plan of any kind asks about the nodes inside and comes to a fixed size only with fixed sizes -/
theorem sound_forKind (n : Node) (k : Kind) : Sound n.Contains (forKind n k) := by
  cases k with
  | amountType | dateTimeType | solAmountType => exact sound_through .number n
  | booleanType => exact sound_through .size n
  | enumStructVariantType => exact sound_through .struct n
  | enumTupleVariantType => exact sound_through .tuple n
  | structFieldType => exact sound_through .type n
  | zeroableOptionType => exact sound_through .item n
  | structType => exact sound_sum .fields n
  | tupleType => exact sound_sum .items n
  | arrayType | setType => exact sound_repetition n
  | mapType => exact sound_mapping n
  | optionType => exact sound_option n
  | postOffsetType | preOffsetType => exact sound_offset n
  | enumType => exact sound_enumeration n
  | _ => exact .done _

theorem sound_forNode (n : Node) : Sound n.Contains (forNode n) := by
  unfold forNode
  cases n.kind? with
  | none => exact .done _
  | some k => exact sound_forKind n k

end Plan

/-! ## Handlers -/

theorem kinds_nodup (links : LinkTable) (path : List Node) : ((handlers links path).map Prod.fst).Nodup := by
  simp [handlers]

theorem handlerFor_link (links : LinkTable) (path : List Node) {n : Node} (hl : n.isKind .definedTypeLink = true)
    (visit : Node → Sizing) : (visitor links path).handlerFor n n visit = link links path n visit := by
  change (Visitor.ofKinds (fun _ => return .absent) (handlers links path)).handlerFor n n visit = _
  rw [Visitor.handlerFor_ofKinds _ (kinds_nodup links path), eq_of_beq hl]
  rfl

/-- what is done at a node that is no link is to follow its plan -/
theorem handlerFor_eq_plan (links : LinkTable) (path : List Node) {n : Node} (hl : n.isKind .definedTypeLink = false)
    (visit : Node → Sizing) : (visitor links path).handlerFor n n visit = (Plan.forNode n).run visit := by
  change (Visitor.ofKinds (fun _ => return .absent) (handlers links path)).handlerFor n n visit = _
  rw [Visitor.handlerFor_ofKinds _ (kinds_nodup links path), Plan.forNode]
  cases hk : n.kind? with
  | none => rfl
  | some k =>
    cases k with
    | definedTypeLink => exact absurd (beq_iff_eq.2 hk) (Bool.eq_false_iff.1 hl)
    | amountType | dateTimeType | solAmountType => exact (Plan.run_through .number n).symm
    | booleanType => exact (Plan.run_through .size n).symm
    | enumStructVariantType => exact (Plan.run_through .struct n).symm
    | enumTupleVariantType => exact (Plan.run_through .tuple n).symm
    | structFieldType => exact (Plan.run_through .type n).symm
    | zeroableOptionType => exact (Plan.run_through .item n).symm
    | structType => exact (Plan.run_sum .fields n).symm
    | tupleType => exact (Plan.run_sum .items n).symm
    | arrayType | setType => exact (Plan.run_repetition n).symm
    | mapType => exact (Plan.run_mapping n).symm
    | numberType => exact (Plan.run_number n).symm
    | optionType => exact (Plan.run_option n).symm
    | postOffsetType | preOffsetType => exact (Plan.run_offset n).symm
    | enumType => exact (Plan.run_enumeration n).symm
    | _ => rfl

end ByteSize

end InterfacePages

/-
Runs for sizes end and leave no trace.

`size_runs` collects it for one table and path, whatever its links lead to: no chain of visits is endless, a visit never
reaches its greatest depth, and a visit that returns or fails leaves the names being resolved as it found them. So a
visitor that has made other visits, failed ones among them, finds what a fresh one finds (`sizesInTurn`), and the order
of the fields of a struct does not count, where every field has a size.

A field may have something else: the size that a fixed size declares is taken as it is, text too. Adding a text fails,
unless a field before it varies (`order_decides_failure`).
-/
import InterfacePages.Proofs.LinkedSizes
import InterfacePages.Proofs.WellTypedSizes

namespace InterfacePages

/-! ## Outcomes as answers -/

namespace Act

variable {σ ρ : Type}

def outcome (act : Act σ ρ) : Act σ (Except Fault ρ) :=
  tryCatch (do return .ok (← act)) fun e => return .error e

theorem perform_outcome (act : Act σ ρ) (s : σ) :
    act.outcome.perform s = (.ok (act.perform s).1, (act.perform s).2) := by
  unfold outcome
  rw [perform_tryCatch, perform_bind]
  rcases act.perform s with ⟨e | r, s'⟩ <;> rfl

end Act

namespace ByteSize

variable {links : LinkTable} {path : List Node} {resolving : Resolving} {size : Node → Except Fault Value}

/-! ## One visitor for many visits -/

/-- what the visits of some nodes in turn find, each kept whether it succeeds or not -/
def sizesInTurn (links : LinkTable) (path : List Node) : List Node → Act Resolving (List (Except Fault Value))
  | [] => return []
  | n :: rest => do
    let found ← (n.sizing links path).outcome
    return found :: (← sizesInTurn links path rest)

/-- visits in turn find what each finds on its own -/
theorem perform_sizesInTurn (links : LinkTable) (path : List Node) (resolving : Resolving) (ns : List Node) :
    (sizesInTurn links path ns).perform resolving = (.ok (ns.map (sizeWithin links path resolving)), resolving) := by
  induction ns with
  | nil => rfl
  | cons n rest ih =>
    have hn : (n.sizing links path).outcome.perform resolving =
        (.ok (sizeWithin links path resolving n), resolving) := by
      rw [Act.perform_outcome, perform_sizing]
    rw [sizesInTurn, Act.perform_bind_ok hn, Act.perform_bind_ok ih]
    rfl

/-! ## The order of a sum -/

namespace Plan

theorem eval_after {α : Type} {x : Except Fault α} {a : α} (hx : x = .ok a) (next : α → Plan) :
    (after x next).eval size = (next a).eval size := by
  rw [hx]
  rfl

/-- a sum ends at a size that varies -/
theorem eval_sumOf_absent {v : Value} {m : Node} (hv : v.asNode = .ok m) (hm : size m = .ok .absent) (i : Int)
    (rest : List Value) : (sumOf (.int i) (v :: rest)).eval size = .ok .absent := by
  rw [sumOf, eval_after hv, eval, hm]
  rfl

/-- a sum goes on from a whole number -/
theorem eval_sumOf_whole {v w : Value} {m : Node} {j : Int} (hv : v.asNode = .ok m) (hm : size m = .ok w)
    (hw : w.whole? = some j) (i : Int) (rest : List Value) :
    (sumOf (.int i) (v :: rest)).eval size = (sumOf (.int (i + j)) rest).eval size := by
  rw [sumOf, eval_after hv, eval, hm]
  change (if w.isAbsent then _ else after (Value.add (.int i) w) fun total => sumOf total rest : Plan).eval size = _
  rw [Value.isAbsent_of_whole hw, if_neg Bool.false_ne_true, eval_after (Value.add_whole rfl hw)]

/-- a value is a node that has a size -/
def Sized (size : Node → Except Fault Value) (v : Value) : Prop :=
  ∃ m w, v.asNode = .ok m ∧ size m = .ok w ∧ w.IsSize

/-- the order of the nodes does not count for the sum of their sizes -/
theorem eval_sumOf_perm {vs ws : List Value} (h : vs.Perm ws) (hvs : ∀ v ∈ vs, Sized size v) (i : Int) :
    (sumOf (.int i) vs).eval size = (sumOf (.int i) ws).eval size := by
  induction h generalizing i with
  | nil => rfl
  | @cons v vs ws _ ih =>
    obtain ⟨m, w, hm, hw, hsize⟩ := hvs v List.mem_cons_self
    rcases hsize with rfl | ⟨j, hj⟩
    · rw [eval_sumOf_absent hm hw, eval_sumOf_absent hm hw]
    · rw [eval_sumOf_whole hm hw hj, eval_sumOf_whole hm hw hj]
      exact ih (fun u hu => hvs u (List.mem_cons_of_mem _ hu)) _
  | swap v u rest =>
    obtain ⟨m, w, hm, hw, hsize⟩ := hvs u List.mem_cons_self
    obtain ⟨m', w', hm', hw', hsize'⟩ := hvs v (List.mem_cons_of_mem _ List.mem_cons_self)
    -- the sum varies if one of the two does, and either way it does so before the rest is looked at
    rcases hsize with rfl | ⟨j, hj⟩ <;> rcases hsize' with rfl | ⟨j', hj'⟩
    · rw [eval_sumOf_absent hm hw, eval_sumOf_absent hm' hw']
    · rw [eval_sumOf_absent hm hw, eval_sumOf_whole hm' hw' hj', eval_sumOf_absent hm hw]
    · rw [eval_sumOf_absent hm' hw', eval_sumOf_whole hm hw hj, eval_sumOf_absent hm' hw']
    · rw [eval_sumOf_whole hm hw hj, eval_sumOf_whole hm' hw' hj', eval_sumOf_whole hm' hw' hj',
        eval_sumOf_whole hm hw hj, Int.add_right_comm]
  | trans hfirst _ ih ih' =>
    rw [ih hvs, ih' fun v hv => hvs v (hfirst.mem_iff.2 hv)]

end Plan

/-- a struct has the sum of the sizes of its fields -/
theorem sizeWithin_struct {n : Node} (hk : n.kind? = some .structType) {vs : List Value}
    (hvs : n.items .fields = .ok vs) :
    sizeWithin links path resolving n = (Plan.sumOf (.int 0) vs).eval (sizeWithin links path resolving) := by
  have hl : n.isKind .definedTypeLink = false := by
    unfold Node.isKind
    rw [hk]
    rfl
  rw [sizeWithin_plan hl, Plan.forNode, hk]
  change (Plan.after (n.items .fields) fun vs => Plan.sumOf (.int 0) vs).eval _ = _
  rw [Plan.eval_after hvs]

/-- structs whose fields differ in their order only have the same size, where every field has one -/
theorem struct_reordered {n n' : Node} {vs ws : List Value} (hk : n.kind? = some .structType)
    (hk' : n'.kind? = some .structType) (hvs : n.items .fields = .ok vs) (hws : n'.items .fields = .ok ws)
    (h : vs.Perm ws) (hsizes : ∀ v ∈ vs, Plan.Sized (sizeWithin links path resolving) v) :
    sizeWithin links path resolving n' = sizeWithin links path resolving n := by
  rw [sizeWithin_struct hk hvs, sizeWithin_struct hk' hws]
  exact (Plan.eval_sumOf_perm h hsizes 0).symm

/-! ## Runs -/

/-- **Runs for sizes end and leave no trace.** With any table and path, no chain of visits is endless, and a visit that
may go as deep as visits for sizes do finds the same however much deeper it may go and whatever it would find there.
Every visit leaves the names being resolved as they were, so a visitor that makes many visits finds for each node what a
fresh one does. The order of the fields of a struct makes no difference while each has a size. -/
theorem size_runs (links : LinkTable) (path : List Node) :
    (WellFounded fun b a : Visit => Calls links path a b) ∧
      (∀ (limit : Sizing) (fuel : Nat) (resolving : Resolving) (n : Node), depthFor links n ≤ fuel →
        ((visitor links path).visit limit fuel n).perform resolving = (n.sizing links path).perform resolving) ∧
      (∀ (fuel : Nat) (resolving : Resolving) (n : Node),
        (((visitor links path).visit (throw .nestingTooDeep) fuel n).perform resolving).2 = resolving) ∧
      (∀ ns : List Node, (sizesInTurn links path ns).perform [] = (.ok (ns.map (Node.byteSize links path)), [])) ∧
      ∀ (resolving : Resolving) (n n' : Node) (vs ws : List Value), n.kind? = some .structType →
        n'.kind? = some .structType → n.items .fields = .ok vs → n'.items .fields = .ok ws → vs.Perm ws →
        (∀ v ∈ vs, Plan.Sized (sizeWithin links path resolving) v) →
        (n'.sizing links path).perform resolving = (n.sizing links path).perform resolving := by
  refine ⟨calls_wellFounded links path, ?_, ?_, ?_, ?_⟩
  · intro limit fuel resolving n hfuel
    obtain ⟨height, hh, hdepth⟩ := deepest_le_depthFor links n
    rw [perform_visit_any hh (Nat.le_trans (hdepth resolving) hfuel), perform_sizing]
  · intro fuel resolving n
    rw [perform_visit]
  · exact perform_sizesInTurn links path []
  · intro resolving n n' vs ws hk hk' hvs hws hperm hsizes
    rw [perform_sizing, perform_sizing, struct_reordered hk hk' hvs hws hperm hsizes]

def fieldNamed (name : Text) (type : Node) : Node :=
  .known .structFieldType (Node.fillSlots Kind.structFieldType.slots [(.name, .text name), (.type, .node type)])

def structOf (fields : List Node) : Node := .known .structType [(.fields, .tuple (fields.map Value.node))]

/-- a key and a link to the type that has them -/
def ringFields : List Node := [
  fieldNamed "owner" (.known .publicKeyType []), fieldNamed "next" (linkNamed "ring" .absent)]

/-- a program whose type holds itself -/
def ring : Node := programNamed "chain" [typeNamed "ring" (structOf ringFields)]

def ringLinks : LinkTable := ((LinkTable.recordTree ring).perform .empty).2

theorem ring_reordered :
    ((structOf ringFields.reverse).sizing ringLinks [ring]).perform [] =
      ((structOf ringFields).sizing ringLinks [ring]).perform [] := by
  have hkey : Plan.Sized (sizeWithin ringLinks [ring] []) (.node ringFields[0]) := ⟨_, _, rfl, rfl, .int 32⟩
  have hnext : Plan.Sized (sizeWithin ringLinks [ring] []) (.node ringFields[1]) := ⟨_, _, rfl, rfl, .absent⟩
  have hperm := (List.reverse_perm ringFields).symm.map Value.node
  refine (size_runs ringLinks [ring]).2.2.2.2 [] (structOf ringFields) (structOf ringFields.reverse) _ _ rfl rfl rfl rfl
    hperm ?_
  exact List.forall_mem_cons.2 ⟨hkey, List.forall_mem_singleton.2 hnext⟩

/-- a field of a size that is text, and a field that varies -/
def wordyFields : List Node := [
  fieldNamed "seal" (.known .fixedSizeType [(.type, .node (.known .bytesType [])), (.size, .text "32")]),
  fieldNamed "memo" (.known .stringType [(.encoding, .text "utf8")])]

/-- the order of fields decides whether a struct has a size where that of a field is not a number -/
theorem order_decides_failure :
    ¬ ∀ (links : LinkTable) (path : List Node) (n n' : Node) (vs ws : List Value), n.kind? = some .structType →
      n'.kind? = some .structType → n.items .fields = .ok vs → n'.items .fields = .ok ws → vs.Perm ws →
      (∀ v ∈ vs, ∃ m w, v.asNode = .ok m ∧ m.byteSize links path = .ok w) →
      n'.byteSize links path = n.byteSize links path := by
  intro h
  have hseal : (wordyFields[0]).byteSize .empty [] = .ok (.text "32") := rfl
  have hmemo : (wordyFields[1]).byteSize .empty [] = .ok .absent := rfl
  have hperm := (List.reverse_perm wordyFields).symm.map Value.node
  have heq := h .empty [] (structOf wordyFields) (structOf wordyFields.reverse) _ _ rfl rfl rfl rfl hperm
    (List.forall_mem_cons.2 ⟨⟨_, _, rfl, hseal⟩, List.forall_mem_singleton.2 ⟨_, _, rfl, hmemo⟩⟩)
  have hfails : (structOf wordyFields).byteSize .empty [] = .error .wrongType := rfl
  have hvaries : (structOf wordyFields.reverse).byteSize .empty [] = .ok .absent := rfl
  exact absurd (hvaries.symm.trans (heq.trans hfails)) (fun h => nomatch h)

end ByteSize

end InterfacePages

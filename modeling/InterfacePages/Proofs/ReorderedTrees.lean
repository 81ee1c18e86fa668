/-
Trees whose declarations stand in another order.

`Rearranged` relates a list to one of related things in any order, and `Node.Reordered` a node to one with the same
declarations in another order, at any depth: the additional programs of a root, the accounts, addresses, instructions
and errors of a program, the sub-instructions of an instruction. Every attribute of a node is the same in the reordered one
or rearranged (`Reordered.level`), so every listing of a reordered tree answers when that of the tree does, with the
reordered nodes of it in some order (`Reordered.programs`, `.members`, `.instructionsUpTo`), and visits go into the same
nodes (`Hooks.inner_carries`).

Reordering is symmetric, so it is enough to say what follows when the tree answers (`Carries`).
-/
import Mathlib.Data.List.Perm.Basic
import InterfacePages.Proofs.InsertedNodes
import InterfacePages.Proofs.VisitedNodes

namespace InterfacePages

/-! ## Outcomes -/

/-- an outcome answers if another one does, and the answers are related -/
def Carries {ε ρ δ : Type} (R : ρ → δ → Prop) (x : Except ε ρ) (y : Except ε δ) : Prop :=
  ∀ a, x = .ok a → ∃ b, y = .ok b ∧ R a b

namespace Carries

variable {ε ρ ρ' δ δ' : Type} {R : ρ → δ → Prop} {R' : ρ' → δ' → Prop} {x : Except ε ρ} {y : Except ε δ}

theorem ok {a : ρ} {b : δ} (h : R a b) : Carries R (.ok a : Except ε ρ) (.ok b) := fun _ ha =>
  ⟨b, rfl, Except.ok.inj ha ▸ h⟩

theorem error {e : ε} : Carries R (.error e) y := fun _ ha => nomatch ha

theorem refl {S : ρ → ρ → Prop} (h : ∀ a, S a a) (x : Except ε ρ) : Carries S x x := fun a ha => ⟨a, ha, h a⟩

theorem imp {S : ρ → δ → Prop} (h : Carries R x y) (himp : ∀ a b, R a b → S a b) : Carries S x y := fun a ha =>
  (h a ha).imp fun _ hb => ⟨hb.1, himp _ _ hb.2⟩

theorem of_agree (h : Agree R x y) : Carries R x y := fun _ ha => h.of_ok ha

/-- what comes after an outcome has its answer at hand -/
theorem bind (h : Carries R x y) {next : ρ → Except ε ρ'} {after : δ → Except ε δ'}
    (hn : ∀ a b, x = .ok a → R a b → Carries R' (next a) (after b)) : Carries R' (x >>= next) (y >>= after) := by
  intro c hc
  obtain ⟨a, ha, hc⟩ := except_bind_ok.1 hc
  obtain ⟨b, hb, hab⟩ := h a ha
  obtain ⟨d, hd, hcd⟩ := hn a b ha hab c hc
  exact ⟨d, except_bind_ok.2 ⟨b, hb, hd⟩, hcd⟩

theorem after (x : Except ε ρ) {next : ρ → Except ε ρ'} {next' : ρ → Except ε δ'}
    (hn : ∀ a, x = .ok a → Carries R' (next a) (next' a)) : Carries R' (x >>= next) (x >>= next') := by
  refine Carries.bind (R := Eq) (refl (fun _ => rfl) x) fun a b ha hab => ?_
  subst hab
  exact hn a ha

theorem mapM {ι ι' : Type} {Q : ι → ι' → Prop} {f : ι → Except ε ρ} {g : ι' → Except ε δ} {xs : List ι} {ys : List ι'}
    (h : List.Forall₂ Q xs ys) (hfg : ∀ x y, Q x y → Carries R (f x) (g y)) :
    Carries (List.Forall₂ R) (xs.mapM f) (ys.mapM g) := by
  induction h with
  | nil => exact ok .nil
  | cons hxy _ ih =>
    rw [List.mapM_cons, List.mapM_cons]
    exact (hfg _ _ hxy).bind fun a b _ hab => ih.bind fun as bs _ hs => ok (.cons hab hs)

end Carries

/-! ## Lists -/

/-- a list and one of related things in any order -/
def Rearranged {α β : Type} (R : α → β → Prop) (xs : List α) (ys : List β) : Prop :=
  ∃ zs, xs.Perm zs ∧ List.Forall₂ R zs ys

namespace Rearranged

variable {α β : Type} {R : α → β → Prop} {xs xs' : List α} {ys ys' : List β}

theorem of_forall₂ (h : List.Forall₂ R xs ys) : Rearranged R xs ys := ⟨xs, .refl _, h⟩

theorem refl {S : α → α → Prop} (h : ∀ a, S a a) (xs : List α) : Rearranged S xs xs :=
  of_forall₂ (List.forall₂_same.2 fun a _ => h a)

theorem imp {S : α → β → Prop} (h : Rearranged R xs ys) (himp : ∀ a b, R a b → S a b) : Rearranged S xs ys :=
  Exists.imp (fun _ hz => ⟨hz.1, hz.2.imp himp⟩) h

theorem imp_mem (h : Rearranged R xs ys) : Rearranged (fun x y => x ∈ xs ∧ R x y) xs ys := by
  obtain ⟨zs, hperm, hrel⟩ := h
  exact ⟨zs, hperm, (List.forall₂_and_left zs ys).2 ⟨fun x hx => hperm.mem_iff.2 hx, hrel⟩⟩

theorem perm_left (hp : xs.Perm xs') (h : Rearranged R xs' ys) : Rearranged R xs ys :=
  Exists.imp (fun _ hz => ⟨hp.trans hz.1, hz.2⟩) h

theorem symm {S : β → α → Prop} (h : Rearranged R xs ys) (hsymm : ∀ a b, R a b → S b a) : Rearranged S ys xs := by
  obtain ⟨zs, hperm, hrel⟩ := h
  have hcomp : Relation.Comp (List.Forall₂ S) List.Perm ys xs :=
    ⟨zs, (List.Forall₂.flip (hrel.imp fun a b hab => hsymm a b hab)), hperm.symm⟩
  rwa [List.forall₂_comp_perm_eq_perm_comp_forall₂] at hcomp

theorem eq_iff : Rearranged Eq xs xs' ↔ xs.Perm xs' := by
  unfold Rearranged
  rw [List.forall₂_eq_eq_eq]
  exact ⟨fun ⟨_, hp, heq⟩ => heq ▸ hp, fun hp => ⟨xs', hp, rfl⟩⟩

theorem append (h : Rearranged R xs ys) (h' : Rearranged R xs' ys') : Rearranged R (xs ++ xs') (ys ++ ys') := by
  obtain ⟨zs, hperm, hrel⟩ := h
  obtain ⟨zs', hperm', hrel'⟩ := h'
  exact ⟨zs ++ zs', hperm.append hperm', List.rel_append hrel hrel'⟩

theorem cons {a : α} {b : β} (hab : R a b) (h : Rearranged R xs ys) : Rearranged R (a :: xs) (b :: ys) :=
  (of_forall₂ (.cons hab .nil)).append h

theorem flatten {xss : List (List α)} {yss : List (List β)} (h : Rearranged (Rearranged R) xss yss) :
    Rearranged R xss.flatten yss.flatten := by
  obtain ⟨zss, hperm, hrel⟩ := h
  refine perm_left hperm.flatten ?_
  clear hperm
  induction hrel with
  | nil => exact of_forall₂ .nil
  | cons h _ ih => exact h.append ih

theorem filter {p : α → Bool} {q : β → Bool} (h : Rearranged R xs ys) (hpq : ∀ a b, R a b → p a = q b) :
    Rearranged R (xs.filter p) (ys.filter q) := by
  obtain ⟨zs, hperm, hrel⟩ := h
  refine ⟨zs.filter p, hperm.filter p, List.rel_filter (fun a b hab => ?_) hrel⟩
  exact iff_of_eq (congrArg (· = true) (hpq a b hab))

theorem map {γ δ : Type} {S : γ → δ → Prop} {f : α → γ} {g : β → δ} (h : Rearranged R xs ys)
    (hfg : ∀ a b, R a b → S (f a) (g b)) : Rearranged S (xs.map f) (ys.map g) := by
  obtain ⟨zs, hperm, hrel⟩ := h
  exact ⟨zs.map f, hperm.map f, List.rel_map (fun a b hab => hfg a b hab) hrel⟩

theorem length_eq (h : Rearranged R xs ys) : xs.length = ys.length := by
  obtain ⟨zs, hperm, hrel⟩ := h
  exact hperm.length_eq.trans hrel.length_eq

theorem isEmpty_eq (h : Rearranged R xs ys) : xs.isEmpty = ys.isEmpty := by
  rw [Bool.eq_iff_iff, List.isEmpty_iff_length_eq_zero, List.isEmpty_iff_length_eq_zero, h.length_eq]

theorem exists_right (h : Rearranged R xs ys) {x : α} (hx : x ∈ xs) : ∃ y ∈ ys, R x y := by
  obtain ⟨zs, hperm, hrel⟩ := h
  exact exists_of_forall₂ hrel.flip (hperm.mem_iff.1 hx)

theorem exists_left (h : Rearranged R xs ys) {y : β} (hy : y ∈ ys) : ∃ x ∈ xs, R x y := by
  obtain ⟨zs, hperm, hrel⟩ := h
  obtain ⟨x, hx, hxy⟩ := exists_of_forall₂ hrel hy
  exact ⟨x, hperm.mem_iff.2 hx, hxy⟩

theorem mapM {ε ρ δ : Type} {S : ρ → δ → Prop} {f : α → Except ε ρ} {g : β → Except ε δ} (h : Rearranged R xs ys)
    (hfg : ∀ a b, R a b → Carries S (f a) (g b)) : Carries (Rearranged S) (xs.mapM f) (ys.mapM g) := by
  intro as has
  obtain ⟨zs, hperm, hrel⟩ := h
  obtain ⟨cs, hcs, hperm'⟩ := List.perm_comp_forall₂ hperm.symm (mapM_eq_ok.1 has)
  obtain ⟨bs, hbs, hpairs⟩ := Carries.mapM hrel hfg cs (mapM_eq_ok.2 hcs)
  exact ⟨bs, hbs, cs, hperm'.symm, hpairs⟩

end Rearranged

/-! ## Nodes -/

namespace Value

theorem Changed.imp {R S : Node → Node → Prop} {v v' : Value} (h : v.Changed R v') (himp : ∀ n n', R n n' → S n n') :
    v.Changed S v' := by
  cases h with
  | same v => exact .same v
  | node h => exact .node (himp _ _ h)

theorem Changed.symm {R : Node → Node → Prop} {v v' : Value} (h : v.Changed R v') (hsymm : ∀ n n', R n n' → R n' n) :
    v'.Changed R v := by
  cases h with
  | same v => exact .same v
  | node h => exact .node (hsymm _ _ h)

theorem Changed.height_eq {R : Node → Node → Prop} {v v' : Value} (h : v.Changed R v')
    (hR : ∀ n n', R n n' → n.height = n'.height) : v.height = v'.height := by
  cases h with
  | same v => rfl
  | node h => rw [height, height, hR _ _ h]

theorem heights_perm {vs vs' : List Value} (h : vs.Perm vs') : heights vs = heights vs' := by
  induction h with
  | nil => rfl
  | cons v _ ih => rw [heights, heights, ih]
  | swap v w vs =>
    simp only [heights]
    omega
  | trans _ _ ih ih' => exact ih.trans ih'

theorem heights_rearranged {R : Value → Value → Prop} {vs vs' : List Value} (h : Rearranged R vs vs')
    (hR : ∀ v v', R v v' → v.height = v'.height) : heights vs = heights vs' := by
  obtain ⟨ws, hperm, hrel⟩ := h
  rw [heights_perm hperm]
  clear hperm
  induction hrel with
  | nil => rfl
  | cons hv _ ih => rw [heights, heights, hR _ _ hv, ih]

end Value

namespace Node

/-- the collections of a kind of node that can stand in any order -/
def orderless : Kind → List Attr
  | .root => [.additionalPrograms]
  | .program => [.accounts, .pdas, .instructions, .errors]
  | .instruction => [.subInstructions]
  | _ => []

/-- how an attribute of a node is related to that of a reordered one, where `R` relates the nodes in them -/
inductive FieldReordered (R : Node → Node → Prop) (k : Kind) (a : Attr) : Value → Value → Prop
  | same (v : Value) : FieldReordered R k a v v
  | collection (ha : a ∈ orderless k) {vs vs' : List Value} (h : Rearranged (Value.Changed R) vs vs') :
      FieldReordered R k a (.tuple vs) (.tuple vs')
  /-- the main program of a root -/
  | main (hk : k = .root) (ha : a = .program) {n n' : Node} (h : R n n') : FieldReordered R k a (.node n) (.node n')

/-- a node and the same one, or one in whose collections the nodes, related by `R`, stand in any order -/
inductive LevelReordered (R : Node → Node → Prop) : Node → Node → Prop
  | same (n : Node) : LevelReordered R n n
  | known (k : Kind) {attributes attributes' : List (Attr × Value)}
      (h : Alike (FieldReordered R k) attributes attributes') :
      LevelReordered R (.known k attributes) (.known k attributes')

/-- a node and one that is reordered at most so deep -/
def ReorderedUpTo : Nat → Node → Node → Prop
  | 0 => Eq
  | depth + 1 => LevelReordered (ReorderedUpTo depth)

/-- a node and one with the same declarations, at any depth in any order -/
def Reordered (n n' : Node) : Prop := ∃ depth, ReorderedUpTo depth n n'

section

variable {R S : Node → Node → Prop} {k : Kind} {a : Attr} {v v' : Value} {n n' : Node}

theorem FieldReordered.imp (h : FieldReordered R k a v v') (himp : ∀ n n', R n n' → S n n') :
    FieldReordered S k a v v' := by
  cases h with
  | same => exact .same v
  | collection ha h => exact .collection ha (h.imp fun v v' hv => hv.imp himp)
  | main hk ha h => exact .main hk ha (himp _ _ h)

theorem FieldReordered.symm (h : FieldReordered R k a v v') (hsymm : ∀ n n', R n n' → R n' n) :
    FieldReordered R k a v' v := by
  cases h with
  | same => exact .same v
  | collection ha h => exact .collection ha (h.symm fun v v' hv => hv.symm hsymm)
  | main hk ha h => exact .main hk ha (hsymm _ _ h)

theorem FieldReordered.height_eq (h : FieldReordered R k a v v') (hR : ∀ n n', R n n' → n.height = n'.height) :
    v.height = v'.height := by
  cases h with
  | same => rfl
  | collection ha h =>
    rw [Value.height, Value.height]
    exact Value.heights_rearranged h fun v v' hv => hv.height_eq hR
  | main hk ha h => rw [Value.height, Value.height, hR _ _ h]

theorem LevelReordered.imp (h : LevelReordered R n n') (himp : ∀ n n', R n n' → S n n') : LevelReordered S n n' := by
  cases h with
  | same => exact .same n
  | known k h => exact .known k (List.Forall₂.imp (fun _ _ he => ⟨he.1, he.2.imp himp⟩) h)

theorem LevelReordered.symm (h : LevelReordered R n n') (hsymm : ∀ n n', R n n' → R n' n) : LevelReordered R n' n := by
  cases h with
  | same => exact .same n
  | known k h =>
    refine .known k (List.Forall₂.flip (List.Forall₂.imp (fun e e' he => ?_) h))
    exact ⟨he.1.symm, he.1 ▸ he.2.symm hsymm⟩

theorem LevelReordered.height_eq (h : LevelReordered R n n') (hR : ∀ n n', R n n' → n.height = n'.height) :
    n.height = n'.height := by
  cases h with
  | same => rfl
  | known k h =>
    rw [height, height]
    refine congrArg (· + 1) ?_
    induction h with
    | nil => rfl
    | @cons e e' _ _ he _ ih =>
      obtain ⟨a, v⟩ := e
      obtain ⟨a', v'⟩ := e'
      rw [attributeHeight, attributeHeight, ih, he.2.height_eq hR]

end

theorem ReorderedUpTo.symm {depth : Nat} {n n' : Node} (h : ReorderedUpTo depth n n') : ReorderedUpTo depth n' n := by
  induction depth generalizing n n' with
  | zero => exact Eq.symm h
  | succ depth ih => exact LevelReordered.symm h fun _ _ => ih

theorem ReorderedUpTo.height_eq {depth : Nat} {n n' : Node} (h : ReorderedUpTo depth n n') : n.height = n'.height := by
  induction depth generalizing n n' with
  | zero => exact congrArg height h
  | succ depth ih => exact LevelReordered.height_eq h fun _ _ => ih

namespace Reordered

variable {n n' : Node}

theorem refl (n : Node) : Reordered n n := ⟨0, rfl⟩

theorem symm (h : Reordered n n') : Reordered n' n := Exists.imp (fun _ => ReorderedUpTo.symm) h

/-- a reordered tree is as high as the tree -/
theorem height_eq (h : Reordered n n') : n.height = n'.height := by
  obtain ⟨depth, h⟩ := h
  exact h.height_eq

/-- what a reordered node looks like on the outside -/
theorem level (h : Reordered n n') : LevelReordered Reordered n n' := by
  obtain ⟨depth, h⟩ := h
  cases depth with
  | zero => exact h ▸ .same n
  | succ depth => exact LevelReordered.imp h fun _ _ hm => ⟨depth, hm⟩

theorem kind_eq (h : Reordered n n') : n.kind? = n'.kind? := by
  cases h.level with
  | same => rfl
  | known k hfields => rfl

theorem isKind_eq (h : Reordered n n') (k : Kind) : n.isKind k = n'.isKind k := by
  unfold isKind
  rw [h.kind_eq]

theorem get {k : Kind} (h : Reordered n n') (hk : n.kind? = some k) (a : Attr) :
    Agree (FieldReordered Reordered k a) (n.get a) (n'.get a) := by
  cases h.level with
  | same => exact .refl .same _
  | known _ hfields =>
    cases hk
    exact hfields.get a

/-- the attributes whose values can differ -/
def fields : List Attr :=
  [.program, .additionalPrograms, .accounts, .pdas, .instructions, .errors, .subInstructions]

theorem get_eq (h : Reordered n n') {a : Attr} (ha : a ∉ fields) : n.get a = n'.get a := by
  cases h.level with
  | same => rfl
  | known k hfields =>
    refine Agree.eq ((hfields.get a).imp fun v v' hv => ?_)
    cases hv with
    | same => rfl
    | collection hmem _ =>
      have hsub : orderless k ⊆ fields := by cases k <;> decide
      exact absurd (hsub hmem) ha
    | main _ hmain _ => exact absurd (hmain ▸ by decide) ha

/-- only roots, programs and instructions can be reordered -/
theorem eq_of_kind (h : Reordered n n') (hk : ∀ k ∈ [Kind.root, .program, .instruction], n.kind? ≠ some k) :
    n = n' := by
  cases h.level with
  | same => rfl
  | known k hfields =>
    have hnone : orderless k = [] ∧ k ≠ .root := by
      cases k with
      | root => exact absurd rfl (hk .root (by decide))
      | program => exact absurd rfl (hk .program (by decide))
      | instruction => exact absurd rfl (hk .instruction (by decide))
      | _ => exact ⟨rfl, by decide⟩
    refine congrArg (Node.known k) ?_
    have hall : List.Forall₂ Eq _ _ := List.Forall₂.imp (fun e e' he => ?_) hfields
    · rwa [List.forall₂_eq_eq_eq] at hall
    · refine Prod.ext he.1 ?_
      generalize e.2 = v at he
      generalize e'.2 = v' at he
      cases he.2 with
      | same => rfl
      | collection hmem _ => exact absurd hmem (hnone.1 ▸ List.not_mem_nil)
      | main hroot _ _ => exact absurd hroot hnone.2

theorem asNode {v v' : Value} (h : v.Changed Reordered v') : Carries Reordered v.asNode v'.asNode :=
  .of_agree (h.asNode refl)

end Reordered

/-! ## Listings -/

theorem ofKind_eq (k : Kind) (vs : List Value) :
    ofKind k vs = do return (← vs.mapM Value.asNode).filter (isKind k) := by
  induction vs with
  | nil => rfl
  | cons v rest ih =>
    rw [ofKind, ih, List.mapM_cons]
    simp only [bind_assoc, pure_bind, List.filter_cons]

theorem listAll_eq (list : Node → Except Fault (List Node)) (vs : List Value) :
    listAll list vs = do return (← eachNode list vs).flatten := by
  unfold eachNode
  induction vs with
  | nil => rfl
  | cons v rest ih =>
    rw [listAll, ih, List.mapM_cons]
    simp only [bind_assoc, pure_bind, List.flatten_cons]

namespace Reordered

variable {n n' : Node} {vs vs' : List Value}

theorem items (h : Reordered n n') (a : Attr) :
    Carries (Rearranged (Value.Changed Reordered)) (n.items a) (n'.items a) := by
  have hsame : ∀ x : Except Fault (List Value), Carries (Rearranged (Value.Changed Reordered)) x x :=
    Carries.refl (Rearranged.refl .same)
  cases h.level with
  | same => exact hsame _
  | known k hfields =>
    refine (Carries.of_agree (hfields.get a)).bind fun v v' _ hv => ?_
    cases hv with
    | same => exact hsame _
    | collection _ hvs => exact .ok hvs
    | main _ _ _ => exact .error

/-- something is computed of the nodes in a rearranged collection -/
theorem eachNode {ρ δ : Type} {S : ρ → δ → Prop} {f : Node → Except Fault ρ} {g : Node → Except Fault δ}
    (h : Rearranged (Value.Changed Reordered) vs vs') (hfg : ∀ m m', Reordered m m' → Carries S (f m) (g m')) :
    Carries (Rearranged S) (eachNode f vs) (InterfacePages.eachNode g vs') :=
  h.mapM fun _ _ hv => (asNode hv).bind fun m m' _ hm => hfg m m' hm

theorem ofKind (h : Rearranged (Value.Changed Reordered) vs vs') (k : Kind) :
    Carries (Rearranged Reordered) (ofKind k vs) (Node.ofKind k vs') := by
  rw [ofKind_eq, ofKind_eq]
  exact (h.mapM fun v v' hv => asNode hv).bind fun ns ns' _ hns => .ok (hns.filter fun m m' hm => hm.isKind_eq k)

theorem programs (h : Reordered n n') : Carries (Rearranged Reordered) n.programs n'.programs := by
  unfold Node.programs
  rw [← h.kind_eq]
  split
  · next hk =>
    refine (Carries.of_agree (h.get hk .program)).bind fun main main' _ hmain => ?_
    refine (h.items .additionalPrograms).bind fun others others' _ hothers => ?_
    refine ofKind (hothers.cons ?_) .program
    cases hmain with
    | same => exact .same _
    | collection hmem _ => exact absurd hmem (by decide)
    | main _ _ hm => exact .node hm
  · exact .ok (.cons h (.of_forall₂ .nil))
  · exact .ok (.of_forall₂ .nil)

theorem members (h : Reordered n n') (a : Attr) (k : Kind) :
    Carries (Rearranged Reordered) (n.members a k) (n'.members a k) :=
  h.programs.bind fun _ _ _ hps =>
    (hps.mapM fun _ _ hp => (hp.items a).bind fun _ _ _ hvs => ofKind hvs k).bind fun _ _ _ hm => .ok hm.flatten

/-- whatever is listed of single instructions, it is listed of a rearranged collection in some order -/
theorem listAll {list : Node → Except Fault (List Node)} (h : Rearranged (Value.Changed Reordered) vs vs')
    (hlist : ∀ m m', Reordered m m' → Carries (Rearranged Reordered) (list m) (list m')) :
    Carries (Rearranged Reordered) (listAll list vs) (Node.listAll list vs') := by
  rw [listAll_eq, listAll_eq]
  exact (eachNode h hlist).bind fun _ _ _ hns => .ok hns.flatten

theorem instructionsUpTo (h : Reordered n n') (leavesOnly : Bool) (fuel : Nat) :
    Carries (Rearranged Reordered) (instructionsUpTo leavesOnly fuel n) (Node.instructionsUpTo leavesOnly fuel n') := by
  induction fuel generalizing n n' with
  | zero => exact .error
  | succ fuel ih =>
    unfold Node.instructionsUpTo
    rw [← h.isKind_eq]
    split
    · next hk =>
      refine (Carries.of_agree (h.get (beq_iff_eq.1 hk) .subInstructions)).bind fun subs subs' _ hsubs => ?_
      -- the collection of either node is given, or of neither
      have hitems : Carries (Rearranged (Value.Changed Reordered)) subs.items subs'.items ∧
          subs.isGiven = subs'.isGiven := by
        cases hsubs with
        | same => exact ⟨.refl (Rearranged.refl .same) _, rfl⟩
        | collection _ hvs =>
          refine ⟨.ok hvs, ?_⟩
          rw [Value.isGiven, Value.isGiven, hvs.isEmpty_eq]
        | main _ _ _ => exact ⟨.error, rfl⟩
      rw [← hitems.2]
      split
      · exact .ok (.cons h (.of_forall₂ .nil))
      · refine hitems.1.bind fun vs vs' _ hvs => (listAll hvs fun m m' hm => ih hm).bind fun ns ns' _ hns => ?_
        split
        · exact .ok hns
        · exact .ok (.cons h hns)
    · refine h.programs.bind fun ps ps' _ hps => ?_
      refine (hps.mapM fun p p' hp => ?_).bind fun nss nss' _ (hnss : Rearranged (Rearranged Reordered) nss nss') =>
        .ok hnss.flatten
      exact (hp.items .instructions).bind fun vs vs' _ hvs => listAll hvs fun m m' hm => ih hm

theorem instructions (h : Reordered n n') : Carries (Rearranged Reordered) n.instructions n'.instructions := by
  unfold Node.instructions
  rw [← h.height_eq]
  exact h.instructionsUpTo false n.height

theorem leafInstructions (h : Reordered n n') :
    Carries (Rearranged Reordered) n.leafInstructions n'.leafInstructions := by
  unfold Node.leafInstructions
  rw [← h.height_eq]
  exact h.instructionsUpTo true n.height

end Reordered

end Node

namespace Hooks

open Node (Reordered)

theorem collected_carries {n n' : Node} (h : n.Reordered n') (a : Attr) :
    Carries (Rearranged Reordered) (collected a n) (collected a n') :=
  (h.items a).bind fun _ _ _ hvs => hvs.mapM fun _ _ hv => Reordered.asNode hv

/-- visits go into the same nodes, reordered, in some order -/
theorem inner_carries {n n' : Node} (h : n.Reordered n') : Carries (Rearranged Reordered) (inner n) (inner n') := by
  unfold inner
  rw [← h.kind_eq]
  split
  · exact h.programs
  · refine (collected_carries h .pdas).bind fun pdas pdas' _ hpdas => ?_
    refine (collected_carries h .accounts).bind fun accounts accounts' _ haccounts => ?_
    exact h.leafInstructions.bind fun leaves leaves' _ hleaves => .ok ((hpdas.append haccounts).append hleaves)
  · exact .ok (.of_forall₂ .nil)

end Hooks

end InterfacePages

/-
Visits as computations.

`Act.Computes` says that an action leaves the state as it was and that its outcome stands in a relation to that of a
computation without a state: both fail with the same fault, or both answer and the answers are related. It goes through
sequences and collections, and through a handler with its node on the stack (`computes_keepingStack`), so a visitor
whose handlers compute can be studied without its state.
-/
import Mathlib.Data.List.Forall2
import Mathlib.Data.List.Nodup
import InterfacePages.Proofs.Action
import InterfacePages.Proofs.OrderedMaps
import InterfacePages.Visit.Traversal

namespace InterfacePages

/-! ## Computing -/

/-- two outcomes fail with the same fault, or answer with related answers -/
inductive Agree {ε ρ δ : Type} (R : ρ → δ → Prop) : Except ε ρ → Except ε δ → Prop
  | ok {a : ρ} {b : δ} (h : R a b) : Agree R (.ok a) (.ok b)
  | error (e : ε) : Agree R (.error e) (.error e)

namespace Agree

variable {ε ρ ρ' δ δ' : Type} {R : ρ → δ → Prop} {R' : ρ' → δ' → Prop}

theorem bind {x : Except ε ρ} {y : Except ε δ} (h : Agree R x y) {next : ρ → Except ε ρ'} {after : δ → Except ε δ'}
    (hn : ∀ a b, R a b → Agree R' (next a) (after b)) : Agree R' (x >>= next) (y >>= after) := by
  cases h with
  | ok hab => exact hn _ _ hab
  | error e => exact .error e

/-- what comes after the same outcome -/
theorem after (x : Except ε ρ) {next : ρ → Except ε ρ'} {next' : ρ → Except ε δ'}
    (hn : ∀ a, Agree R' (next a) (next' a)) : Agree R' (x >>= next) (x >>= next') := by
  cases x with
  | ok a => exact hn a
  | error e => exact .error e

theorem of_ok {x : Except ε ρ} {y : Except ε δ} (h : Agree R x y) {a : ρ} (ha : x = .ok a) :
    ∃ b, y = .ok b ∧ R a b := by
  subst ha
  cases h with
  | ok hab => exact ⟨_, rfl, hab⟩

theorem of_ok_right {x : Except ε ρ} {y : Except ε δ} (h : Agree R x y) {b : δ} (hb : y = .ok b) :
    ∃ a, x = .ok a ∧ R a b := by
  subst hb
  cases h with
  | ok hab => exact ⟨_, rfl, hab⟩

end Agree

namespace Act

variable {σ ρ ρ' δ δ' : Type} {s : σ}

/-- an action leaves the state as it was and its outcome agrees with that of a computation -/
def Computes (R : ρ → δ → Prop) (act : Act σ ρ) (s : σ) (x : Except Fault δ) : Prop :=
  ∃ r, act.perform s = (r, s) ∧ Agree R r x

variable {R : ρ → δ → Prop} {act : Act σ ρ} {x : Except Fault δ}

theorem Computes.ok (h : Computes R act s x) {a : ρ} {s' : σ} (hp : act.perform s = (.ok a, s')) :
    s' = s ∧ ∃ b, x = .ok b ∧ R a b := by
  obtain ⟨r, hr, hx⟩ := h
  rw [hp] at hr
  cases hr
  exact ⟨rfl, hx.of_ok rfl⟩

theorem Computes.pure {a : ρ} {b : δ} (h : R a b) : Computes R (pure a : Act σ ρ) s (.ok b) := ⟨_, rfl, .ok h⟩

theorem Computes.throw (e : Fault) : Computes R (throw e : Act σ ρ) s (.error e) := ⟨_, rfl, .error e⟩

theorem Computes.ofExcept (x : Except Fault ρ) : Computes Eq (Act.ofExcept x) s x := by
  refine ⟨x, rfl, ?_⟩
  cases x with
  | ok a => exact .ok rfl
  | error e => exact .error e

theorem Computes.bind {R' : ρ' → δ' → Prop} (h : Computes R act s x) {next : ρ → Act σ ρ'}
    {after : δ → Except Fault δ'} (hn : ∀ a b, x = .ok b → R a b → Computes R' (next a) s (after b)) :
    Computes R' (act >>= next) s (x >>= after) := by
  obtain ⟨r, hr, hx⟩ := h
  cases hx with
  | ok hab =>
    obtain ⟨r', hr', hx'⟩ := hn _ _ rfl hab
    exact ⟨r', (perform_bind_ok hr next).trans hr', hx'⟩
  | error e => exact ⟨_, perform_bind_error hr next, .error e⟩

theorem Computes.next {a : ρ'} {act : Act σ ρ'} {next : ρ' → Act σ ρ} (hp : act.perform s = (.ok a, s))
    (hn : (next a).Computes R s x) : (act >>= next).Computes R s x :=
  hn.imp fun _ h => ⟨(perform_bind_ok hp next).trans h.1, h.2⟩

/-- what does not depend on the state stays as it is -/
theorem Computes.from {R' : ρ' → δ' → Prop} {y : Except Fault δ} {next : δ → Act σ ρ'}
    {after : δ → Except Fault δ'} (hn : ∀ a, y = .ok a → Computes R' (next a) s (after a)) :
    Computes R' (Act.ofExcept y >>= next) s (y >>= after) :=
  (Computes.ofExcept y).bind fun _ b hy he => he ▸ hn b hy

theorem Computes.mapM {ι : Type} {f : ι → Act σ ρ} {g : ι → Except Fault δ} {xs : List ι}
    (h : ∀ i ∈ xs, Computes R (f i) s (g i)) : Computes (List.Forall₂ R) (xs.mapM f) s (xs.mapM g) := by
  induction xs with
  | nil => exact Computes.pure .nil
  | cons i rest ih =>
    rw [List.mapM_cons, List.mapM_cons]
    refine (h i List.mem_cons_self).bind fun a b _ hab => ?_
    refine (ih fun j hj => h j (List.mem_cons_of_mem _ hj)).bind fun as bs _ hrest => ?_
    exact Computes.pure (.cons hab hrest)

end Act

/-- computes something from each of some values that are nodes -/
def eachNode {δ : Type} (f : Node → Except Fault δ) (vs : List Value) : Except Fault (List δ) :=
  vs.mapM fun v => do f (← v.asNode)

namespace Traversal

variable {τ ρ δ : Type} {s : Traversal τ} {R : ρ → δ → Prop}

theorem computes_visitAll {visit : Node → Act (Traversal τ) ρ} {f : Node → Except Fault δ}
    (h : ∀ n, (visit n).Computes R s (f n)) (vs : List Value) :
    (visitAll visit vs).Computes (List.Forall₂ R) s (eachNode f vs) := by
  unfold eachNode
  induction vs with
  | nil => exact .pure .nil
  | cons v rest ih =>
    rw [List.mapM_cons, visitAll, bind_assoc]
    refine Act.Computes.from fun n _ => (h n).bind fun a b _ hab => ?_
    exact ih.bind fun as bs _ hrest => .pure (.cons hab hrest)

/-- a handler finds its own node at the end of the path -/
theorem perform_pathTo {kind : Kind} {n : Node} {above : NodeStack} (hs : s.stack = n :: above)
    (hn : n.kind? = some kind) : (pathTo kind : Act (Traversal τ) _).perform s = (.ok (n :: above).reverse, s) := by
  have htag : n.tag? = some (.known kind) := by
    cases n with
    | known k attributes => exact congrArg (Option.map Tag.known) hn
    | unknown k object => cases hn
  simp only [pathTo, Act.perform_ofOutcome, hs, NodeStack.path, htag, if_true]

end Traversal

/-! ## Visitors -/

namespace Visitor

section

variable {ρ : Type}

theorem handlerFor_intercept (v : Visitor ρ) (around : Node → ρ → ρ) (n : Node) :
    (v.intercept around).handlerFor n = wrapped around (v.handlerFor n) := by
  unfold handlerFor intercept
  cases n.tag? with
  | none => rfl
  | some tag =>
    simp only [Option.bind_some, OrderedMap.get?_mapValues]
    cases v.handlers.get? tag <;> rfl

def ofKinds (answer : Node → ρ) (handlers : List (Kind × Handler ρ)) : Visitor ρ :=
  (constant answer []).extend (handlers.map fun h => (.known h.1, h.2))

theorem handlerFor_ofKinds (answer : Node → ρ) {handlers : List (Kind × Handler ρ)}
    (hd : (handlers.map Prod.fst).Nodup) (n : Node) :
    (ofKinds answer handlers).handlerFor n =
      (n.kind?.bind fun k => OrderedMap.lookupIn k handlers).getD fun n _ => answer n := by
  have hinj : ∀ a b, Tag.known a = Tag.known b → a = b := fun _ _ h => Tag.known.inj h
  have hd' : ((handlers.map fun h => (Tag.known h.1, h.2)).map Prod.fst).Nodup := by
    have h := List.Nodup.map (fun a b => hinj a b) hd
    rwa [List.map_map] at h ⊢
  have hget : ∀ tag, (ofKinds answer handlers).handlers.get? tag =
      OrderedMap.lookupIn tag (handlers.map fun h => (Tag.known h.1, h.2)) := OrderedMap.get?_ofList_eq hd'
  cases n with
  | known k attributes =>
    change ((ofKinds answer handlers).handlers.get? (.known k)).getD _ = _
    rw [hget, OrderedMap.lookupIn_map_keys hinj]
    rfl
  | unknown k object =>
    have hnone : ∀ t, OrderedMap.lookupIn (Tag.named t) (handlers.map fun h => (Tag.known h.1, h.2)) = none := by
      intro t
      clear hd hd' hget
      induction handlers with
      | nil => rfl
      | cons h rest ih => simp [OrderedMap.lookupIn, ih]
    cases k with
    | text t =>
      change ((ofKinds answer handlers).handlers.get? (.named t)).getD _ = _
      rw [hget, hnone]
      rfl
    | _ => rfl

end

section

variable {τ ρ δ : Type} {s : Traversal τ} {R : ρ → δ → Prop}

/-- a handler runs with its node on the stack, which is taken off again however the handler ends -/
theorem perform_keepingStack (v : Visitor (Act (Traversal τ) ρ)) (n : Node) (visit : Node → Act (Traversal τ) ρ)
    (s : Traversal τ) : (v.keepingStack.handlerFor n n visit).perform s =
      (((v.handlerFor n n visit).perform (s.push n)).1, ((v.handlerFor n n visit).perform (s.push n)).2.pop) := by
  rw [keepingStack, handlerFor_intercept]
  change (Act.change (Traversal.push n) >>= fun _ => Act.ensuring (v.handlerFor n n visit) Traversal.pop).perform s = _
  rw [Act.perform_bind_ok (Act.perform_change _ s), Act.perform_ensuring]

/-- a handler that computes with its node on the stack computes below it -/
theorem computes_keepingStack {v : Visitor (Act (Traversal τ) ρ)} {n : Node} {visit : Node → Act (Traversal τ) ρ}
    {x : Except Fault δ} (h : (v.handlerFor n n visit).Computes R (s.push n) x) :
    (v.keepingStack.handlerFor n n visit).Computes R s x := by
  obtain ⟨r, hr, hx⟩ := h
  refine ⟨r, ?_, hx⟩
  rw [perform_keepingStack, hr]
  rfl

/-- a visitor computes at any depth if its handlers do as long as the visits nested in them do, and if in the states
that matter it does no more than keep the stack -/
theorem computes_visit (w v : Visitor (Act (Traversal τ) ρ)) (Good : Traversal τ → Prop)
    (compute : Nat → NodeStack → Node → Except Fault δ)
    (hw : ∀ n visit s, Good s → (w.handlerFor n n visit).perform s = (v.keepingStack.handlerFor n n visit).perform s)
    (hpush : ∀ n s, Good s → Good (s.push n)) (hzero : ∀ above n, compute 0 above n = .error .nestingTooDeep)
    (hv : ∀ depth n above visit s, Good s → s.stack = n :: above →
      (∀ m, (visit m).Computes R s (compute depth (n :: above) m)) →
      (v.handlerFor n n visit).Computes R s (compute (depth + 1) above n))
    (depth : Nat) (n : Node) (s : Traversal τ) (hs : Good s) :
    (w.visit (throw .nestingTooDeep) depth n).Computes R s (compute depth s.stack n) := by
  induction depth generalizing n s with
  | zero =>
    rw [hzero]
    exact .throw _
  | succ depth ih =>
    have hinner : (v.handlerFor n n (w.visit (throw .nestingTooDeep) depth)).Computes R (s.push n)
        (compute (depth + 1) s.stack n) :=
      hv depth n s.stack _ (s.push n) (hpush n s hs) rfl fun m => ih m (s.push n) (hpush n s hs)
    obtain ⟨r, hr, hx⟩ := computes_keepingStack hinner
    exact ⟨r, (hw n _ s hs).trans hr, hx⟩

/-- once the links are known, keeping them does nothing -/
theorem perform_keepingLinks (v : Visitor (Act (Traversal τ) ρ)) (n : Node) (visit : Node → Act (Traversal τ) ρ)
    (hs : s.linked = true) :
    (v.keepingLinks.handlerFor n n visit).perform s = (v.handlerFor n n visit).perform s := by
  rw [keepingLinks, handlerFor_intercept]
  change (Traversal.fillLinks n >>= fun _ => v.handlerFor n n visit).perform s = _
  have hfill : (Traversal.fillLinks n).perform s = (.ok (), s) := by
    simp only [Traversal.fillLinks, Act.perform_ofOutcome, hs, if_true]
  rw [Act.perform_bind_ok hfill]

/-- a first visit that answers has recorded all links before its handler ran -/
theorem keepingLinks_ok {v : Visitor (Act (Traversal τ) ρ)} {n : Node} {visit : Node → Act (Traversal τ) ρ}
    (hs : s.linked = false) {a : ρ} {s' : Traversal τ}
    (h : (v.keepingLinks.handlerFor n n visit).perform s = (.ok a, s')) :
    ∃ links, (LinkTable.recordTree n).perform s.links = (.ok (), links) ∧
      (v.handlerFor n n visit).perform { s with linked := true, links } = (.ok a, s') := by
  rw [keepingLinks, handlerFor_intercept] at h
  obtain ⟨u, t, hfill, h⟩ := Act.bind_eq_ok.1 h
  simp only [Traversal.fillLinks, Act.perform_ofOutcome, hs, Bool.false_eq_true, if_false, Prod.mk.injEq] at hfill
  obtain ⟨hr, rfl⟩ := hfill
  exact ⟨_, Prod.ext hr rfl, h⟩

end

end Visitor

end InterfacePages

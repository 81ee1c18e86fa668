/-
Visits without their state.

A visitor whose handlers compute is a function of the node, the link table and the nodes above. What is recorded before
the first handler runs is a function of the node as well (`LinkTable.recorded`), so the outcome of a first visit is one
(`Visitor.perform_start`).

Merging looks at the pages that go in and not at the maps they come from (`PageMap.merge_congr`), so maps without pages
make no difference.
-/
import InterfacePages.Proofs.LinkRecording
import InterfacePages.Proofs.ModuleWrapping
import InterfacePages.Proofs.TreeListings

namespace InterfacePages

/-! ## Outcomes -/

theorem Agree.refl {ε ρ : Type} {R : ρ → ρ → Prop} (h : ∀ a, R a a) (x : Except ε ρ) : Agree R x x := by
  cases x with
  | ok a => exact .ok (h a)
  | error e => exact .error e

theorem Agree.eq {ε ρ : Type} {x y : Except ε ρ} (h : Agree Eq x y) : x = y := by
  cases h with
  | ok h => rw [h]
  | error e => rfl

theorem Agree.imp {ε ρ δ : Type} {R S : ρ → δ → Prop} {x : Except ε ρ} {y : Except ε δ} (h : Agree R x y)
    (himp : ∀ a b, R a b → S a b) : Agree S x y := by
  cases h with
  | ok h => exact .ok (himp _ _ h)
  | error e => exact .error e

theorem Agree.bind_both {ε α α' ρ ρ' δ δ' : Type} {R : ρ → δ → Prop} {R' : ρ' → δ' → Prop} {x : Except ε α}
    {f : α → Except ε ρ} {y : Except ε α'} {g : α' → Except ε δ} (h : Agree R (x >>= f) (y >>= g))
    {next : ρ → Except ε ρ'} {after : δ → Except ε δ'} (hn : ∀ a b, R a b → Agree R' (next a) (after b)) :
    Agree R' (x >>= fun v => f v >>= next) (y >>= fun v => g v >>= after) := by
  rw [← bind_assoc, ← bind_assoc]
  exact h.bind hn

/-- related answers are those of the two outcomes -/
theorem Agree.outcomes {ε ρ δ : Type} {R : ρ → δ → Prop} {x : Except ε ρ} {y : Except ε δ} (h : Agree R x y) :
    Agree (fun a b => R a b ∧ x = .ok a ∧ y = .ok b) x y := by
  cases h with
  | ok h => exact .ok ⟨h, rfl, rfl⟩
  | error e => exact .error e

theorem Agree.mapM {ε ι ι' ρ δ : Type} {R : ι → ι' → Prop} {S : ρ → δ → Prop} {f : ι → Except ε ρ}
    {g : ι' → Except ε δ} {xs : List ι} {ys : List ι'} (h : List.Forall₂ R xs ys)
    (hfg : ∀ x ∈ xs, ∀ y ∈ ys, R x y → Agree S (f x) (g y)) :
    Agree (List.Forall₂ S) (xs.mapM f) (ys.mapM g) := by
  induction h with
  | nil => exact .ok .nil
  | cons hxy _ ih =>
    have hrest := ih fun x hx y hy => hfg x (List.mem_cons_of_mem _ hx) y (List.mem_cons_of_mem _ hy)
    rw [List.mapM_cons, List.mapM_cons]
    refine (hfg _ List.mem_cons_self _ List.mem_cons_self hxy).bind fun a b hab => ?_
    exact hrest.bind fun as bs hs => .ok (.cons hab hs)

/-- what comes after related outcomes is the same if it is the same for what is answered -/
theorem Agree.bind_eq {ε ρ δ τ : Type} {R : ρ → δ → Prop} {x : Except ε ρ} {y : Except ε δ} (h : Agree R x y)
    {next : ρ → Except ε τ} {after : δ → Except ε τ} (hn : ∀ a b, x = .ok a → y = .ok b → R a b → next a = after b) :
    x >>= next = y >>= after := by
  cases h with
  | ok h => exact hn _ _ rfl rfl h
  | error e => rfl

theorem mapM_eq_of_forall₂ {ε ι ι' ρ : Type} {R : ι → ι' → Prop} {f : ι → Except ε ρ} {g : ι' → Except ε ρ}
    {xs : List ι} {ys : List ι'} (h : List.Forall₂ R xs ys) (hfg : ∀ x ∈ xs, ∀ y ∈ ys, R x y → f x = g y) :
    xs.mapM f = ys.mapM g := by
  have hall : Agree (List.Forall₂ Eq) (xs.mapM f) (ys.mapM g) :=
    .mapM h fun x hx y hy hxy => hfg x hx y hy hxy ▸ .refl (fun _ => rfl) _
  rw [List.forall₂_eq_eq_eq] at hall
  exact hall.eq

/-- what comes after the same outcome is the same if it is the same for what is answered -/
theorem bind_congr_ok {ε ρ τ : Type} {x : Except ε ρ} {f g : ρ → Except ε τ} (h : ∀ a, x = .ok a → f a = g a) :
    x >>= f = x >>= g := by
  cases x with
  | ok a => exact h a rfl
  | error e => rfl

theorem eachNode_congr {δ : Type} {f g : Node → Except Fault δ} {vs : List Value}
    (h : ∀ v ∈ vs, ∀ m, v.asNode = .ok m → f m = g m) : eachNode f vs = eachNode g vs :=
  Node.mapM_congr fun v hv => bind_congr_ok fun m hm => h v hv m hm

namespace Traversal

variable {τ ρ : Type} {s : Traversal τ}

theorem computes_mapM_eq {visit : Node → Act (Traversal τ) ρ} {f : Node → Except Fault ρ}
    (h : ∀ n, (visit n).Computes Eq s (f n)) (ns : List Node) : (ns.mapM visit).Computes Eq s (ns.mapM f) := by
  have hmap : (ns.mapM visit).Computes (List.Forall₂ Eq) s (ns.mapM f) := .mapM fun n _ => h n
  rwa [List.forall₂_eq_eq_eq] at hmap

theorem computes_visitAll_eq {visit : Node → Act (Traversal τ) ρ} {f : Node → Except Fault ρ}
    (h : ∀ n, (visit n).Computes Eq s (f n)) (vs : List Value) :
    (visitAll visit vs).Computes Eq s (eachNode f vs) := by
  have hall := computes_visitAll h vs
  rwa [List.forall₂_eq_eq_eq] at hall

end Traversal

def LinkTable.recorded (n : Node) : Except Fault LinkTable := do return fileAll (← treeEntries n) .empty

theorem LinkTable.recorded_eq_ok {n : Node} {links : LinkTable} :
    recorded n = .ok links ↔ ∃ ps ess, n.programs = .ok ps ∧ ps.mapM entriesOf = .ok ess ∧
      links = fileAll ess.flatten .empty := by
  constructor
  · intro h
    obtain ⟨es, hes, h⟩ := except_bind_ok.1 h
    obtain ⟨ps, hps, hes⟩ := except_bind_ok.1 hes
    obtain ⟨ess, hess, hes⟩ := except_bind_ok.1 hes
    cases hes
    exact ⟨ps, ess, hps, hess, (Except.ok.inj h).symm⟩
  · rintro ⟨ps, ess, hps, hess, rfl⟩
    exact except_bind_ok.2 ⟨_, except_bind_ok.2 ⟨ps, hps, except_bind_ok.2 ⟨ess, hess, rfl⟩⟩, rfl⟩

/-- a visitor that keeps links and a stack starts with the table of its node and the node on the stack -/
theorem Visitor.perform_start {ρ : Type} (v : Visitor (Act (Traversal Unit) ρ)) (n : Node)
    (visit : Node → Act (Traversal Unit) ρ) :
    ((v.keepingLinks.handlerFor n n visit).perform (Traversal.start ())).1 =
      LinkTable.recorded n >>= fun links => ((v.handlerFor n n visit).perform ⟨[], links, true, ()⟩).1 := by
  obtain ⟨es, hrecord, hall⟩ := LinkTable.recordTree_files n
  have hfill : (Traversal.fillLinks n).perform (Traversal.start ()) =
      ((LinkTable.treeEntries n).map fun _ => (), ⟨[], LinkTable.fileAll es .empty, true, ()⟩) := by
    simp only [Traversal.fillLinks, Act.perform_ofOutcome, Traversal.start, Bool.false_eq_true, if_false, hrecord]
  rw [perform_keepingLinks_eq, Act.perform_bind, hfill, LinkTable.recorded]
  cases hentries : LinkTable.treeEntries n with
  | error e => rfl
  | ok all =>
    rw [hall all hentries]
    rfl

namespace PageMap

/-- two lists of maps hold the same pages, one after another -/
def SamePages (ms ms' : List PageMap) : Prop := ms.flatMap (·.entries) = ms'.flatMap (·.entries)

theorem SamePages.append {ms ms' ns ns' : List PageMap} (h : SamePages ms ms') (h' : SamePages ns ns') :
    SamePages (ms ++ ns) (ms' ++ ns') := by
  unfold SamePages
  rw [List.flatMap_append, List.flatMap_append, h, h']

theorem merge_congr {ms ms' : List PageMap} (h : SamePages ms ms') : merge ms = merge ms' := by
  unfold merge mergeWith
  rw [h]

/-- the maps of the same nodes, made in two ways that do the same to them -/
theorem mapM_agree {x : Except Fault (List Node)} {f g : Node → Except Fault PageMap}
    (h : ∀ ns, x = .ok ns → ∀ n ∈ ns, f n = g n) :
    Agree SamePages (x >>= fun ns => ns.mapM f) (x >>= fun ns => ns.mapM g) := by
  have hsame : (x >>= fun ns => ns.mapM f) = x >>= fun ns => ns.mapM g :=
    bind_congr_ok fun ns hns => Node.mapM_congr (h ns hns)
  rw [hsame]
  exact .refl (fun ms => (rfl : SamePages ms ms)) _

end PageMap

end InterfacePages

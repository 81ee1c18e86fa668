/-
One module for each page of hooks.

The wrapper that makes modules is around every handler, so it runs at every visit, and whether it does anything depends
on a stack that an inner wrapper keeps. `visitor_inside`: below an outermost visit it does nothing, so nested visits are
those of the visitor without it (`bare`). `perform_explore`: an outermost visit therefore answers what that visitor
answers, with one module made of each page, and it leaves the stack empty however it ends. `modules_made_once` puts
both together for visits one after another, failed ones among them.
-/
import InterfacePages.Proofs.PagePaths

namespace InterfacePages

/-! ## Actions that do the same -/

namespace Act

variable {σ ρ ρ' : Type} {s : σ} {act act' : Act σ ρ}

theorem computes_eq {r : Except Fault ρ} : act.Computes Eq s r ↔ act.perform s = (r, s) := by
  constructor
  · rintro ⟨q, hq, h⟩
    cases h with
    | ok h => rw [hq, h]
    | error e => exact hq
  · intro h
    cases r with
    | ok a => exact ⟨.ok a, h, .ok rfl⟩
    | error e => exact ⟨.error e, h, .error e⟩

/-- two actions have the same outcome in a state and leave it as it was -/
def Alike (s : σ) (act act' : Act σ ρ) : Prop := ∃ r, act.perform s = (r, s) ∧ act'.perform s = (r, s)

theorem Alike.of_computes {δ : Type} {R : ρ → δ → Prop} {x : Except Fault δ} (h : act.Computes R s x) :
    Alike s act act := by
  obtain ⟨r, hr, -⟩ := h
  exact ⟨r, hr, hr⟩

theorem Alike.pure (a : ρ) : Alike s (pure a : Act σ ρ) (pure a) := ⟨.ok a, rfl, rfl⟩

theorem Alike.ofExcept (x : Except Fault ρ) : Alike s (Act.ofExcept x) (Act.ofExcept x) := ⟨x, rfl, rfl⟩

theorem Alike.bind (h : Alike s act act') {next next' : ρ → Act σ ρ'} (hn : ∀ a, Alike s (next a) (next' a)) :
    Alike s (act >>= next) (act' >>= next') := by
  obtain ⟨r, hr, hr'⟩ := h
  cases r with
  | error e => exact ⟨.error e, perform_bind_error hr next, perform_bind_error hr' next'⟩
  | ok a =>
    obtain ⟨q, hq, hq'⟩ := hn a
    exact ⟨q, (perform_bind_ok hr next).trans hq, (perform_bind_ok hr' next').trans hq'⟩

theorem Alike.mapM {ι : Type} {f f' : ι → Act σ ρ} (h : ∀ i, Alike s (f i) (f' i)) (xs : List ι) :
    Alike s (xs.mapM f) (xs.mapM f') := by
  induction xs with
  | nil => exact .pure []
  | cons i rest ih =>
    rw [List.mapM_cons, List.mapM_cons]
    exact (h i).bind fun a => ih.bind fun as => .pure (a :: as)

end Act

namespace Traversal

variable {τ ρ : Type} {s : Traversal τ}

theorem visitAll_alike {visit visit' : Node → Act (Traversal τ) ρ} (h : ∀ n, Act.Alike s (visit n) (visit' n))
    (vs : List Value) : Act.Alike s (visitAll visit vs) (visitAll visit' vs) := by
  induction vs with
  | nil => exact .pure []
  | cons v rest ih =>
    unfold visitAll
    refine (Act.Alike.ofExcept v.asNode).bind fun n => (h n).bind fun a => ?_
    exact ih.bind fun as => .pure (a :: as)

/-- filling the links leaves the stack alone and is done once -/
theorem fillLinks_state (n : Node) (s : Traversal τ) :
    ((fillLinks n).perform s).2.linked = true ∧ ((fillLinks n).perform s).2.stack = s.stack := by
  cases hl : s.linked with
  | true =>
    simp only [fillLinks, Act.perform_ofOutcome, hl, if_true]
    exact ⟨trivial, trivial⟩
  | false =>
    simp only [fillLinks, Act.perform_ofOutcome, hl, Bool.false_eq_true, if_false]
    exact ⟨trivial, trivial⟩

end Traversal

namespace Visitor

variable {τ ρ : Type}

theorem keepingStack_alike {v : Visitor (Act (Traversal τ) ρ)} {n : Node} {s : Traversal τ}
    {visit visit' : Node → Act (Traversal τ) ρ}
    (h : Act.Alike (s.push n) (v.handlerFor n n visit) (v.handlerFor n n visit')) :
    Act.Alike s (v.keepingStack.handlerFor n n visit) (v.keepingStack.handlerFor n n visit') := by
  obtain ⟨r, hr, hr'⟩ := h
  refine ⟨r, Act.computes_eq.1 ?_, Act.computes_eq.1 ?_⟩
  · exact computes_keepingStack (Act.computes_eq.2 hr)
  · exact computes_keepingStack (Act.computes_eq.2 hr')

/-- keeping links fills the table and goes on, at every visit -/
theorem perform_keepingLinks_eq (v : Visitor (Act (Traversal τ) ρ)) (n : Node) (visit : Node → Act (Traversal τ) ρ)
    (s : Traversal τ) : (v.keepingLinks.handlerFor n n visit).perform s =
      (Traversal.fillLinks n >>= fun _ => v.handlerFor n n visit).perform s := by
  rw [keepingLinks, handlerFor_intercept]
  rfl

/-- the state that some visits leave, one after another, whether they answered or failed -/
def after (v : Visitor (Act (Traversal τ) ρ)) (ns : List Node) (s : Traversal τ) : Traversal τ :=
  ns.foldl (fun s n => ((v.explore n).perform s).2) s

@[simp]
theorem after_nil (v : Visitor (Act (Traversal τ) ρ)) (s : Traversal τ) : v.after [] s = s := rfl

@[simp]
theorem after_cons (v : Visitor (Act (Traversal τ) ρ)) (n : Node) (ns : List Node) (s : Traversal τ) :
    v.after (n :: ns) s = v.after ns ((v.explore n).perform s).2 := rfl

end Visitor

namespace Hooks

open PageMap (Draft Holds contentsAt)

variable {naming : Naming} {links : LinkTable} {s : Traversal Unit} {n : Node} {above : NodeStack}

/-! ## Nested visits -/

section

variable {visit visit' : Node → Rendering}

theorem withScope_alike {ρ : Type} (f : Scope → Except Fault ρ) :
    Act.Alike s (withScope naming f) (withScope naming f) := ⟨f ⟨naming, s.links⟩, rfl, rfl⟩

theorem onProgram_alike (hv : ∀ m, Act.Alike s (visit m) (visit' m)) (n : Node) :
    Act.Alike s (onProgram naming n visit) (onProgram naming n visit') := by
  refine (withScope_alike _).bind fun own => ?_
  refine (Act.Alike.ofExcept _).bind fun _ => (Traversal.visitAll_alike hv _).bind fun pdas => ?_
  refine (Act.Alike.ofExcept _).bind fun _ => (Traversal.visitAll_alike hv _).bind fun accounts => ?_
  refine (Act.Alike.ofExcept _).bind fun leaves => (Act.Alike.mapM hv leaves).bind fun instructions => ?_
  exact .pure _

theorem onRoot_alike (hv : ∀ m, Act.Alike s (visit m) (visit' m)) (n : Node) :
    Act.Alike s (onRoot n visit) (onRoot n visit') := by
  refine (Act.Alike.ofExcept _).bind fun own => ?_
  refine (Act.Alike.ofExcept _).bind fun programs => (Act.Alike.mapM hv programs).bind fun pages => ?_
  exact .pure _

/-- a handler does the same for visits that do the same -/
theorem base_alike (naming : Naming) (hs : s.stack = n :: above) (hv : ∀ m, Act.Alike s (visit m) (visit' m)) :
    Act.Alike s ((base naming).handlerFor n n visit) ((base naming).handlerFor n n visit') := by
  rw [base, Visitor.handlerFor_ofKinds _ (by simp [handlers])]
  have hnone : Act.Alike s (return OrderedMap.empty : Rendering) (return OrderedMap.empty) := .pure _
  cases hk : n.kind? with
  | none => exact hnone
  | some k =>
    cases k with
    | account => exact .of_computes (onMember_computes (fun scope path => account scope path n) hs rfl hk)
    | instruction => exact .of_computes (onMember_computes (fun scope _ => instruction scope n) hs rfl hk)
    | pda => exact .of_computes (onMember_computes (fun scope _ => address scope n) hs rfl hk)
    | program => exact onProgram_alike hv n
    | root => exact onRoot_alike hv n
    | _ => exact hnone

end

/-- the visitor that makes the hooks of each path and no modules -/
def bare (naming : Naming) : Visitor Rendering := (bodies naming).keepingLinks

/-- below another visit no modules are made -/
theorem visitor_inside (resolver : Resolver) (depth : Nat) (n : Node) (s : Traversal Unit) (hl : s.linked = true)
    (hs : s.stack ≠ []) : Act.Alike s ((visitor naming resolver).visit (throw .nestingTooDeep) depth n)
      ((bare naming).visit (throw .nestingTooDeep) depth n) := by
  induction depth generalizing n s with
  | zero => exact ⟨_, rfl, rfl⟩
  | succ depth ih =>
    have hnested : ∀ m, Act.Alike (s.push n) ((visitor naming resolver).visit (throw .nestingTooDeep) depth m)
        ((bare naming).visit (throw .nestingTooDeep) depth m) :=
      fun m => ih m (s.push n) hl (List.cons_ne_nil n s.stack)
    obtain ⟨r, hr, hr'⟩ := Visitor.keepingStack_alike (base_alike naming rfl hnested)
    refine ⟨r, ?_, ?_⟩
    · exact (perform_visitor_inside n _ hl hs).trans hr
    · exact (Visitor.perform_keepingLinks _ n _ hl).trans hr'

/-! ## Outermost visits -/

/-- where no visit is in progress, the pages become modules -/
theorem perform_wrapping {resolver : Resolver} {v : Visitor Rendering} {visit : Node → Rendering}
    {r : Except Fault PageMap} (hs : s.stack = []) (h : (v.handlerFor n n visit).perform s = (r, s)) :
    ((wrapping resolver v).handlerFor n n visit).perform s = (r >>= modules resolver, s) := by
  rw [wrapping, Visitor.handlerFor_intercept]
  change (get >>= fun t : Traversal Unit => v.handlerFor n n visit >>= fun pages =>
    if t.stack.isEmpty then Act.ofExcept (modules resolver pages) else pure pages).perform s = _
  rw [Act.perform_bind_ok (Act.perform_get s), hs, Act.perform_bind, h]
  cases r with
  | error e => rfl
  | ok pages => rfl

/-- an outermost visit makes one module of each page that it would answer without modules, and leaves the stack empty -/
theorem perform_explore (naming : Naming) (resolver : Resolver) (n : Node) (hs : s.stack = []) :
    ∃ r t, ((bare naming).explore n).perform s = (r, t) ∧
      ((visitor naming resolver).explore n).perform s = (r >>= modules resolver, t) ∧ t.stack = [] ∧
      ∀ merged, r = .ok merged → ∃ ds, drafts naming t.links (n.height + 1) [] n = .ok ds ∧ Holds merged ds := by
  obtain ⟨hlinked, hstack⟩ := Traversal.fillLinks_state n s
  rw [hs] at hstack
  unfold Visitor.explore Visitor.visit
  rw [bare, visitor, Visitor.perform_keepingLinks_eq, Visitor.perform_keepingLinks_eq]
  rcases hfill : (Traversal.fillLinks n).perform s with ⟨e | u, t⟩
  · -- the links could not be recorded, so no handler runs
    rw [hfill] at hstack
    exact ⟨.error e, t, Act.perform_bind_error hfill _, Act.perform_bind_error hfill _, hstack, fun _ h => by cases h⟩
  · rw [hfill] at hlinked hstack
    have hnested : ∀ m, Act.Alike (t.push n) ((visitor naming resolver).visit (throw .nestingTooDeep) n.height m)
        ((bare naming).visit (throw .nestingTooDeep) n.height m) :=
      fun m => visitor_inside resolver n.height m (t.push n) hlinked (List.cons_ne_nil n t.stack)
    obtain ⟨r, hr, hr'⟩ := Visitor.keepingStack_alike (base_alike naming rfl hnested)
    have hcomputes := Visitor.computes_keepingStack (base_computes naming n.height rfl rfl fun m =>
      visitor_computes_inside resolver (s := t.push n) n.height m hlinked (List.cons_ne_nil n t.stack))
    refine ⟨r, t, ?_, ?_, hstack, fun merged hmerged => ?_⟩
    · rw [Act.perform_bind_ok hfill]
      exact hr'
    · rw [Act.perform_bind_ok hfill]
      exact perform_wrapping hstack hr
    · subst hmerged
      obtain ⟨-, ds, hds, hh⟩ := hcomputes.ok hr
      exact ⟨ds, hstack ▸ hds, hh⟩

/-- after visits one after another the stack is empty, and the state is the one that visits without modules leave -/
theorem after_visits (naming : Naming) (resolver : Resolver) (earlier : List Node) (hs : s.stack = []) :
    (visitor naming resolver).after earlier s = (bare naming).after earlier s ∧
      ((visitor naming resolver).after earlier s).stack = [] := by
  induction earlier generalizing s with
  | nil =>
    rw [Visitor.after_nil, Visitor.after_nil]
    exact ⟨rfl, hs⟩
  | cons n rest ih =>
    obtain ⟨r, t, hbare, hvisitor, ht, -⟩ := perform_explore naming resolver n hs
    rw [Visitor.after_cons, Visitor.after_cons, hbare, hvisitor]
    exact ih ht

/-- the pages of some hooks and the modules made of them: one for each page, with all drafts of its path -/
structure OneModuleEach (resolver : Resolver) (ds : List Draft) (merged wrapped : PageMap) : Prop where
  /-- the modules are on the paths of the pages, in the same order -/
  keys : wrapped.keys = merged.keys
  /-- there is a page where a draft is for its path -/
  paths : ∀ path, path ∈ merged.keys ↔ path ∈ ds.map Prod.fst
  /-- a page has the hooks of all drafts of its path, in the order of the visits that made them -/
  contents : ∀ path body, merged.get? path = some body → body.content = Text.joinParagraphs (contentsAt path ds)
  /-- the module of a page is made of it once, for the depth of its path -/
  modules : ∀ path body, merged.get? path = some body →
    ∃ d, depth path = .ok d ∧ wrapped.get? path = some (module (resolver.atDepth d) body)

theorem oneModuleEach {resolver : Resolver} {ds : List Draft} {merged wrapped : PageMap} (hh : Holds merged ds)
    (hw : modules resolver merged = .ok wrapped) : OneModuleEach resolver ds merged wrapped := by
  obtain ⟨hkeys, hvalues⟩ := OrderedMap.tryMap_eq_ok hw
  refine ⟨hkeys, hh.paths, fun path body hb => ?_, fun path body hb => ?_⟩
  · have hcontents := hh.contents path
    rw [PageMap.contentsAt_entries, hb] at hcontents
    exact hcontents
  · obtain ⟨page, hpage⟩ : ∃ page, wrapped.get? path = some page := by
      rw [← OrderedMap.mem_keys, hkeys, OrderedMap.mem_keys]
      exact ⟨body, hb⟩
    obtain ⟨body', hb', hmade⟩ := hvalues path page hpage
    rw [hb] at hb'
    cases hb'
    obtain ⟨d, hd, hmade⟩ := except_bind_ok.1 hmade
    cases hmade
    exact ⟨d, hd, hpage⟩

/-- **Every module is made once.** Visits one after another, whether they answer or fail, leave the same state with the
visitor that makes modules and the one that does not, and the next visit of any node fails with both in the same way or
answers with both; then each page of the one is a module of the other, made once, and it has the hooks of all drafts
that were made for its path, in the order of the visits. -/
theorem modules_made_once (naming : Naming) (resolver : Resolver) (earlier : List Node) (n : Node) :
    ∃ s r t, (visitor naming resolver).after earlier (.start ()) = s ∧ (bare naming).after earlier (.start ()) = s ∧
      ((bare naming).explore n).perform s = (r, t) ∧
      ((visitor naming resolver).explore n).perform s = (r >>= modules resolver, t) ∧
      ∀ merged, r = .ok merged → ∃ ds wrapped, drafts naming t.links (n.height + 1) [] n = .ok ds ∧
        modules resolver merged = .ok wrapped ∧ OneModuleEach resolver ds merged wrapped := by
  obtain ⟨hsame, hempty⟩ := after_visits naming resolver earlier (s := .start ()) rfl
  obtain ⟨r, t, hbare, hvisitor, -, hdrafts⟩ := perform_explore naming resolver n hempty
  refine ⟨_, r, t, rfl, hsame.symm, hbare, hvisitor, fun merged hmerged => ?_⟩
  obtain ⟨ds, hds, hh⟩ := hdrafts merged hmerged
  have hplaced := drafts_placed naming t.links _ [] n ds hds
  obtain ⟨wrapped, hw⟩ := modules_total resolver (hplaced.pages hh)
  exact ⟨ds, wrapped, hds, hw, oneModuleEach hh hw⟩

end Hooks

end InterfacePages

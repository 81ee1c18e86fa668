/-
What visits log while they keep a stack.

A tracer around every handler logs when the handler begins, with the path to its node, and when it answers; around the
tracer the stack is kept. A `Course` is all that a handler may do: it looks at the stack and at a state of its own, which
it may change, visits nodes one after another, and at last answers or fails. `Runs` tells, without a stack and without a
log, which calls the visits of a course come to, each with the calls inside it, up to the first failure.

`visits_logged`: visits one after another log the calls they come to, each between its two events, and leave the stack
as it was. So the nodes are entered in preorder, each at the end of the path to it, and those whose handlers answer are
left again.
-/
import InterfacePages.Proofs.NodeHeights
import InterfacePages.Proofs.Visiting

namespace InterfacePages

/-! ## Logs -/

/-- what is logged of a handler: that it begins, with the path to its node, or that it answers -/
inductive Event where
  | enter (n : Node) (path : List Node)
  | exit (n : Node)

namespace Event

/-- the node that is entered, with the path to it -/
def entered : Event → Option (Node × List Node)
  | enter n path => some (n, path)
  | exit _ => none

def exited : Event → Option Node
  | enter _ _ => none
  | exit n => some n

end Event

/-- what a traced traversal keeps besides the stack: the log, and what the handlers keep for themselves -/
structure Traced (σ : Type) where
  log : List Event
  own : σ

namespace Traversal

variable {σ : Type}

/-- the state after some more events, with another state of the handlers' own -/
def logging (s : Traversal (Traced σ)) (es : List Event) (own : σ) : Traversal (Traced σ) :=
  { s with extra := ⟨s.extra.log ++ es, own⟩ }

@[simp]
theorem logging_stack (s : Traversal (Traced σ)) (es : List Event) (own : σ) : (s.logging es own).stack = s.stack := rfl

@[simp]
theorem logging_own (s : Traversal (Traced σ)) (es : List Event) (own : σ) : (s.logging es own).extra.own = own := rfl

@[simp]
theorem logging_nil (s : Traversal (Traced σ)) : s.logging [] s.extra.own = s := by
  unfold logging
  rw [List.append_nil]

@[simp]
theorem logging_logging (s : Traversal (Traced σ)) (es es' : List Event) (own own' : σ) :
    (s.logging es own).logging es' own' = s.logging (es ++ es') own' := by
  unfold logging
  rw [List.append_assoc]

def path {τ : Type} : Act (Traversal τ) (List Node) := Act.ofOutcome fun s => (s.stack.path none, s)

end Traversal

namespace Visitor

variable {σ ρ : Type}

/-- logs when a handler begins, with the path to its node, and when it answers -/
def tracing (v : Visitor (Act (Traversal (Traced σ)) ρ)) : Visitor (Act (Traversal (Traced σ)) ρ) :=
  v.intercept fun n proceed => do
    let path ← Traversal.path
    Act.change fun s => s.logging [.enter n path] s.extra.own
    let answer ← proceed
    Act.change fun s => s.logging [.exit n] s.extra.own
    return answer

/-- the outcomes of visits one after another, whether they answer or fail, and the state they leave -/
def visits {τ : Type} (v : Visitor (Act (Traversal τ) ρ)) : List Node → Traversal τ → List (Except Fault ρ) × Traversal τ
  | [], s => ([], s)
  | n :: ns, s =>
    let (outcome, s') := (v.explore n).perform s
    let (outcomes, t) := visits v ns s'
    (outcome :: outcomes, t)

end Visitor

/-! ## Courses -/

/-- what a handler does: it looks at the stack and at the handlers' own state, which it may change, it visits a node and
goes on with the answer, or it is done -/
inductive Course (σ ρ : Type) where
  | done (outcome : Except Fault ρ)
  | look (change : NodeStack → σ → σ) (next : NodeStack → σ → Course σ ρ)
  | visit (n : Node) (next : ρ → Course σ ρ)

namespace Course

variable {σ ρ : Type}

/-- takes a course with a way to visit nodes -/
def run (visit : Node → Act (Traversal (Traced σ)) ρ) : Course σ ρ → Act (Traversal (Traced σ)) ρ
  | .done outcome => Act.ofExcept outcome
  | .look change next => do
    let s ← get
    Act.change fun s => s.logging [] (change s.stack s.extra.own)
    run visit (next s.stack s.extra.own)
  | .visit n next => do run visit (next (← visit n))

/-- goes on after something that may have failed -/
def after {α : Type} (x : Except Fault α) (next : α → Course σ ρ) : Course σ ρ :=
  match x with
  | .ok a => next a
  | .error e => .done (.error e)

/-- asks for the path to the innermost node, which has to be of a kind -/
def pathTo (tag : Tag) (next : List Node → Course σ ρ) : Course σ ρ :=
  .look (fun _ own => own) fun stack _ => after (stack.path (some tag)) next

/-- visits some nodes and then answers or fails -/
def each (ns : List Node) (outcome : Except Fault ρ) : Course σ ρ :=
  ns.foldr (fun n rest => .visit n fun _ => rest) (.done outcome)

def only (n : Node) : Course σ ρ := .visit n fun answer => .done (.ok answer)

/-- only nodes of a class are visited -/
def VisitsOnly (P : Node → Prop) : Course σ ρ → Prop
  | .done _ => True
  | .look _ next => ∀ stack own, VisitsOnly P (next stack own)
  | .visit n next => P n ∧ ∀ answer, VisitsOnly P (next answer)

theorem VisitsOnly.mono {P Q : Node → Prop} {course : Course σ ρ} (h : course.VisitsOnly P) (hPQ : ∀ n, P n → Q n) :
    course.VisitsOnly Q := by
  induction course with
  | done outcome => trivial
  | look change next ih => exact fun stack own => ih stack own (h stack own)
  | visit n next ih => exact ⟨hPQ n h.1, fun answer => ih answer (h.2 answer)⟩

/-- some nodes are visited in their order, all of them before there is an answer -/
def InOrder : List Node → Course σ ρ → Prop
  | ns, .done outcome => ∀ answer, outcome = .ok answer → ns = []
  | ns, .look _ next => ∀ stack own, InOrder ns (next stack own)
  | ns, .visit n next => ∃ rest, ns = n :: rest ∧ ∀ answer, InOrder rest (next answer)

theorem each_visitsOnly {P : Node → Prop} {ns : List Node} (h : ∀ n ∈ ns, P n) (outcome : Except Fault ρ) :
    (each ns outcome : Course σ ρ).VisitsOnly P := by
  induction ns with
  | nil => trivial
  | cons n rest ih => exact ⟨h n List.mem_cons_self, fun _ => ih fun m hm => h m (List.mem_cons_of_mem n hm)⟩

theorem pathTo_visitsOnly {P : Node → Prop} {tag : Tag} {next : List Node → Course σ ρ}
    (h : ∀ path, (next path).VisitsOnly P) : (pathTo tag next).VisitsOnly P := by
  intro stack own
  change (after (stack.path (some tag)) next).VisitsOnly P
  cases stack.path (some tag) with
  | ok path => exact h path
  | error e => trivial

theorem each_inOrder (ns : List Node) (outcome : Except Fault ρ) : (each ns outcome : Course σ ρ).InOrder ns := by
  induction ns with
  | nil => exact fun _ _ => rfl
  | cons n rest ih => exact ⟨rest, rfl, fun _ => ih⟩

end Course

/-- the courses that handlers take, by the name of a kind, and one for all other nodes -/
structure Courses (σ ρ : Type) where
  handlers : OrderedMap Tag (Node → Course σ ρ)
  default : Node → Course σ ρ

namespace Courses

variable {σ ρ : Type}

def courseFor (cs : Courses σ ρ) (n : Node) : Course σ ρ := (n.tag?.bind cs.handlers.get?).getD cs.default n

/-- the visitor whose handlers take some courses -/
def visitor (cs : Courses σ ρ) : Visitor (Act (Traversal (Traced σ)) ρ) :=
  ⟨cs.handlers.mapValues fun _ course n visit => (course n).run visit, fun n visit => (cs.default n).run visit⟩

theorem handlerFor_visitor (cs : Courses σ ρ) (n : Node) (visit : Node → Act (Traversal (Traced σ)) ρ) :
    cs.visitor.handlerFor n n visit = (cs.courseFor n).run visit := by
  unfold Visitor.handlerFor visitor courseFor
  cases n.tag? with
  | none => rfl
  | some tag =>
    simp only [Option.bind_some, OrderedMap.get?_mapValues]
    cases cs.handlers.get? tag <;> rfl

theorem courseFor_of_get? {cs : Courses σ ρ} {tag : Tag} {course : Node → Course σ ρ}
    (h : cs.handlers.get? tag = some course) {n : Node} (hn : n.tag? = some tag) : cs.courseFor n = course n := by
  unfold courseFor
  rw [hn, Option.bind_some, h, Option.getD_some]

/-- handlers visit only nodes below their own -/
def VisitBelow (cs : Courses σ ρ) : Prop := ∀ n, (cs.courseFor n).VisitsOnly fun m => m.height < n.height

theorem visitBelow_of_each {cs : Courses σ ρ} (hdefault : ∀ n, (cs.default n).VisitsOnly fun m => m.height < n.height)
    (hhandlers : ∀ e ∈ cs.handlers.entries, ∀ n, (e.2 n).VisitsOnly fun m => m.height < n.height) : cs.VisitBelow := by
  intro n
  unfold courseFor
  cases hcourse : n.tag?.bind cs.handlers.get? with
  | none => exact hdefault n
  | some course =>
    obtain ⟨tag, _, hget⟩ := Option.bind_eq_some_iff.1 hcourse
    exact hhandlers (tag, course) (OrderedMap.mem_entries.2 hget) n

/-- what lies below a node that may be visited at a depth may be visited one less deep -/
theorem VisitBelow.nested {cs : Courses σ ρ} (h : cs.VisitBelow) {n : Node} {depth : Nat} (hn : n.height < depth + 1) :
    (cs.courseFor n).VisitsOnly fun m => m.height < depth :=
  (h n).mono fun _ hm => Nat.lt_of_lt_of_le hm (Nat.le_of_lt_succ hn)

end Courses

/-! ## Calls -/

/-- handlers called one after another, each with the calls inside it, and whether it answered -/
inductive Calls where
  | none
  | call (n : Node) (inner : Calls) (answered : Bool) (rest : Calls)

namespace Calls

/-- what is logged of calls below the nodes in progress -/
def events (above : NodeStack) : Calls → List Event
  | none => []
  | call n inner answered rest =>
    .enter n (n :: above).reverse :: (events (n :: above) inner ++ (if answered then [.exit n] else [])) ++
      events above rest

/-- the nodes in preorder, each with the chain of the nodes whose handlers are in progress, itself last -/
def chains (above : NodeStack) : Calls → List (Node × List Node)
  | none => []
  | call n inner _ rest => (n, (n :: above).reverse) :: chains (n :: above) inner ++ chains above rest

def preorder : Calls → List Node
  | none => []
  | call n inner _ rest => n :: preorder inner ++ preorder rest

/-- the nodes whose handlers answered, in the order in which they did -/
def answers : Calls → List Node
  | none => []
  | call n inner answered rest => answers inner ++ (if answered then [n] else []) ++ answers rest

/-- every handler answered -/
def AllAnswer : Calls → Prop
  | none => True
  | call _ inner answered rest => AllAnswer inner ∧ answered = true ∧ AllAnswer rest

/-- the first failure ends all: a handler answered only if all inside it did, and nothing is called after a failure -/
def EndAtFailure : Calls → Prop
  | none => True
  | call _ inner answered rest =>
    EndAtFailure inner ∧ (answered = true → AllAnswer inner) ∧ (answered = false → rest = none) ∧ EndAtFailure rest

theorem entered_events (above : NodeStack) (calls : Calls) :
    (calls.events above).filterMap Event.entered = calls.chains above := by
  induction calls generalizing above with
  | none => rfl
  | call n inner answered rest inner_ih rest_ih =>
    have hexit : (if answered then [Event.exit n] else []).filterMap Event.entered = [] := by cases answered <;> rfl
    have henter : Event.entered (.enter n (n :: above).reverse) = some (n, (n :: above).reverse) := rfl
    rw [events, chains, List.cons_append, List.filterMap_cons_some henter, List.filterMap_append,
      List.filterMap_append, hexit, inner_ih, rest_ih, List.append_nil, List.cons_append]

theorem exited_events (above : NodeStack) (calls : Calls) :
    (calls.events above).filterMap Event.exited = calls.answers := by
  induction calls generalizing above with
  | none => rfl
  | call n inner answered rest inner_ih rest_ih =>
    have hexit : (if answered then [Event.exit n] else []).filterMap Event.exited = if answered then [n] else [] := by
      cases answered <;> rfl
    rw [events, answers, List.cons_append, List.filterMap_cons_none rfl, List.filterMap_append, List.filterMap_append,
      hexit, inner_ih, rest_ih]

theorem chains_preorder (above : NodeStack) (calls : Calls) : (calls.chains above).map Prod.fst = calls.preorder := by
  induction calls generalizing above with
  | none => rfl
  | call n inner answered rest inner_ih rest_ih =>
    rw [chains, preorder, List.cons_append, List.map_cons, List.map_append, inner_ih, rest_ih, List.cons_append]

/-- a chain goes on from the nodes in progress and ends with its own node -/
theorem chain_ends {above : NodeStack} {calls : Calls} {e : Node × List Node} (he : e ∈ calls.chains above) :
    above.reverse <+: e.2 ∧ e.2.getLast? = some e.1 := by
  induction calls generalizing above with
  | none => exact absurd he List.not_mem_nil
  | call n inner answered rest inner_ih rest_ih =>
    rw [chains, List.cons_append, List.mem_cons, List.mem_append] at he
    rcases he with rfl | he | he
    · rw [List.reverse_cons]
      exact ⟨List.prefix_append _ _, List.getLast?_concat⟩
    · obtain ⟨hbegins, hends⟩ := inner_ih he
      rw [List.reverse_cons] at hbegins
      exact ⟨(List.prefix_append _ _).trans hbegins, hends⟩
    · exact rest_ih he

end Calls

/-! ## Runs -/

variable {σ ρ : Type}

/-- the calls that a course comes to below some nodes in progress, its outcome, and what becomes of the handlers' own
state -/
inductive Runs (cs : Courses σ ρ) : NodeStack → σ → Course σ ρ → Calls → Except Fault ρ → σ → Prop
  | done (above : NodeStack) (own : σ) (outcome : Except Fault ρ) : Runs cs above own (.done outcome) .none outcome own
  | look {above : NodeStack} {own own' : σ} {change : NodeStack → σ → σ} {next : NodeStack → σ → Course σ ρ}
      {calls : Calls} {outcome : Except Fault ρ}
      (going : Runs cs above (change above own) (next above own) calls outcome own') :
      Runs cs above own (.look change next) calls outcome own'
  | answer {above : NodeStack} {own between own' : σ} {n : Node} {next : ρ → Course σ ρ} {inner calls : Calls} {a : ρ}
      {outcome : Except Fault ρ} (inside : Runs cs (n :: above) own (cs.courseFor n) inner (.ok a) between)
      (going : Runs cs above between (next a) calls outcome own') :
      Runs cs above own (.visit n next) (.call n inner true calls) outcome own'
  | fail {above : NodeStack} {own own' : σ} {n : Node} {next : ρ → Course σ ρ} {inner : Calls} {e : Fault}
      (inside : Runs cs (n :: above) own (cs.courseFor n) inner (.error e) own') :
      Runs cs above own (.visit n next) (.call n inner false .none) (.error e) own'

/-- nodes in preorder, where each node has some nodes below it and visits are nested at most so deep -/
def preorderBelow (children : Node → List Node) : Nat → Node → List Node
  | 0, _ => []
  | depth + 1, n => n :: (children n).flatMap (preorderBelow children depth)

namespace Runs

variable {cs : Courses σ ρ} {above : NodeStack} {own own' : σ} {course : Course σ ρ} {calls : Calls}
  {outcome : Except Fault ρ}

/-- courses that visit only below their nodes come to an end -/
theorem exist (hbelow : cs.VisitBelow) (bound : Nat) (course : Course σ ρ) (above : NodeStack) (own : σ)
    (hlow : course.VisitsOnly fun n => n.height < bound) :
    ∃ calls outcome own', Runs cs above own course calls outcome own' := by
  induction bound using Nat.strongRecOn generalizing course above own with
  | ind bound inside_ih =>
    induction course generalizing own with
    | done outcome => exact ⟨_, _, _, .done above own outcome⟩
    | look change next ih =>
      obtain ⟨calls, outcome, own', hruns⟩ := ih above own (change above own) (hlow above own)
      exact ⟨calls, outcome, own', .look hruns⟩
    | visit n next ih =>
      obtain ⟨inner, inside, between, hinside⟩ :=
        inside_ih n.height hlow.1 (cs.courseFor n) (n :: above) own (hbelow n)
      cases inside with
      | error e => exact ⟨_, _, _, .fail hinside⟩
      | ok a =>
        obtain ⟨calls, outcome, own', hruns⟩ := ih a between (hlow.2 a)
        exact ⟨_, _, _, .answer hinside hruns⟩

theorem endAtFailure (h : Runs cs above own course calls outcome own') :
    calls.EndAtFailure ∧ ∀ a, outcome = .ok a → calls.AllAnswer := by
  induction h with
  | done above own outcome => exact ⟨trivial, fun _ _ => trivial⟩
  | look going ih => exact ih
  | answer inside going inside_ih going_ih =>
    refine ⟨⟨inside_ih.1, fun _ => inside_ih.2 _ rfl, fun h => (nomatch h), going_ih.1⟩, fun a ha => ?_⟩
    exact ⟨inside_ih.2 _ rfl, rfl, going_ih.2 a ha⟩
  | fail inside inside_ih => exact ⟨⟨inside_ih.1, fun h => (nomatch h), fun _ => rfl, trivial⟩, fun a ha => (nomatch ha)⟩

/-- a handler for a kind finds the path to its own node -/
theorem pathTo_iff {n : Node} {tag : Tag} (hn : n.tag? = some tag) {next : List Node → Course σ ρ} :
    Runs cs (n :: above) own (.pathTo tag next) calls outcome own' ↔
      Runs cs (n :: above) own (next (n :: above).reverse) calls outcome own' := by
  have hpath : NodeStack.path (n :: above) (some tag) = .ok (n :: above).reverse := if_pos hn
  have hnext : Course.after (NodeStack.path (n :: above) (some tag)) next = next (n :: above).reverse := by
    rw [hpath]
    rfl
  rw [← hnext]
  constructor
  · intro h
    cases h with
    | look going => exact going
  · exact fun h => @Runs.look σ ρ cs _ own own' (fun _ own => own)
      (fun stack _ => .after (stack.path (some tag)) next) calls outcome h

/-- a course that visits nodes in their order enters the first of the nodes in preorder, and all if it answers -/
theorem preorder_prefix {children : Node → List Node} (hbelow : cs.VisitBelow)
    (hchildren : ∀ n, (cs.courseFor n).InOrder (children n)) (h : Runs cs above own course calls outcome own')
    {depth : Nat} (hlow : course.VisitsOnly fun n => n.height < depth) {ns : List Node} (hns : course.InOrder ns) :
    calls.preorder <+: ns.flatMap (preorderBelow children depth) ∧
      ∀ a, outcome = .ok a → calls.preorder = ns.flatMap (preorderBelow children depth) := by
  induction h generalizing depth ns with
  | done above own outcome =>
    refine ⟨List.nil_prefix, fun a ha => ?_⟩
    rw [hns a ha]
    rfl
  | look going ih => exact ih (hlow _ _) (hns _ _)
  | @answer above own between own' n next inner calls a outcome inside going inside_ih going_ih =>
    obtain ⟨rest, rfl, hrest⟩ := hns
    obtain ⟨depth, rfl⟩ := Nat.exists_eq_add_one_of_ne_zero (Nat.ne_zero_of_lt hlow.1)
    have hinner := (inside_ih (hbelow.nested hlow.1) (hchildren n)).2 a rfl
    obtain ⟨hbegins, hall⟩ := going_ih (hlow.2 a) (hrest a)
    rw [Calls.preorder, List.flatMap_cons, preorderBelow, hinner]
    exact ⟨(List.prefix_append_right_inj _).2 hbegins, fun b hb => by rw [hall b hb]⟩
  | @fail above own own' n next inner e inside inside_ih =>
    obtain ⟨rest, rfl, hrest⟩ := hns
    obtain ⟨depth, rfl⟩ := Nat.exists_eq_add_one_of_ne_zero (Nat.ne_zero_of_lt hlow.1)
    have hinner := (inside_ih (hbelow.nested hlow.1) (hchildren n)).1
    rw [Calls.preorder, Calls.preorder, List.append_nil, List.flatMap_cons, preorderBelow]
    refine ⟨?_, fun a ha => (nomatch ha)⟩
    exact ((List.prefix_cons_inj n).2 hinner).trans (List.prefix_append _ _)

end Runs

/-! ## Visits -/

/-- a handler runs between two events, the second only if it answers -/
theorem perform_tracing {v : Visitor (Act (Traversal (Traced σ)) ρ)} {n : Node}
    {visit : Node → Act (Traversal (Traced σ)) ρ} {s : Traversal (Traced σ)} {path : List Node} {es : List Event}
    {own' : σ} {outcome : Except Fault ρ} (hpath : s.stack.path none = .ok path)
    (h : (v.handlerFor n n visit).perform (s.logging [.enter n path] s.extra.own) =
      (outcome, (s.logging [.enter n path] s.extra.own).logging es own')) :
    (v.tracing.handlerFor n n visit).perform s =
      (outcome, s.logging (.enter n path :: (es ++ if outcome.isOk then [.exit n] else [])) own') := by
  rw [Visitor.tracing, Visitor.handlerFor_intercept]
  change (Traversal.path >>= fun path => Act.change (fun s => s.logging [.enter n path] s.extra.own) >>= fun _ =>
    v.handlerFor n n visit >>= fun answer => Act.change (fun s => s.logging [.exit n] s.extra.own) >>= fun _ =>
      pure answer).perform s = _
  have hfound : (Traversal.path : Act (Traversal (Traced σ)) _).perform s = (.ok path, s) := Prod.ext hpath rfl
  rw [Act.perform_bind_ok hfound, Act.perform_bind_ok (Act.perform_change _ s)]
  rw [Traversal.logging_logging] at h
  cases outcome with
  | error e =>
    rw [Act.perform_bind_error h, List.singleton_append]
    simp only [Except.isOk, Except.toBool, Bool.false_eq_true, if_false, List.append_nil]
  | ok answer =>
    rw [Act.perform_bind_ok h, Act.perform_bind_ok (Act.perform_change _ _), Traversal.logging_logging,
      List.append_assoc]
    rfl

/-- a visit logs the call of its node, if the course of the handler logs the calls inside it -/
theorem perform_call {cs : Courses σ ρ} {n : Node} {visit : Node → Act (Traversal (Traced σ)) ρ}
    {s : Traversal (Traced σ)} {own' : σ} {inner : Calls} {outcome : Except Fault ρ}
    (h : ∀ t : Traversal (Traced σ), t.stack = n :: s.stack → t.extra.own = s.extra.own →
      ((cs.courseFor n).run visit).perform t = (outcome, t.logging (inner.events (n :: s.stack)) own')) :
    (cs.visitor.tracing.keepingStack.handlerFor n n visit).perform s =
      (outcome, s.logging (Calls.events s.stack (.call n inner outcome.isOk .none)) own') := by
  have hpath : (s.push n).stack.path none = .ok (n :: s.stack).reverse := rfl
  have hinside := h ((s.push n).logging [.enter n (n :: s.stack).reverse] s.extra.own) rfl rfl
  rw [← Courses.handlerFor_visitor] at hinside
  rw [Visitor.perform_keepingStack, perform_tracing hpath hinside, Calls.events, Calls.events, List.append_nil]
  rfl

/-- a visitor whose handlers take courses comes to the calls of a course, and logs them -/
theorem perform_run {cs : Courses σ ρ} (hbelow : cs.VisitBelow) {above : NodeStack} {own own' : σ}
    {course : Course σ ρ} {calls : Calls} {outcome : Except Fault ρ} (h : Runs cs above own course calls outcome own')
    {depth : Nat} (hlow : course.VisitsOnly fun n => n.height < depth) {s : Traversal (Traced σ)}
    (hs : s.stack = above) (hown : s.extra.own = own) :
    (course.run (cs.visitor.tracing.keepingStack.visit (throw .nestingTooDeep) depth)).perform s =
      (outcome, s.logging (calls.events above) own') := by
  induction h generalizing depth s with
  | done above own outcome =>
    subst hown
    rw [Calls.events, Traversal.logging_nil]
    exact Act.perform_ofExcept outcome s
  | @look above own own' change next calls outcome going ih =>
    subst hs hown
    refine (Act.perform_bind_ok (Act.perform_get s) _).trans ?_
    refine (Act.perform_bind_ok (Act.perform_change _ s) _).trans ?_
    rw [ih (hlow _ _) (Traversal.logging_stack ..) (Traversal.logging_own ..), Traversal.logging_logging]
    rfl
  | @answer above own between own' n next inner calls a outcome inside going inside_ih going_ih =>
    subst hs hown
    obtain ⟨depth, rfl⟩ := Nat.exists_eq_add_one_of_ne_zero (Nat.ne_zero_of_lt hlow.1)
    have hvisit := perform_call (s := s) fun t ht htown => inside_ih (hbelow.nested hlow.1) ht htown
    refine (Act.perform_bind_ok hvisit _).trans ?_
    rw [going_ih (hlow.2 a) (Traversal.logging_stack ..) (Traversal.logging_own ..), Traversal.logging_logging]
    rw [Calls.events, Calls.events, Calls.events, List.append_nil]
    rfl
  | @fail above own own' n next inner e inside inside_ih =>
    subst hs hown
    obtain ⟨depth, rfl⟩ := Nat.exists_eq_add_one_of_ne_zero (Nat.ne_zero_of_lt hlow.1)
    have hvisit := perform_call (s := s) fun t ht htown => inside_ih (hbelow.nested hlow.1) ht htown
    exact Act.perform_bind_error hvisit _

/-- visits one after another below some nodes in progress, each with its calls and its outcome -/
inductive Visits (cs : Courses σ ρ) (above : NodeStack) : σ → List Node → List (Calls × Except Fault ρ) → σ → Prop
  | nil (own : σ) : Visits cs above own [] [] own
  | cons {own between own' : σ} {n : Node} {ns : List Node} {calls : Calls} {outcome : Except Fault ρ}
      {runs : List (Calls × Except Fault ρ)} (first : Runs cs above own (.only n) calls outcome between)
      (others : Visits cs above between ns runs own') : Visits cs above own (n :: ns) ((calls, outcome) :: runs) own'

/-- what a visit that comes to some calls logs, below some nodes in progress: the nodes are entered in preorder up to the
first failure, each with the chain of the nodes in progress as its path, and just those that answer are left -/
structure Logs (cs : Courses σ ρ) (above : NodeStack) (n : Node) (calls : Calls) (outcome : Except Fault ρ) : Prop where
  entered : (calls.events above).filterMap Event.entered = calls.chains above
  exited : (calls.events above).filterMap Event.exited = calls.answers
  preorder : (calls.chains above).map Prod.fst = calls.preorder
  ends : ∀ e ∈ calls.chains above, above.reverse <+: e.2 ∧ e.2.getLast? = some e.1
  endAtFailure : calls.EndAtFailure
  allAnswer : ∀ a, outcome = .ok a → calls.AllAnswer
  inOrder : ∀ children : Node → List Node, (∀ m, (cs.courseFor m).InOrder (children m)) →
    calls.preorder <+: preorderBelow children (n.height + 1) n ∧
      ∀ a, outcome = .ok a → calls.preorder = preorderBelow children (n.height + 1) n

theorem Runs.logs {cs : Courses σ ρ} (hbelow : cs.VisitBelow) {above : NodeStack} {own own' : σ} {n : Node}
    {calls : Calls} {outcome : Except Fault ρ} (h : Runs cs above own (.only n) calls outcome own') :
    Logs cs above n calls outcome where
  entered := calls.entered_events above
  exited := calls.exited_events above
  preorder := calls.chains_preorder above
  ends _ he := Calls.chain_ends he
  endAtFailure := h.endAtFailure.1
  allAnswer := h.endAtFailure.2
  inOrder children hchildren := by
    have hlow : (Course.only n : Course σ ρ).VisitsOnly fun m => m.height < n.height + 1 :=
      ⟨Nat.lt_succ_self _, fun _ => trivial⟩
    have hns : (Course.only n : Course σ ρ).InOrder [n] := ⟨[], rfl, fun _ _ _ => rfl⟩
    have hprefix := h.preorder_prefix hbelow hchildren hlow hns
    rwa [List.flatMap_singleton] at hprefix

theorem perform_explore {cs : Courses σ ρ} (hbelow : cs.VisitBelow) {n : Node} {calls : Calls}
    {outcome : Except Fault ρ} {own' : σ} {s : Traversal (Traced σ)}
    (h : Runs cs s.stack s.extra.own (.only n) calls outcome own') :
    (cs.visitor.tracing.keepingStack.explore n).perform s = (outcome, s.logging (calls.events s.stack) own') := by
  have hrun := perform_run hbelow h ⟨Nat.lt_succ_self _, fun _ => trivial⟩ rfl rfl
  rw [← hrun, Course.only, Course.run, Act.perform_bind, Visitor.explore]
  rcases (cs.visitor.tracing.keepingStack.visit (throw .nestingTooDeep) (n.height + 1) n).perform s with ⟨e | a, t⟩
  · rfl
  · rfl

theorem Runs.exist_only {cs : Courses σ ρ} (hbelow : cs.VisitBelow) (above : NodeStack) (own : σ) (n : Node) :
    ∃ calls outcome own', Runs cs above own (.only n) calls outcome own' :=
  exist hbelow (n.height + 1) (.only n) above own ⟨Nat.lt_succ_self _, fun _ => trivial⟩

theorem explore_keeps_stack {cs : Courses σ ρ} (hbelow : cs.VisitBelow) (n : Node) (s : Traversal (Traced σ)) :
    ((cs.visitor.tracing.keepingStack.explore n).perform s).2.stack = s.stack := by
  obtain ⟨calls, outcome, own', hruns⟩ := Runs.exist_only hbelow s.stack s.extra.own n
  rw [perform_explore hbelow hruns, Traversal.logging_stack]

/-- a visit that fails stops no later one -/
theorem perform_visits {cs : Courses σ ρ} (hbelow : cs.VisitBelow) (ns : List Node) (s : Traversal (Traced σ)) :
    ∃ runs own', Visits cs s.stack s.extra.own ns runs own' ∧
      cs.visitor.tracing.keepingStack.visits ns s =
        (runs.map Prod.snd, s.logging (runs.flatMap fun run => run.1.events s.stack) own') := by
  induction ns generalizing s with
  | nil =>
    refine ⟨[], _, .nil _, ?_⟩
    rw [Visitor.visits, List.flatMap_nil, Traversal.logging_nil, List.map_nil]
  | cons n rest ih =>
    obtain ⟨calls, outcome, between, hruns⟩ := Runs.exist_only hbelow s.stack s.extra.own n
    obtain ⟨runs, own', hvisits, hperform⟩ := ih (s.logging (calls.events s.stack) between)
    refine ⟨(calls, outcome) :: runs, own', .cons hruns hvisits, ?_⟩
    rw [Visitor.visits, perform_explore hbelow hruns]
    simp only [hperform, Traversal.logging_logging, Traversal.logging_stack]
    rfl

theorem Visits.logs {cs : Courses σ ρ} (hbelow : cs.VisitBelow) {above : NodeStack} {own own' : σ} {ns : List Node}
    {runs : List (Calls × Except Fault ρ)} (h : Visits cs above own ns runs own') :
    List.Forall₂ (fun n run => Logs cs above n run.1 run.2) ns runs := by
  induction h with
  | nil own => exact .nil
  | cons first others ih => exact .cons (first.logs hbelow) ih

/-- visits one after another, answered or failed, log the calls they come to and leave the stack as it was; and within
a handler for a kind the path to a node of that kind is the path to its own node -/
theorem visits_logged {cs : Courses σ ρ} (hbelow : cs.VisitBelow) (ns : List Node) (s : Traversal (Traced σ)) :
    (∃ runs own', Visits cs s.stack s.extra.own ns runs own' ∧
      cs.visitor.tracing.keepingStack.visits ns s =
        (runs.map Prod.snd, s.logging (runs.flatMap fun run => run.1.events s.stack) own') ∧
      List.Forall₂ (fun n run => Logs cs s.stack n run.1 run.2) ns runs) ∧
    (∀ n t, ((cs.visitor.tracing.keepingStack.explore n).perform t).2.stack = t.stack) ∧
    ∀ tag course n, cs.handlers.get? tag = some course → n.tag? = some tag → cs.courseFor n = course n ∧
      ∀ (above : NodeStack) (next : List Node → Course σ ρ) (own own' : σ) (calls : Calls) (outcome : Except Fault ρ),
        Runs cs (n :: above) own (.pathTo tag next) calls outcome own' ↔
          Runs cs (n :: above) own (next (n :: above).reverse) calls outcome own' := by
  refine ⟨?_, explore_keeps_stack hbelow, fun tag course n hget hn => ?_⟩
  · obtain ⟨runs, own', hvisits, hperform⟩ := perform_visits hbelow ns s
    exact ⟨runs, own', hvisits, hperform, hvisits.logs hbelow⟩
  · exact ⟨Courses.courseFor_of_get? hget hn, fun _ _ _ _ _ _ => Runs.pathTo_iff hn⟩

/-! ## A survey of accounts -/

def Node.among (n : Node) (a : Attr) : List Node :=
  match n.items a with
  | .ok vs => vs.filterMap fun v => v.asNode.toOption
  | .error _ => []

theorem Node.height_of_among {n m : Node} {a : Attr} (h : m ∈ n.among a) : m.height < n.height := by
  unfold among at h
  split at h
  · next vs hvs =>
    obtain ⟨v, hv, hm⟩ := List.mem_filterMap.1 h
    cases hnode : v.asNode with
    | ok k =>
      rw [hnode] at hm
      cases hm
      exact Node.height_of_item hvs hv hnode
    | error e =>
      rw [hnode] at hm
      cases hm
  · exact absurd h List.not_mem_nil

/-- a program visits its accounts; the first account ever visited answers with the length of its path, others fail -/
def survey : Courses Bool Nat where
  handlers := OrderedMap.ofList [
    (.known .program, fun n => .each (n.among .accounts) (.ok 0)),
    (.known .account, fun _ => .pathTo (.known .account) fun path => .look (fun _ _ => true) fun _ seen =>
      .done (if seen then .error .emptyStack else .ok path.length))]
  default _ := .done (.ok 0)

theorem survey_visitBelow : survey.VisitBelow := by
  refine Courses.visitBelow_of_each (fun n => trivial) fun e he n => ?_
  have hentries : survey.handlers.entries = [
      (.known .program, fun n => .each (n.among .accounts) (.ok 0)),
      (.known .account, fun _ => .pathTo (.known .account) fun path => .look (fun _ _ => true) fun _ seen =>
        .done (if seen then .error .emptyStack else .ok path.length))] := rfl
  rw [hentries] at he
  rcases List.mem_cons.1 he with rfl | he
  · exact Course.each_visitsOnly (fun m hm => Node.height_of_among hm) _
  · obtain rfl := List.mem_singleton.1 he
    exact Course.pathTo_visitsOnly fun path stack own => trivial

/-- what the survey visits of a node: the accounts of a program -/
def Node.audited (n : Node) : List Node := if n.tag? = some (.known .program) then n.among .accounts else []

theorem survey_inOrder (n : Node) : (survey.courseFor n).InOrder n.audited := by
  unfold Courses.courseFor Node.audited
  cases n.tag? with
  | none => exact fun _ _ => rfl
  | some tag =>
    by_cases hprogram : tag = .known .program
    · subst hprogram
      exact Course.each_inOrder _ _
    · by_cases haccount : tag = .known .account
      · subst haccount
        rw [if_neg (by decide)]
        intro stack own
        change (Course.after (stack.path (some (.known .account))) _).InOrder []
        cases stack.path (some (.known .account)) with
        | ok path => exact fun _ _ _ _ => rfl
        | error e => exact fun _ _ => rfl
      · have hnone : survey.handlers.get? tag = none := by
          rw [Option.eq_none_iff_forall_ne_some]
          intro course hget
          have hkeys : tag ∈ [Tag.known .program, .known .account] := OrderedMap.mem_keys.2 ⟨course, hget⟩
          simp [hprogram, haccount] at hkeys
        rw [Option.bind_some, hnone, if_neg (by simpa using hprogram)]
        exact fun _ _ => rfl
def surveyed (name : Text) : Node := .known .account [(.name, .text name)]

def ledger : Node :=
  .known .program [(.accounts, .tuple [.node (surveyed "a"), .node (surveyed "b"), .node (surveyed "c")])]

/-- the second account fails, so the third is not visited; the error node of the next visit has the default handler -/
theorem survey_of_ledger : survey.VisitBelow ∧ (∀ n, (survey.courseFor n).InOrder n.audited) ∧
    (survey.visitor.tracing.keepingStack.visits [ledger, .known .error []] (.start ⟨[], false⟩)).1 =
      [.error .emptyStack, .ok 0] ∧
    (survey.visitor.tracing.keepingStack.visits [ledger, .known .error []] (.start ⟨[], false⟩)).2.extra.log = [
      .enter ledger [ledger], .enter (surveyed "a") [ledger, surveyed "a"], .exit (surveyed "a"),
      .enter (surveyed "b") [ledger, surveyed "b"], .enter (.known .error []) [.known .error []],
      .exit (.known .error [])] ∧
    ∃ runs own', Visits survey [] false [ledger, .known .error []] runs own' ∧
      survey.visitor.tracing.keepingStack.visits [ledger, .known .error []] (.start ⟨[], false⟩) =
        (runs.map Prod.snd, Traversal.logging (.start ⟨[], false⟩) (runs.flatMap fun run => run.1.events []) own') ∧
      List.Forall₂ (fun n run => Logs survey [] n run.1 run.2) [ledger, .known .error []] runs :=
  ⟨survey_visitBelow, survey_inOrder, rfl, rfl, (visits_logged survey_visitBelow _ (.start ⟨[], false⟩)).1⟩

end InterfacePages

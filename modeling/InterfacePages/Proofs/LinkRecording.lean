/-
When the link table is filled.

Around all other wrappers of a visitor stands the one that fills the link table from the first node visited. Whether it
has done so is one flag for all its handlers, and it is raised before the recording begins, so a recording or a handler
that fails does not lower it. What a handler may do to the table it does through visits (`Act.AddsOnly`), and once the
flag is raised every visit, at whatever depth, keeps the table and finds it as it is (`visit_keepsFilled`).

`links_complete_before_handlers` puts this together for a sequence of visits, failed ones among them. What is recorded
does not depend on what the table held before (`recordTree_files`), so the table is what it held, followed by what the
first node adds to it.
-/
import Mathlib.Data.List.Induction
import InterfacePages.Node.Decode
import InterfacePages.Proofs.LinkTables
import InterfacePages.Proofs.Visiting

namespace InterfacePages

/-! ## What is recorded -/

namespace OrderedMap

variable {κ α : Type} [DecidableEq κ]

theorem upsertIn_getD (k : κ) (v : α) (es : List (κ × α)) :
    upsertIn k (·.getD v) es = if k ∈ es.map Prod.fst then es else es ++ [(k, v)] := by
  induction es with
  | nil => simp [upsertIn]
  | cons e rest ih =>
    obtain ⟨k', w⟩ := e
    by_cases hk : k' = k
    · simp [upsertIn, hk]
    · have hk' : ¬k = k' := fun h => hk h.symm
      simp only [upsertIn, hk, if_false, ih, List.map_cons, List.mem_cons, hk', false_or]
      split <;> rfl

/-- a new key goes to the end, and a key that is taken changes nothing -/
theorem entries_insertNew (m : OrderedMap κ α) (k : κ) (v : α) :
    (m.insertNew k v).entries = if k ∈ m.keys then m.entries else m.entries ++ [(k, v)] := upsertIn_getD k v m.entries

end OrderedMap

namespace LinkTable

theorem mem_keys_fileAll {es : List (LinkKey × Node)} {table : LinkTable} {k : LinkKey} :
    k ∈ (fileAll es table).keys ↔ k ∈ table.keys ∨ k ∈ es.map Prod.fst := by
  induction es generalizing table with
  | nil => exact ⟨.inl, fun h => h.resolve_right List.not_mem_nil⟩
  | cons e rest ih =>
    change k ∈ (fileAll rest (table.insertNew e.1 e.2)).keys ↔ _
    rw [ih, OrderedMap.insertNew, OrderedMap.keys_upsert, List.map_cons, List.mem_cons]
    split
    · next htaken => exact ⟨fun h => h.imp id .inr, fun h => h.elim .inl fun h => h.imp (fun hk => by rwa [hk]) id⟩
    · rw [List.mem_append, List.mem_singleton, or_assoc]

/-- filing only adds to a table, and what it adds are the entries it makes alone whose keys are not taken -/
theorem entries_fileAll (es : List (LinkKey × Node)) (table : LinkTable) :
    (fileAll es table).entries = table.entries ++ (fileAll es .empty).entries.filter fun e => e.1 ∉ table.keys := by
  induction es using List.reverseRecOn with
  | nil => exact (List.append_nil _).symm
  | append_singleton es e ih =>
    have hsnoc : ∀ t, fileAll (es ++ [e]) t = (fileAll es t).insertNew e.1 e.2 := fun t => List.foldl_append
    have hkeys : e.1 ∈ (fileAll es table).keys ↔ e.1 ∈ table.keys ∨ e.1 ∈ (fileAll es .empty).keys := by
      rw [mem_keys_fileAll, mem_keys_fileAll]
      simp [OrderedMap.keys, OrderedMap.empty]
    rw [hsnoc, hsnoc, OrderedMap.entries_insertNew, OrderedMap.entries_insertNew, ih]
    by_cases htaken : e.1 ∈ table.keys
    · rw [if_pos (hkeys.2 (.inl htaken))]
      split
      · rfl
      · rw [List.filter_append, List.filter_singleton]
        simp [htaken]
    · by_cases hmade : e.1 ∈ (fileAll es .empty).keys
      · rw [if_pos (hkeys.2 (.inr hmade)), if_pos hmade]
      · rw [if_neg fun h => (hkeys.1 h).elim htaken hmade, if_neg hmade, List.filter_append, List.append_assoc,
          List.filter_singleton]
        simp [htaken]

/-- an action has the outcome of a computation and files what it answers, whatever the table holds; if it fails, it has
filed something first -/
def Files (act : Act LinkTable Unit) (x : Except Fault (List (LinkKey × Node))) : Prop :=
  ∃ es, (∀ table, act.perform table = (x.map fun _ => (), fileAll es table)) ∧ ∀ all, x = .ok all → all = es

theorem Files.perform {act : Act LinkTable Unit} {es : List (LinkKey × Node)} (h : Files act (.ok es))
    (table : LinkTable) : act.perform table = (.ok (), fileAll es table) := by
  obtain ⟨es', hact, hall⟩ := h
  rw [hact, hall es rfl]
  rfl

theorem Files.pure : Files (pure ()) (.ok []) := ⟨[], fun _ => rfl, fun _ h => (Except.ok.inj h).symm⟩

theorem Files.bind {act act' : Act LinkTable Unit} {x x' : Except Fault (List (LinkKey × Node))} (h : Files act x)
    (h' : Files act' x') : Files (act >>= fun _ => act') (do return (← x) ++ (← x')) := by
  obtain ⟨es, hact, hall⟩ := h
  cases x with
  | error e => exact ⟨es, fun table => Act.perform_bind_error (hact table) _, nofun⟩
  | ok all =>
    obtain ⟨es', hact', hall'⟩ := h'
    obtain rfl := hall all rfl
    refine ⟨all ++ es', fun table => ?_, fun both h => ?_⟩
    · refine (Act.perform_bind_ok (hact table) _).trans ((hact' _).trans (Prod.ext ?_ List.foldl_append.symm))
      cases x' <;> rfl
    · obtain ⟨_, hx, h⟩ := except_bind_ok.1 h
      cases hx
      obtain ⟨all', hx', h⟩ := except_bind_ok.1 h
      rw [← hall' all' hx']
      exact (Except.ok.inj h).symm

/-- what an outcome decides, and what is filed for it, do not depend on the table -/
theorem Files.from {ρ : Type} {x : Except Fault ρ} {next : ρ → Act LinkTable Unit}
    {after : ρ → Except Fault (List (LinkKey × Node))} (h : ∀ a, x = .ok a → Files (next a) (after a)) :
    Files (Act.ofExcept x >>= next) (x >>= after) := by
  cases x with
  | ok a => exact h a rfl
  | error e => exact ⟨[], fun _ => rfl, nofun⟩

theorem Files.forM {ι : Type} {f : ι → Act LinkTable Unit} {g : ι → Except Fault (List (LinkKey × Node))}
    (h : ∀ i, Files (f i) (g i)) (is : List ι) : Files (is.forM f) (do return (← is.mapM g).flatten) := by
  induction is with
  | nil => exact .pure
  | cons i rest ih =>
    have hcons : (do return (← (i :: rest).mapM g).flatten) =
        (do return (← g i) ++ (← (do return (← rest.mapM g).flatten))) := by
      rw [List.mapM_cons]
      cases g i with
      | error e => rfl
      | ok es => cases rest.mapM g <;> rfl
    rw [hcons]
    exact (h i).bind ih

theorem recordAct_files (name : Value) (n : Node) : Files (recordAct name n) (do return [← entryOf name n]) := by
  cases n with
  | unknown k object => exact ⟨[], fun _ => rfl, fun _ h => by cases h⟩
  | known kind attributes =>
    simp only [entryOf, recordAct, record]
    cases (Node.known kind attributes).get .name with
    | error e => exact ⟨[], fun _ => rfl, fun _ h => by cases h⟩
    | ok v => exact ⟨_, fun _ => rfl, fun _ h => (Except.ok.inj h).symm⟩

theorem flatten_mapM_singleton {ι α : Type} (f : ι → Except Fault α) (is : List ι) :
    (do return (← is.mapM fun i => do return [← f i]).flatten) = is.mapM f := by
  induction is with
  | nil => rfl
  | cons i rest ih =>
    rw [List.mapM_cons, List.mapM_cons, ← ih]
    cases f i with
    | error e => rfl
    | ok a => cases rest.mapM (fun i => do return [← f i]) <;> rfl

def memberEntries (name : Value) (p : Node) : Except Fault (List (LinkKey × Node)) := do
  ((← p.pdas) ++ (← p.accounts) ++ (← p.definedTypes) ++ (← p.instructions)).mapM (entryOf name)

theorem recordProgram_files (p : Node) : Files (recordProgram p) (entriesOf p) := by
  refine .from fun name hname => ?_
  -- the program itself is filed before its members are listed, and having a name it cannot fail to be
  obtain ⟨e, he⟩ : ∃ e, entryOf name p = .ok e := by
    cases p with
    | unknown k object => cases hname
    | known kind attributes =>
      simp only [entryOf, hname]
      exact ⟨_, rfl⟩
  have hown : Files (recordAct name p) (.ok [e]) := by
    have h := recordAct_files name p
    rw [he] at h
    exact h
  have hmember : ∀ ms : List Node, Files (ms.forM fun m => do recordAct (← Act.ofExcept (p.get .name)) m)
      (ms.mapM (entryOf name)) := by
    intro ms
    rw [← flatten_mapM_singleton]
    refine .forM (fun m => ?_) ms
    rw [hname]
    exact recordAct_files name m
  have hmembers : Files _ (memberEntries name p) :=
    .from fun pdas _ => .from fun accounts _ => .from fun types _ => .from fun instructions _ => hmember _
  have hall : (do
      let members := (← p.pdas) ++ (← p.accounts) ++ (← p.definedTypes) ++ (← p.instructions)
      (p :: members).mapM (entryOf name)) =
      (do return (← (.ok [e] : Except Fault (List (LinkKey × Node)))) ++ (← memberEntries name p)) := by
    unfold memberEntries
    simp only [List.mapM_cons, he, bind_assoc]
    rfl
  rw [hall]
  exact hown.bind hmembers

def treeEntries (n : Node) : Except Fault (List (LinkKey × Node)) := do
  return (← (← n.programs).mapM entriesOf).flatten

/-- recording a tree files its entries -/
theorem recordTree_files (n : Node) : Files (recordTree n) (treeEntries n) :=
  .from fun ps _ => .forM recordProgram_files ps

/-- **Recording adds at the end.** A recorded tree leaves the entries of the table as they were and in front; behind
them come the entries that it makes in an empty table, those without a key that is taken, also when it fails. -/
theorem entries_recordTree (n : Node) (table : LinkTable) :
    ((recordTree n).perform table).2.entries =
      table.entries ++ ((recordTree n).perform .empty).2.entries.filter fun e => e.1 ∉ table.keys := by
  obtain ⟨es, hact, -⟩ := recordTree_files n
  rw [hact, hact]
  exact entries_fileAll es table

end LinkTable

/-! ## What handlers add -/

namespace Act

variable {σ ι ρ ρ' : Type} {Step : σ → σ → Prop}

/-- an action is made of given actions and of steps of one kind: whatever the given ones do to the state, it does no more
than that and such steps -/
def AddsOnly (Step : σ → σ → Prop) (f : (ι → Act σ ρ) → Act σ ρ') : Prop :=
  ∀ R : σ → σ → Prop, (∀ a b c, R a b → R b c → R a c) → (∀ s t, Step s t → R s t) →
    ∀ acts, (∀ i, Within R (acts i)) → Within R (f acts)

theorem AddsOnly.step {act : Act σ ρ'} (h : Within Step act) : AddsOnly (ι := ι) (ρ := ρ) Step fun _ => act :=
  fun _ _ hstep _ _ s r t ht => hstep s t (h s r t ht)

theorem AddsOnly.given (i : ι) : AddsOnly (ρ := ρ) Step fun acts => acts i := fun _ _ _ _ hacts => hacts i

theorem AddsOnly.bind {τ : Type} {f : (ι → Act σ ρ) → Act σ ρ'} {next : ρ' → (ι → Act σ ρ) → Act σ τ}
    (hf : AddsOnly Step f) (hn : ∀ r, AddsOnly Step (next r)) :
    AddsOnly Step fun acts => f acts >>= fun r => next r acts :=
  fun R htrans hstep acts hacts => (hf R htrans hstep acts hacts).bind htrans fun r => hn r R htrans hstep acts hacts

theorem AddsOnly.ensuring {f : (ι → Act σ ρ) → Act σ ρ'} (hf : AddsOnly Step f) {cleanUp : σ → σ}
    (hc : ∀ s, Step s (cleanUp s)) : AddsOnly Step fun acts => Act.ensuring (f acts) cleanUp := by
  intro R htrans hstep acts hacts s r t ht
  rw [perform_ensuring] at ht
  cases ht
  exact htrans _ _ _ (hf R htrans hstep acts hacts s _ _ rfl) (hstep _ _ (hc _))

end Act

/-- what an observed traversal keeps besides: the table that each handler found when it began, and what the handlers keep
for themselves -/
structure Observed (σ : Type) where
  found : List (Node × LinkTable)
  own : σ

namespace Traversal

variable {σ ρ : Type}

/-- the link table, whether it is filled, and what handlers found in it are the same in two states -/
structure SameLinks (s t : Traversal (Observed σ)) : Prop where
  links : t.links = s.links
  linked : t.linked = s.linked
  found : t.extra.found = s.extra.found

theorem SameLinks.refl (s : Traversal (Observed σ)) : s.SameLinks s := ⟨rfl, rfl, rfl⟩

/-- what does not look at the state adds nothing -/
theorem addsOnly_ofExcept {ι ρ' : Type} (x : Except Fault ρ') :
    Act.AddsOnly (ι := ι) (ρ := ρ) (SameLinks (σ := σ)) fun _ => Act.ofExcept x :=
  .step fun s _ t ht => by
    cases ht
    exact .refl s

/-- visiting the items of a collection does what the visits do -/
theorem addsOnly_visitAll (vs : List Value) :
    Act.AddsOnly (SameLinks (σ := σ)) fun visit : Node → Act (Traversal (Observed σ)) ρ => visitAll visit vs := by
  induction vs with
  | nil => exact addsOnly_ofExcept (.ok [])
  | cons v rest ih =>
    exact (addsOnly_ofExcept v.asNode).bind fun n => (Act.AddsOnly.given n).bind fun answer => ih.bind fun answers =>
      addsOnly_ofExcept (.ok (answer :: answers))

/-- where the table is filled it stays as it is, and the handlers that begin find it so -/
def KeepsFilled (s t : Traversal (Observed σ)) : Prop :=
  s.linked = true → t.linked = true ∧ t.links = s.links ∧
    ∃ found, t.extra.found = s.extra.found ++ found ∧ ∀ e ∈ found, e.2 = s.links

theorem KeepsFilled.trans (a b c : Traversal (Observed σ)) (hab : a.KeepsFilled b) (hbc : b.KeepsFilled c) :
    a.KeepsFilled c := by
  intro ha
  obtain ⟨hb, hlinks, found, hfound, hall⟩ := hab ha
  obtain ⟨hc, hlinks', found', hfound', hall'⟩ := hbc hb
  refine ⟨hc, hlinks'.trans hlinks, found ++ found', ?_, fun e he => ?_⟩
  · rw [hfound', hfound, List.append_assoc]
  · exact (List.mem_append.1 he).elim (hall e) fun he => (hall' e he).trans hlinks

theorem SameLinks.keepsFilled (s t : Traversal (Observed σ)) (h : s.SameLinks t) : s.KeepsFilled t :=
  fun hs => ⟨h.linked.trans hs, h.links, [], h.found.trans (List.append_nil _).symm, fun _ he => absurd he List.not_mem_nil⟩

end Traversal

namespace Visitor

open Traversal (SameLinks KeepsFilled)

variable {σ ρ : Type}

/-- notes the link table that each handler finds when it begins -/
def noting (v : Visitor (Act (Traversal (Observed σ)) ρ)) : Visitor (Act (Traversal (Observed σ)) ρ) :=
  v.intercept fun n proceed => do
    Act.change fun s => { s with extra := ⟨s.extra.found ++ [(n, s.links)], s.extra.own⟩ }
    proceed

/-- what the handlers do to the links they do through visits -/
def SparesLinks (v : Visitor (Act (Traversal (Observed σ)) ρ)) : Prop :=
  ∀ n, Act.AddsOnly SameLinks (v.handlerFor n n)

/-- what a wrapper does to the links it does through the handler inside -/
def WrapperSparesLinks
    (around : Node → Act (Traversal (Observed σ)) ρ → Act (Traversal (Observed σ)) ρ) : Prop :=
  ∀ n, Act.AddsOnly SameLinks fun proceed : Unit → Act (Traversal (Observed σ)) ρ => around n (proceed ())

theorem sparesLinks_ofKinds {answer : Node → Act (Traversal (Observed σ)) ρ}
    {handlers : List (Kind × Handler (Act (Traversal (Observed σ)) ρ))} (hd : (handlers.map Prod.fst).Nodup)
    (hanswer : ∀ n, Act.Within SameLinks (answer n)) (h : ∀ e ∈ handlers, ∀ n, Act.AddsOnly SameLinks (e.2 n)) :
    (ofKinds answer handlers).SparesLinks := by
  intro n
  rw [handlerFor_ofKinds answer hd]
  cases hk : n.kind?.bind fun k => OrderedMap.lookupIn k handlers with
  | none => exact .step (hanswer n)
  | some handler =>
    obtain ⟨k, -, hk⟩ := Option.bind_eq_some_iff.1 hk
    exact h (k, handler) (OrderedMap.mem_of_lookupIn hk) n

/-- with wrappers around it a handler that notes what it found still keeps a filled table -/
theorem handler_keepsFilled {v : Visitor (Act (Traversal (Observed σ)) ρ)} (hv : v.SparesLinks)
    {arounds : List (Node → Act (Traversal (Observed σ)) ρ → Act (Traversal (Observed σ)) ρ)}
    (ha : ∀ around ∈ arounds, WrapperSparesLinks around) (n : Node) {visit : Node → Act (Traversal (Observed σ)) ρ}
    (hvisit : ∀ m, Act.Within KeepsFilled (visit m)) :
    Act.Within KeepsFilled ((arounds.foldl intercept v.noting).handlerFor n n visit) := by
  induction arounds using List.reverseRecOn with
  | nil =>
    rw [List.foldl_nil, noting, handlerFor_intercept]
    refine Act.Within.bind KeepsFilled.trans (fun s _ t ht => ?_) fun _ =>
      hv n KeepsFilled KeepsFilled.trans SameLinks.keepsFilled visit hvisit
    rw [Act.perform_change] at ht
    cases ht
    exact fun hs => ⟨hs, rfl, [(n, s.links)], rfl, fun e he => by rw [List.mem_singleton.1 he]⟩
  | append_singleton arounds around ih =>
    have hinside := ih fun a h => ha a (List.mem_append_left _ h)
    rw [List.foldl_append, List.foldl_cons, List.foldl_nil, handlerFor_intercept]
    exact ha around (List.mem_append_right _ List.mem_cons_self) n KeepsFilled KeepsFilled.trans SameLinks.keepsFilled
      _ fun _ => hinside

/-- every visit keeps a filled table, however deep the visits nested in it go -/
theorem visit_keepsFilled {v : Visitor (Act (Traversal (Observed σ)) ρ)} (hv : v.SparesLinks)
    {arounds : List (Node → Act (Traversal (Observed σ)) ρ → Act (Traversal (Observed σ)) ρ)}
    (ha : ∀ around ∈ arounds, WrapperSparesLinks around) (depth : Nat) (n : Node) :
    Act.Within KeepsFilled
      ((arounds.foldl intercept v.noting).keepingLinks.visit (throw .nestingTooDeep) depth n) := by
  induction depth generalizing n with
  | zero =>
    intro s r t ht
    cases ht
    exact SameLinks.keepsFilled s s (.refl s)
  | succ depth ih =>
    rw [visit, keepingLinks, handlerFor_intercept]
    refine Act.Within.bind KeepsFilled.trans (fun s _ t ht hs => ?_) fun _ => handler_keepsFilled hv ha n ih
    -- the flag is raised, so the table is not filled again
    simp only [Traversal.fillLinks, Act.perform_ofOutcome, hs, if_true] at ht
    cases ht
    exact SameLinks.keepsFilled s s (.refl s) hs

/-- the state that some visits leave, one after another, whether they answer or fail; below each node the visits nest at
most as deep as its limit -/
def afterVisits (v : Visitor (Act (Traversal (Observed σ)) ρ)) (visits : List (Node × Nat))
    (s : Traversal (Observed σ)) : Traversal (Observed σ) :=
  visits.foldl (fun s e => ((v.visit (throw .nestingTooDeep) (e.2 + 1) e.1).perform s).2) s

/-- **The link table is filled before any handler runs, and once.** The handlers and the other wrappers leave the table
to the visits; with the filling wrapper around them, nodes are visited one after another, each with visits nested in it
to any depth, and whether they answer or fail. Then every handler that began found the same table, whatever node it was
for, and it is the table after the first visit and after all of them: what the table held, and behind it what recording
the first node adds. -/
theorem links_complete_before_handlers {v : Visitor (Act (Traversal (Observed σ)) ρ)} (hv : v.SparesLinks)
    {arounds : List (Node → Act (Traversal (Observed σ)) ρ → Act (Traversal (Observed σ)) ρ)}
    (ha : ∀ around ∈ arounds, WrapperSparesLinks around) {s : Traversal (Observed σ)} (hs : s.linked = false)
    (first : Node) (limit : Nat) (later : List (Node × Nat)) :
    ∃ links, links = ((LinkTable.recordTree first).perform s.links).2 ∧
      links.entries = s.links.entries ++
        ((LinkTable.recordTree first).perform .empty).2.entries.filter (fun e => e.1 ∉ s.links.keys) ∧
      ∃ t found, (arounds.foldl intercept v.noting).keepingLinks.afterVisits ((first, limit) :: later) s = t ∧
        t.links = links ∧ t.extra.found = s.extra.found ++ found ∧ ∀ e ∈ found, e.2 = links := by
  refine ⟨_, rfl, LinkTable.entries_recordTree first s.links, ?_⟩
  generalize hlinks : ((LinkTable.recordTree first).perform s.links).2 = links
  -- the state in which the first handler begins, or the first visit fails
  have hfirst : Traversal.KeepsFilled { s with linked := true, links }
      (((arounds.foldl intercept v.noting).keepingLinks.visit (throw .nestingTooDeep) (limit + 1) first).perform s).2 := by
    rw [visit, keepingLinks, handlerFor_intercept]
    change Traversal.KeepsFilled _ ((Traversal.fillLinks first >>= fun _ => _).perform s).2
    have hfill : (Traversal.fillLinks first).perform s =
        (((LinkTable.recordTree first).perform s.links).1, { s with linked := true, links }) := by
      simp only [Traversal.fillLinks, Act.perform_ofOutcome, hs, Bool.false_eq_true, if_false, hlinks]
    rw [Act.perform_bind, hfill]
    cases ((LinkTable.recordTree first).perform s.links).1 with
    | error e => exact SameLinks.keepsFilled _ _ (.refl _)
    | ok u =>
      exact handler_keepsFilled hv ha first (fun m => visit_keepsFilled hv ha limit m) _ _ _ rfl
  have hlater : ∀ (visits : List (Node × Nat)) (t : Traversal (Observed σ)),
      t.KeepsFilled ((arounds.foldl intercept v.noting).keepingLinks.afterVisits visits t) := by
    intro visits
    induction visits with
    | nil => exact fun t => SameLinks.keepsFilled t t (.refl t)
    | cons e rest ih => exact fun t => (visit_keepsFilled hv ha (e.2 + 1) e.1 t _ _ rfl).trans _ _ _ (ih _)
  obtain ⟨-, hkept, found, hfound, hall⟩ := KeepsFilled.trans _ _ _ hfirst (hlater later _) rfl
  exact ⟨_, found, rfl, hkept, hfound, hall⟩

/-! ## An audit -/

/-- keeps the node on the stack while the handler inside runs -/
def stacking (n : Node) (proceed : Act (Traversal (Observed σ)) ρ) : Act (Traversal (Observed σ)) ρ := do
  Act.change (Traversal.push n)
  Act.ensuring proceed Traversal.pop

theorem stacking_sparesLinks : WrapperSparesLinks (stacking (σ := σ) (ρ := ρ)) := by
  intro n
  have hpush : Act.Within SameLinks (Act.change (Traversal.push n) : Act (Traversal (Observed σ)) Unit) := by
    intro s r t ht
    cases ht
    exact ⟨rfl, rfl, rfl⟩
  exact (Act.AddsOnly.step hpush).bind fun _ => (Act.AddsOnly.given ()).ensuring fun s => ⟨rfl, rfl, rfl⟩

def auditProgram : Handler (Act (Traversal (Observed Nat)) Nat) := fun n visit => do
  return (← Traversal.visitAll visit (← Act.ofExcept (n.items .accounts))).length

/-- the handler of an account fails from the second account on -/
def auditAccount : Handler (Act (Traversal (Observed Nat)) Nat) := fun _ _ => Act.ofOutcome fun s =>
  (if s.extra.own = 0 then .ok 1 else .error .emptyStack, { s with extra := ⟨s.extra.found, s.extra.own + 1⟩ })

def audit : Visitor (Act (Traversal (Observed Nat)) Nat) :=
  ofKinds (fun _ => return 0) [(.program, auditProgram), (.account, auditAccount)]

theorem audit_sparesLinks : audit.SparesLinks := by
  refine sparesLinks_ofKinds (by decide) (fun n s r t ht => ?_) fun e he n => ?_
  · cases ht
    exact .refl s
  · rcases List.mem_cons.1 he with rfl | he
    · exact (Traversal.addsOnly_ofExcept (n.items .accounts)).bind fun vs =>
        (Traversal.addsOnly_visitAll vs).bind fun answers => Traversal.addsOnly_ofExcept (.ok answers.length)
    · obtain rfl := List.mem_singleton.1 he
      refine .step fun s r t ht => ?_
      cases ht
      exact ⟨rfl, rfl, rfl⟩

def bankOf (name : Text) (accounts : List Text) : Node :=
  .known .program (Node.fillSlots Kind.program.slots [(.name, .text name), (.accounts, .tuple (accounts.map fun account =>
    .node (.known .account (Node.fillSlots Kind.account.slots [(.name, .text account)]))))])

/-- the visit of the first bank fails at its second account, and another bank is visited; all five handlers
found the first bank and its three accounts, and the other bank is never recorded -/
theorem links_complete_in_audit : audit.SparesLinks ∧ (∀ around ∈ [@stacking Nat Nat], WrapperSparesLinks around) ∧
    (Traversal.start (Observed.mk [] 0)).linked = false ∧
    (([stacking].foldl intercept audit.noting).keepingLinks.afterVisits
      [(bankOf "first" ["a", "b", "c"], 1), (bankOf "second" ["d"], 1)] (.start ⟨[], 0⟩)).extra.found.map
        (fun e => (e.1.kind?, e.2.keys.map LinkKey.name)) = [
      (some .program, [.text "first", .text "a", .text "b", .text "c"]),
      (some .account, [.text "first", .text "a", .text "b", .text "c"]),
      (some .account, [.text "first", .text "a", .text "b", .text "c"]),
      (some .program, [.text "first", .text "a", .text "b", .text "c"]),
      (some .account, [.text "first", .text "a", .text "b", .text "c"])] ∧
    ∃ links, links = ((LinkTable.recordTree (bankOf "first" ["a", "b", "c"])).perform .empty).2 ∧
      links.entries = OrderedMap.empty.entries ++
        ((LinkTable.recordTree (bankOf "first" ["a", "b", "c"])).perform .empty).2.entries.filter
          (fun e => e.1 ∉ (OrderedMap.empty : LinkTable).keys) ∧
      ∃ t found, ([stacking].foldl intercept audit.noting).keepingLinks.afterVisits
          [(bankOf "first" ["a", "b", "c"], 1), (bankOf "second" ["d"], 1)] (.start ⟨[], 0⟩) = t ∧
        t.links = links ∧ t.extra.found = [] ++ found ∧ ∀ e ∈ found, e.2 = links :=
  have harounds := List.forall_mem_singleton.2 stacking_sparesLinks
  ⟨audit_sparesLinks, harounds, rfl, rfl,
    links_complete_before_handlers audit_sparesLinks harounds (s := .start ⟨[], 0⟩) rfl _ 1 [(bankOf "second" ["d"], 1)]⟩

end Visitor

end InterfacePages

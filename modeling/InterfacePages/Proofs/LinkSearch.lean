/-
What a link leads to, found by searching the programs that were recorded.

The link table is an index: an entry is filed under the names of its program and itself and its kind, and the first one
under a key stays. `search` has no index. It goes over the recorded programs and over what they declare, in order, and
takes the first node with the name asked for. `resolve_eq_search` says that both find the same. Of the entries of a
program those of one kind are what it declares of that kind (`lookupIn_entriesOf`), so the first entry under a key is the
first node with its name among what the programs with the name of its program declare (`lookupIn_programs`).
-/
import Mathlib.Data.Finset.Card
import Mathlib.Data.Finset.Dedup
import InterfacePages.Node.Decode
import InterfacePages.Proofs.LinkRecording

namespace InterfacePages

/-! ## Names -/

def Node.isNamed (name : NameKey) (n : Node) : Bool :=
  match n.get .name with
  | .ok v => v.nameKey = name
  | .error _ => false

theorem Node.isNamed_of_get {n : Node} {v : Value} (h : n.get .name = .ok v) (name : NameKey) :
    n.isNamed name = decide (v.nameKey = name) := by
  rw [isNamed, h]

/-! ## Entries -/

theorem OrderedMap.lookupIn_append {κ α : Type} [DecidableEq κ] (k : κ) (es es' : List (κ × α)) :
    lookupIn k (es ++ es') = (lookupIn k es).or (lookupIn k es') := by
  induction es with
  | nil => rfl
  | cons e rest ih =>
    rw [List.cons_append, lookupIn, lookupIn, ih]
    split <;> rfl

namespace LinkTable

/-- under a key of their program's name the first node of the kind and name is filed -/
theorem lookupIn_entries {name : Value} {ms : List Node} {es : List (LinkKey × Node)}
    (h : ms.mapM (entryOf name) = .ok es) (k : Kind) (key : NameKey) :
    OrderedMap.lookupIn ⟨name.nameKey, k, key⟩ es = ms.find? fun m => m.isKind k && m.isNamed key := by
  have hes := mapM_eq_ok.1 h
  clear h
  induction hes with
  | nil => rfl
  | @cons m e ms es he _ ih =>
    obtain ⟨k', v, hk, hv, rfl⟩ := entryOf_ok he
    rw [OrderedMap.lookupIn, ih, List.find?_cons, Node.isNamed_of_get hv, Node.isKind, hk]
    by_cases hkind : k' = k
    · by_cases hname : v.nameKey = key
      · simp [hkind, hname]
      · simp [hname]
    · simp [hkind, beq_eq_false_iff_ne.2 hkind]

theorem lookupIn_entries_other {name : Value} {ms : List Node} {es : List (LinkKey × Node)}
    (h : ms.mapM (entryOf name) = .ok es) {program : NameKey} (hp : name.nameKey ≠ program) (k : Kind) (key : NameKey) :
    OrderedMap.lookupIn ⟨program, k, key⟩ es = none := by
  have hes := mapM_eq_ok.1 h
  clear h
  induction hes with
  | nil => rfl
  | cons he _ ih =>
    obtain ⟨k', v, hk, hv, rfl⟩ := entryOf_ok he
    rw [OrderedMap.lookupIn, if_neg fun h => hp (LinkKey.mk.inj h).1, ih]

theorem find?_ofKind {k k' : Kind} {ms : List Node} (h : ∀ m ∈ ms, m.isKind k' = true) (key : NameKey) :
    (ms.find? fun m => m.isKind k && m.isNamed key) = if k' = k then ms.find? (·.isNamed key) else none := by
  induction ms with
  | nil => exact (ite_self _).symm
  | cons m rest ih =>
    rw [List.forall_mem_cons] at h
    rw [List.find?_cons, List.find?_cons, ih h.2, Node.isKind, beq_iff_eq.1 h.1]
    by_cases hk : k' = k
    · simp [hk]
    · simp [hk, beq_eq_false_iff_ne.2 hk]

/-- what is filed of a program -/
theorem entriesOf_ok {p : Node} {es : List (LinkKey × Node)} (h : entriesOf p = .ok es) :
    ∃ name pdas accounts types instructions, p.get .name = .ok name ∧ p.pdas = .ok pdas ∧ p.accounts = .ok accounts ∧
      p.definedTypes = .ok types ∧ p.instructions = .ok instructions ∧
      (p :: (pdas ++ accounts ++ types ++ instructions)).mapM (entryOf name) = .ok es := by
  obtain ⟨name, hname, h⟩ := except_bind_ok.1 h
  obtain ⟨pdas, hpdas, h⟩ := except_bind_ok.1 h
  obtain ⟨accounts, haccounts, h⟩ := except_bind_ok.1 h
  obtain ⟨types, htypes, h⟩ := except_bind_ok.1 h
  obtain ⟨instructions, hinstructions, h⟩ := except_bind_ok.1 h
  exact ⟨name, pdas, accounts, types, instructions, hname, hpdas, haccounts, htypes, hinstructions, h⟩

/-- under the name of a program the program is filed itself -/
theorem lookupIn_entriesOf_program {p : Node} (hp : p.isKind .program = true) {es : List (LinkKey × Node)}
    (h : entriesOf p = .ok es) (name : NameKey) :
    OrderedMap.lookupIn ⟨name, .program, name⟩ es = if p.isNamed name then some p else none := by
  obtain ⟨v, pdas, accounts, types, instructions, hv, hpdas, haccounts, htypes, hinstructions, h⟩ := entriesOf_ok h
  rw [Node.isNamed_of_get hv]
  by_cases hname : v.nameKey = name
  · subst hname
    rw [lookupIn_entries h, List.find?_cons, hp, Node.isNamed_of_get hv]
    simp
  · rw [lookupIn_entries_other h hname]
    simp [hname]

/-- the listings of a program by the kind of node that a link can lead to in it -/
def linked? : Kind → Option (Node → Except Fault (List Node))
  | .pda => some Node.pdas
  | .definedType => some Node.definedTypes
  | _ => none

/-- of one kind a program files what it declares of it, under its own name -/
theorem lookupIn_entriesOf {p : Node} (hp : p.isKind .program = true) {es : List (LinkKey × Node)}
    (h : entriesOf p = .ok es) {k : Kind} {list : Node → Except Fault (List Node)} (hk : linked? k = some list)
    (program name : NameKey) :
    ∃ ms, list p = .ok ms ∧ OrderedMap.lookupIn ⟨program, k, name⟩ es =
      if p.isNamed program then ms.find? (·.isNamed name) else none := by
  obtain ⟨v, pdas, accounts, types, instructions, hv, hpdas, haccounts, htypes, hinstructions, h⟩ := entriesOf_ok h
  rw [Node.isNamed_of_get hv]
  by_cases hname : v.nameKey = program
  · subst hname
    -- of the parts of the list only the one with the declared nodes of the kind is searched
    rw [lookupIn_entries h, ← List.singleton_append, List.find?_append, List.find?_append, List.find?_append,
      List.find?_append, find?_ofKind (List.forall_mem_singleton.2 hp), find?_ofKind (Node.isKind_of_members hpdas),
      find?_ofKind (Node.isKind_of_members haccounts), find?_ofKind (Node.isKind_of_members htypes),
      find?_ofKind (Node.isKind_of_instructionsUpTo hinstructions)]
    cases k with
    | pda =>
      cases hk
      exact ⟨pdas, hpdas, by simp⟩
    | definedType =>
      cases hk
      exact ⟨types, htypes, by simp⟩
    | _ => cases hk
  · rw [lookupIn_entries_other h hname]
    simp only [hname, decide_false, Bool.false_eq_true, if_false, and_true]
    cases k with
    | pda =>
      cases hk
      exact ⟨pdas, hpdas⟩
    | definedType =>
      cases hk
      exact ⟨types, htypes⟩
    | _ => cases hk

/-! ## Searching -/

/-- the first node of a name among what the programs of a name declare, of those that list it -/
def firstDeclared (list : Node → Except Fault (List Node)) (ps : List Node) (program name : NameKey) :
    Except Fault (Option Node) := do
  return (← (ps.filter (·.isNamed program)).mapM list).flatten.find? (·.isNamed name)

/-- the node that a link on a path leads to, found by searching some programs -/
def search (ps : List Node) (path : List Node) (link : Node) : Except Fault (Option Node) :=
  match link.kind? with
  | some .programLink => do
    let name ← link.get .name
    return ps.find? (·.isNamed name.nameKey)
  | some .pdaLink => searchWith Node.pdas
  | some .definedTypeLink => searchWith Node.definedTypes
  | _ => .ok none
where
  /-- searches the programs that the link names, or those named like the innermost program of the path -/
  searchWith (list : Node → Except Fault (List Node)) : Except Fault (Option Node) := do
    match ← programName path link with
    | none => return none
    | some program => firstDeclared list ps program.nameKey (← link.get .name).nameKey

variable {ps : List Node} {ess : List (List (LinkKey × Node))}

/-- the first program of a name is the first that is filed under it -/
theorem lookupIn_program (hps : ∀ p ∈ ps, p.isKind .program = true) (h : ps.mapM entriesOf = .ok ess) (name : NameKey) :
    OrderedMap.lookupIn ⟨name, .program, name⟩ ess.flatten = ps.find? (·.isNamed name) := by
  have hess := mapM_eq_ok.1 h
  clear h
  induction hess with
  | nil => rfl
  | cons he _ ih =>
    rw [List.forall_mem_cons] at hps
    rw [List.flatten_cons, OrderedMap.lookupIn_append, lookupIn_entriesOf_program hps.1 he, ih hps.2, List.find?_cons]
    split <;> simp_all

/-- under a key stands the first node of its name among what the programs of its program's name declare -/
theorem lookupIn_programs (hps : ∀ p ∈ ps, p.isKind .program = true) (h : ps.mapM entriesOf = .ok ess) {k : Kind}
    {list : Node → Except Fault (List Node)} (hk : linked? k = some list) (program name : NameKey) :
    firstDeclared list ps program name = .ok (OrderedMap.lookupIn ⟨program, k, name⟩ ess.flatten) := by
  have hess := mapM_eq_ok.1 h
  clear h
  suffices ∃ mss, (ps.filter (·.isNamed program)).mapM list = .ok mss ∧
      OrderedMap.lookupIn ⟨program, k, name⟩ ess.flatten = mss.flatten.find? (·.isNamed name) by
    obtain ⟨mss, hmss, hlookup⟩ := this
    rw [firstDeclared, hmss, hlookup]
    rfl
  induction hess with
  | nil => exact ⟨[], rfl, rfl⟩
  | @cons p es ps ess he _ ih =>
    rw [List.forall_mem_cons] at hps
    obtain ⟨mss, hmss, hlookup⟩ := ih hps.2
    obtain ⟨ms, hms, hown⟩ := lookupIn_entriesOf hps.1 he hk program name
    rw [List.flatten_cons, OrderedMap.lookupIn_append, hlookup, hown, List.filter_cons]
    by_cases hnamed : p.isNamed program = true
    · refine ⟨ms :: mss, ?_, ?_⟩
      · rw [if_pos hnamed]
        exact mapM_eq_ok.2 (.cons hms (mapM_eq_ok.1 hmss))
      · rw [if_pos hnamed, List.flatten_cons, List.find?_append]
    · rw [if_neg hnamed, if_neg hnamed]
      exact ⟨mss, hmss, rfl⟩

/-! ## Recording several trees -/

/-- recording trees one after another files all their programs in order -/
theorem recordTrees_entries {ns : List Node} {pss : List (List Node)} (hpss : ns.mapM Node.programs = .ok pss)
    (h : pss.flatten.mapM entriesOf = .ok ess) (t : LinkTable) :
    (ns.forM recordTree).perform t = (.ok (), fileAll ess.flatten t) := by
  have hentries : (do return (← ns.mapM treeEntries).flatten) = .ok ess.flatten := by
    have hall := mapM_eq_ok.1 hpss
    clear hpss
    induction hall generalizing ess with
    | nil =>
      cases h
      rfl
    | @cons n ps ns pss hps _ ih =>
      rw [List.flatten_cons, List.mapM_append] at h
      obtain ⟨here, hhere, h⟩ := except_bind_ok.1 h
      obtain ⟨rest, hrest, h⟩ := except_bind_ok.1 h
      cases h
      obtain ⟨others, hothers, hflat⟩ := except_bind_ok.1 (ih hrest)
      have hn : treeEntries n = .ok here.flatten :=
        except_bind_ok.2 ⟨ps, hps, except_bind_ok.2 ⟨here, hhere, rfl⟩⟩
      rw [List.mapM_cons, hn, hothers, List.flatten_append, ← Except.ok.inj hflat]
      rfl
  have hfiles := Files.forM recordTree_files ns
  rw [hentries] at hfiles
  exact hfiles.perform t

/-- as many entries are filed as there are keys among them -/
theorem size_fileAll (es : List (LinkKey × Node)) :
    (fileAll es .empty).size = (es.map Prod.fst).toFinset.card := by
  have hkeys : (fileAll es .empty).keys.toFinset = (es.map Prod.fst).toFinset := by
    ext k
    rw [List.mem_toFinset, List.mem_toFinset, mem_keys_fileAll]
    exact ⟨fun h => h.resolve_left List.not_mem_nil, .inr⟩
  rw [← hkeys, List.toFinset_card_of_nodup (show (fileAll es .empty).keys.Nodup from (fileAll es .empty).nodup)]
  rw [OrderedMap.keys, List.length_map]
  rfl

/-- a link to what programs declare finds what a search of these declarations finds -/
theorem resolve_eq_searchWith (hps : ∀ p ∈ ps, p.isKind .program = true) (h : ps.mapM entriesOf = .ok ess) {link : Node}
    {k : Kind} (hk : link.kind?.bind target? = some k) {list : Node → Except Fault (List Node)}
    (hlist : linked? k = some list) (path : List Node) :
    (fileAll ess.flatten .empty).resolve path link = search.searchWith ps path link list := by
  have hne : k ≠ .program := fun h => by
    rw [h] at hlist
    cases hlist
  rw [resolve_member hk hne, search.searchWith]
  refine congrArg _ (funext fun program => ?_)
  cases program with
  | none => rfl
  | some program =>
    refine congrArg (link.get .name >>= ·) (funext fun name => ?_)
    rw [get?_fileAll_empty, lookupIn_programs hps h hlist]
    rfl

/-- a link to a program finds the first program of its name -/
theorem resolve_programLink (hps : ∀ p ∈ ps, p.isKind .program = true) (h : ps.mapM entriesOf = .ok ess) {link : Node}
    (hk : link.kind? = some .programLink) (path : List Node) :
    (fileAll ess.flatten .empty).resolve path link = do
      let name ← link.get .name
      return ps.find? (·.isNamed name.nameKey) := by
  unfold resolve
  rw [hk]
  refine congrArg (link.get .name >>= ·) (funext fun name => ?_)
  rw [← lookupIn_program hps h, ← get?_fileAll_empty]

/-- **Links lead where a search leads.** Some trees are recorded one after another, and what is listed of their programs
is there and has names. Then the recording goes through, and every link on every path leads to what a search of all the
programs finds, in the order in which they were recorded; if the link or the path has no name where one is needed, both
fail in the same way. The table has one entry for every program's name, kind and name among what is listed. -/
theorem resolve_eq_search {ns : List Node} {pss : List (List Node)} (hpss : ns.mapM Node.programs = .ok pss)
    (hess : pss.flatten.mapM entriesOf = .ok ess) :
    ∃ table, (ns.forM recordTree).perform .empty = (.ok (), table) ∧
      (∀ path link, table.resolve path link = search pss.flatten path link) ∧
      table.size = (ess.flatten.map Prod.fst).toFinset.card := by
  refine ⟨_, recordTrees_entries hpss hess .empty, fun path link => ?_, size_fileAll _⟩
  have hprograms : ∀ p ∈ pss.flatten, p.isKind .program = true := by
    intro p hp
    obtain ⟨ps, hps, hp⟩ := List.mem_flatten.1 hp
    obtain ⟨n, _, hn⟩ := exists_of_forall₂ (mapM_eq_ok.1 hpss) hps
    exact Node.isKind_of_programs hn p hp
  unfold search
  split
  · next hk => exact resolve_programLink hprograms hess hk path
  · next hk => exact resolve_eq_searchWith (k := .pda) hprograms hess (by rw [hk]; rfl) rfl path
  · next hk => exact resolve_eq_searchWith (k := .definedType) hprograms hess (by rw [hk]; rfl) rfl path
  · next hprogram hpda htype =>
    have hnone : link.kind?.bind target? = none := by
      cases hk : link.kind? with
      | none => rfl
      | some k => cases k <;> first | rfl | simp_all
    unfold resolve
    rw [hnone]

def bankWith (addresses : List (Text × Text)) : Node :=
  .known .program (Node.fillSlots Kind.program.slots [(.name, .text "bank"),
    (.pdas, .tuple (.node (.unknown (.text "eventNode") []) :: addresses.map fun address =>
      .node (.known .pda (Node.fillSlots Kind.pda.slots [
        (.name, .text address.1), (.docs, .tuple [.text address.2])]))))])

def addressLink (name : Text) : Node :=
  .known .pdaLink (Node.fillSlots Kind.pdaLink.slots [(.name, .text name)])

/-- two programs of one name, the second with the address of the first and another one -/
def banks : List Node := [bankWith [("vault", "old")], bankWith [("vault", "new"), ("reserve", "new")]]

/-- the second bank adds only the address that the first does not have: five nodes are recorded under three keys, and the
link to the address that both have leads to the first -/
theorem resolve_in_banks : ∃ ess table, banks.mapM Node.programs = .ok [[banks[0]], [banks[1]]] ∧
    banks.mapM entriesOf = .ok ess ∧ ess.flatten.length = 5 ∧
    (banks.forM recordTree).perform .empty = (.ok (), table) ∧ table.size = 3 ∧
    (∀ path link, table.resolve path link = search banks path link) ∧
    (do return (← (← table.resolve [bankWith []] (addressLink "vault")).mapM (·.get .docs)) : Except Fault _) =
      .ok (some (.tuple [.text "old"])) ∧
    (do return (← (← table.resolve [bankWith []] (addressLink "reserve")).mapM (·.get .docs)) : Except Fault _) =
      .ok (some (.tuple [.text "new"])) ∧
    table.resolve [] (addressLink "vault") = .ok none := by
  have hpss : banks.mapM Node.programs = .ok [[banks[0]], [banks[1]]] := rfl
  have hess : banks.mapM entriesOf = .ok ((banks.mapM entriesOf).toOption.getD []) := rfl
  obtain ⟨table, htable, hresolve, hsize⟩ := resolve_eq_search hpss hess
  refine ⟨_, table, hpss, hess, rfl, htable, hsize.trans (by decide), hresolve, ?_, ?_, ?_⟩
  · rw [hresolve]
    rfl
  · rw [hresolve]
    rfl
  · rw [hresolve]
    rfl

end LinkTable

end InterfacePages

/-
What the link table holds once a tree has been recorded, and what a link finds in it.

`recordTree_ok` turns a recording that went through into a list of entries, one for each program and each of its
members, in order; of several entries under one key the first one stays (`get?_foldl_insertNew`). `resolve_eq` says what
a link to a defined type looks for.
-/
import InterfacePages.Proofs.Action
import InterfacePages.Proofs.OrderedMaps
import InterfacePages.Link

namespace InterfacePages

/-! ## Kinds of declared nodes -/

namespace Node

theorem isKind_of_ofKind {k : Kind} {vs : List Value} {ns : List Node} (h : ofKind k vs = .ok ns) :
    ∀ n ∈ ns, n.isKind k = true := by
  induction vs generalizing ns with
  | nil =>
    cases h
    exact fun n hn => absurd hn List.not_mem_nil
  | cons v rest ih =>
    obtain ⟨m, hm, h⟩ := except_bind_ok.1 h
    obtain ⟨ms, hms, h⟩ := except_bind_ok.1 h
    cases h
    split
    · next hk => exact List.forall_mem_cons.2 ⟨hk, ih hms⟩
    · exact ih hms

theorem isKind_of_programs {n : Node} {ps : List Node} (h : n.programs = .ok ps) :
    ∀ p ∈ ps, p.isKind .program = true := by
  unfold programs at h
  split at h
  · obtain ⟨main, hmain, h⟩ := except_bind_ok.1 h
    obtain ⟨others, hothers, h⟩ := except_bind_ok.1 h
    exact isKind_of_ofKind h
  · next hk =>
    cases h
    exact List.forall_mem_singleton.2 (beq_iff_eq.2 hk)
  · cases h
    exact fun n hn => absurd hn List.not_mem_nil

def ownMembers (a : Attr) (k : Kind) (p : Node) : Except Fault (List Node) := do ofKind k (← p.items a)

theorem members_ok {a : Attr} {k : Kind} {n : Node} {ms : List Node} (h : n.members a k = .ok ms) :
    ∃ ps mss, n.programs = .ok ps ∧ List.Forall₂ (fun p ms => p.ownMembers a k = .ok ms) ps mss ∧ ms = mss.flatten := by
  obtain ⟨ps, hps, h⟩ := except_bind_ok.1 h
  obtain ⟨mss, hmss, h⟩ := except_bind_ok.1 h
  cases h
  exact ⟨ps, mss, hps, mapM_eq_ok.1 hmss, rfl⟩

theorem isKind_of_members {a : Attr} {k : Kind} {n : Node} {ms : List Node} (h : n.members a k = .ok ms) :
    ∀ m ∈ ms, m.isKind k = true := by
  obtain ⟨ps, mss, _, hmss, rfl⟩ := members_ok h
  intro m hm
  obtain ⟨ms, hms, hm⟩ := List.mem_flatten.1 hm
  obtain ⟨p, _, hp⟩ := exists_of_forall₂ hmss hms
  obtain ⟨vs, _, hp⟩ := except_bind_ok.1 hp
  exact isKind_of_ofKind hp m hm

theorem programs_program {p : Node} (hp : p.isKind .program = true) : p.programs = .ok [p] := by
  unfold programs
  rw [beq_iff_eq.1 hp]

theorem members_program {a : Attr} {k : Kind} {p : Node} (hp : p.isKind .program = true) {ms : List Node} :
    p.members a k = .ok ms ↔ p.ownMembers a k = .ok ms := by
  constructor
  · intro h
    obtain ⟨ps, mss, hps, hmss, rfl⟩ := members_ok h
    rw [programs_program hp] at hps
    cases hps
    cases hmss with
    | cons hm hrest =>
      cases hrest
      rw [List.flatten_singleton]
      exact hm
  · intro h
    unfold members
    rw [programs_program hp]
    change (do return (← [p].mapM (ownMembers a k)).flatten) = _
    rw [mapM_eq_ok.2 (.cons h .nil)]
    exact congrArg Except.ok List.flatten_singleton

theorem isKind_of_listAll {list : Node → Except Fault (List Node)} {k : Kind}
    (h : ∀ n ns, list n = .ok ns → ∀ m ∈ ns, m.isKind k = true) {vs : List Value} {ns : List Node}
    (hl : listAll list vs = .ok ns) : ∀ m ∈ ns, m.isKind k = true := by
  induction vs generalizing ns with
  | nil =>
    cases hl
    exact fun m hm => absurd hm List.not_mem_nil
  | cons v rest ih =>
    obtain ⟨n, _, hl⟩ := except_bind_ok.1 hl
    obtain ⟨here, hhere, hl⟩ := except_bind_ok.1 hl
    obtain ⟨others, hothers, hl⟩ := except_bind_ok.1 hl
    cases hl
    exact List.forall_mem_append.2 ⟨h n here hhere, ih hothers⟩

theorem isKind_of_instructionsUpTo {leavesOnly : Bool} {fuel : Nat} {n : Node} {ns : List Node}
    (h : instructionsUpTo leavesOnly fuel n = .ok ns) : ∀ m ∈ ns, m.isKind .instruction = true := by
  induction fuel generalizing n ns with
  | zero => cases h
  | succ fuel ih =>
    have hall : ∀ {vs ms}, listAll (instructionsUpTo leavesOnly fuel) vs = .ok ms →
        ∀ m ∈ ms, m.isKind .instruction = true := isKind_of_listAll fun n ns h => ih h
    unfold instructionsUpTo at h
    split at h
    · next hn =>
      obtain ⟨subs, _, h⟩ := except_bind_ok.1 h
      split at h
      · cases h
        exact List.forall_mem_singleton.2 hn
      · obtain ⟨vs, _, h⟩ := except_bind_ok.1 h
        obtain ⟨nested, hnested, h⟩ := except_bind_ok.1 h
        cases h
        split
        · exact hall hnested
        · exact List.forall_mem_cons.2 ⟨hn, hall hnested⟩
    · obtain ⟨ps, _, h⟩ := except_bind_ok.1 h
      obtain ⟨mss, hmss, h⟩ := except_bind_ok.1 h
      cases h
      intro m hm
      obtain ⟨ms, hms, hm⟩ := List.mem_flatten.1 hm
      obtain ⟨p, _, hp⟩ := exists_of_forall₂ (mapM_eq_ok.1 hmss) hms
      obtain ⟨vs, _, hp⟩ := except_bind_ok.1 hp
      exact hall hp m hm

end Node

/-! ## Distinct names -/

namespace Node

/-- two nodes have names that compare as one -/
def SameName (m n : Node) : Prop :=
  ∃ v w, m.get .name = .ok v ∧ n.get .name = .ok w ∧ v.nameKey = w.nameKey

theorem SameName.symm {m n : Node} : m.SameName n → n.SameName m := fun ⟨v, w, hv, hw, h⟩ => ⟨w, v, hw, hv, h.symm⟩

theorem SameName.of_get {m n : Node} {name : NameKey} {v w : Value} (hm : m.get .name = .ok v)
    (hv : v.nameKey = name) (hn : n.get .name = .ok w) (hw : w.nameKey = name) : m.SameName n :=
  ⟨v, w, hm, hn, hv.trans hw.symm⟩

theorem SameName.nameKey_eq {m n : Node} (h : m.SameName n) {v w : Value} (hm : m.get .name = .ok v)
    (hn : n.get .name = .ok w) : v.nameKey = w.nameKey := by
  obtain ⟨v', w', hv, hw, h⟩ := h
  rw [hm] at hv
  rw [hn] at hw
  cases hv
  cases hw
  exact h

/-- no two of some nodes have the same name -/
def DistinctNames (ns : List Node) : Prop := ns.Pairwise fun m n => ¬ m.SameName n

theorem DistinctNames.eq {ns : List Node} (h : DistinctNames ns) {m n : Node} (hm : m ∈ ns) (hn : n ∈ ns)
    (hs : m.SameName n) : m = n := by
  have hsymm : Std.Symm fun m n : Node => ¬ m.SameName n := ⟨fun _ _ h hs => h hs.symm⟩
  by_contra hne
  exact List.Pairwise.forall h hm hn hne hs

/-- where the types of all programs have distinct names, one name is that of one type in one program -/
theorem DistinctNames.type_eq {n : Node} {ps ts : List Node} (hps : n.programs = .ok ps) (hts : n.definedTypes = .ok ts)
    (h : DistinctNames ts) {p q : Node} (hp : p ∈ ps) (hq : q ∈ ps) {types types' : List Node}
    (htypes : p.definedTypes = .ok types) (htypes' : q.definedTypes = .ok types') {x y : Node} (hx : x ∈ types)
    (hy : y ∈ types') (hs : x.SameName y) : p = q ∧ x = y := by
  obtain ⟨ps', mss, hps', hmss, rfl⟩ := members_ok hts
  rw [hps] at hps'
  cases hps'
  have hown : ∀ {r ms}, r ∈ ps → r.definedTypes = .ok ms → r.ownMembers .definedTypes .definedType = .ok ms :=
    fun hr hms => (members_program (isKind_of_programs hps _ hr)).1 hms
  have hpq : p = q := by
    by_contra hne
    have hapart := pairwise_of_forall₂ hmss (List.pairwise_flatten.1 h).2
    have hsymm : Std.Symm fun r r' : Node => ∃ ms ms', r.ownMembers .definedTypes .definedType = .ok ms ∧
        r'.ownMembers .definedTypes .definedType = .ok ms' ∧ ∀ x ∈ ms, ∀ y ∈ ms', ¬ x.SameName y :=
      ⟨fun _ _ ⟨ms, ms', hms, hms', h⟩ => ⟨ms', ms, hms', hms, fun x hx y hy hs => h y hy x hx hs.symm⟩⟩
    obtain ⟨ms, ms', hms, hms', hdiffer⟩ := List.Pairwise.forall hapart hp hq hne
    rw [hown hp htypes] at hms
    rw [hown hq htypes'] at hms'
    cases hms
    cases hms'
    exact hdiffer x hx y hy hs
  subst hpq
  rw [htypes] at htypes'
  cases htypes'
  obtain ⟨ms, hms, hr⟩ := exists_of_forall₂ hmss.flip hp
  rw [hown hp htypes] at hr
  cases hr
  exact ⟨rfl, h.eq (List.mem_flatten.2 ⟨_, hms, hx⟩) (List.mem_flatten.2 ⟨_, hms, hy⟩) hs⟩

end Node

/-! ## Looking up -/

namespace LinkTable

/-- the name of the program that a link is looked up in: the one it names or else the innermost one of the path -/
def programName (path : List Node) (link : Node) : Except Fault (Option Value) := do
  let program ← link.get .program
  if program.isAbsent then
    match programOf? path with
    | none => return none
    | some p => return some (← p.get .name)
  else return some (← (← program.asNode).get .name)

/-- what a table holds for a link in a program, if there is one -/
def find (table : LinkTable) (link : Node) : Option Value → Except Fault (Option Node)
  | none => .ok none
  | some name => do return table.get? ⟨name.nameKey, .definedType, (← link.get .name).nameKey⟩

variable {table : LinkTable} {path : List Node} {l : Node}

/-- a link to anything but a program is looked up under the kind of node it leads to -/
theorem resolve_member {k : Kind} (hl : l.kind?.bind target? = some k) (hk : k ≠ .program) :
    table.resolve path l = do
      match ← programName path l with
      | none => return none
      | some name => return table.get? ⟨name.nameKey, k, (← l.get .name).nameKey⟩ := by
  unfold resolve programName
  rw [hl]
  cases k with
  | program => exact absurd rfl hk
  | _ =>
    dsimp only
    rw [bind_assoc]
    refine congrArg _ (funext fun program => ?_)
    cases program.isAbsent
    · change (program.asNode >>= fun p => _) = (program.asNode >>= fun p => _) >>= _
      rw [bind_assoc]
      refine congrArg _ (funext fun p => ?_)
      cases p.get .name <;> rfl
    · change (match programOf? path with | none => _ | some p => _) =
        (match programOf? path with | none => _ | some p => _) >>= _
      cases programOf? path with
      | none => rfl
      | some p =>
        dsimp only
        cases p.get .name <;> rfl

/-- related paths have related innermost programs -/
theorem programOf?_related {R : Node → Node → Prop} (hkind : ∀ n n', R n n' → n.kind? = n'.kind?) {path' : List Node}
    (h : List.Forall₂ R path path') :
    Option.Rel (fun p p' => R p p' ∧ p.isKind .program = true) (programOf? path) (programOf? path') := by
  have hreverse := List.forall₂_reverse_iff.2 h
  unfold programOf?
  generalize path.reverse = ns at hreverse ⊢
  generalize path'.reverse = ns' at hreverse ⊢
  induction hreverse with
  | nil => exact .none
  | @cons n n' ns ns' hn _ ih =>
    have hsame : n'.isKind .program = n.isKind .program := by
      unfold Node.isKind
      rw [hkind n n' hn]
    rw [List.find?_cons, List.find?_cons, hsame]
    cases hp : n.isKind .program
    · exact ih
    · exact .some ⟨hn, hp⟩

/-- a link is looked up in the same program on paths whose programs have the same names -/
theorem programName_congr {R : Node → Node → Prop} (hkind : ∀ n n', R n n' → n.kind? = n'.kind?)
    (hname : ∀ p p', R p p' → p.isKind .program = true → p.get .name = p'.get .name) {path' : List Node}
    (h : List.Forall₂ R path path') (link : Node) : programName path link = programName path' link := by
  have hprogram := programOf?_related hkind h
  unfold programName
  cases link.get .program with
  | error e => rfl
  | ok program =>
    change (if program.isAbsent then _ else _) = (if program.isAbsent then _ else _)
    split
    · generalize programOf? path = p at hprogram ⊢
      generalize programOf? path' = p' at hprogram ⊢
      cases hprogram with
      | none => rfl
      | some hp =>
        dsimp only
        rw [hname _ _ hp.1 hp.2]
    · rfl

theorem resolve_eq (hl : l.isKind .definedTypeLink = true) :
    table.resolve path l = programName path l >>= table.find l := by
  have hkind : l.kind?.bind target? = some .definedType := by
    rw [beq_iff_eq.1 hl]
    rfl
  rw [resolve_member hkind (by decide)]
  refine congrArg _ (funext fun program => ?_)
  cases program <;> rfl

/-- a link that leads somewhere is looked up under the name of a program and its own -/
theorem resolve_some (hl : l.isKind .definedTypeLink = true) {target : Node} :
    table.resolve path l = .ok (some target) ↔
      ∃ program name, programName path l = .ok (some program) ∧ l.get .name = .ok name ∧
        table.get? ⟨program.nameKey, .definedType, name.nameKey⟩ = some target := by
  rw [resolve_eq hl, except_bind_ok]
  constructor
  · rintro ⟨found, hf, h⟩
    cases found with
    | none => cases h
    | some program =>
      obtain ⟨name, hn, h⟩ := except_bind_ok.1 h
      exact ⟨program, name, hf, hn, Except.ok.inj h⟩
  · rintro ⟨program, name, hf, hn, h⟩
    refine ⟨some program, hf, except_bind_ok.2 ⟨name, hn, ?_⟩⟩
    rw [h]
    rfl

theorem programName_explicit (path' : List Node) {program : Value} (hp : l.get .program = .ok program)
    (ha : program.isAbsent = false) : programName path l = programName path' l := by
  unfold programName
  rw [hp]
  change (if program.isAbsent then _ else _) = (if program.isAbsent then _ else _)
  rw [ha]
  rfl

theorem programName_implicit {program : Value} (hp : l.get .program = .ok program) (ha : program.isAbsent = true) :
    programName path l = match programOf? path with
      | none => .ok none
      | some p => do return some (← p.get .name) := by
  unfold programName
  rw [hp]
  change (if program.isAbsent then _ else _) = _
  rw [ha]
  rfl

/-- a link without a program is looked up in the program that the path ends with -/
theorem programName_last {n p : Node} (hk : p.isKind .program = true) {program name : Value}
    (hp : l.get .program = .ok program) (ha : program.isAbsent = true) (h : programName [n, p] l = .ok (some name)) :
    p.get .name = .ok name := by
  have hlast : programOf? [n, p] = some p := List.find?_cons_of_pos hk
  rw [programName_implicit hp ha, hlast] at h
  obtain ⟨v, hv, h⟩ := except_bind_ok.1 h
  cases h
  exact hv

/-- what a link leads to without a path it leads to on any path -/
theorem resolve_pathless (hl : l.isKind .definedTypeLink = true) {target : Node}
    (h : table.resolve [] l = .ok (some target)) (path : List Node) : table.resolve path l = .ok (some target) := by
  obtain ⟨program, name, hp, hn, hf⟩ := (resolve_some hl).1 h
  refine (resolve_some hl).2 ⟨program, name, ?_, hn, hf⟩
  obtain ⟨given, hg, _⟩ := except_bind_ok.1 hp
  cases ha : given.isAbsent
  · rwa [programName_explicit [] hg ha]
  · rw [programName_implicit hg ha] at hp
    cases hp

/-! ## Recording -/

def entryOf (programName : Value) : Node → Except Fault (LinkKey × Node)
  | .known kind attributes => do
    let n := Node.known kind attributes
    return (⟨programName.nameKey, kind, (← n.get .name).nameKey⟩, n)
  | .unknown _ _ => .error .missingAttribute

/-- the entries that the nodes of a program are filed as, the program first -/
def entriesOf (p : Node) : Except Fault (List (LinkKey × Node)) := do
  let name ← p.get .name
  let members := (← p.pdas) ++ (← p.accounts) ++ (← p.definedTypes) ++ (← p.instructions)
  (p :: members).mapM (entryOf name)

/-- a table with more entries, none of which takes a key that is taken -/
def fileAll (entries : List (LinkKey × Node)) (table : LinkTable) : LinkTable :=
  entries.foldl (fun table e => table.insertNew e.1 e.2) table

theorem recordAct_ok {name : Value} {n : Node} {t t' : LinkTable} (h : (recordAct name n).perform t = (.ok (), t')) :
    ∃ e, entryOf name n = .ok e ∧ t' = t.insertNew e.1 e.2 := by
  unfold recordAct at h
  rw [Act.perform_ofOutcome] at h
  cases n with
  | unknown k object => cases h
  | known kind attributes =>
    simp only [record] at h
    simp only [entryOf]
    cases hn : (Node.known kind attributes).get .name with
    | error e =>
      rw [hn] at h
      cases h
    | ok v =>
      rw [hn] at h
      cases h
      exact ⟨(⟨name.nameKey, kind, v.nameKey⟩, .known kind attributes), rfl, rfl⟩

theorem forM_record_ok {p : Node} {name : Value} (hn : p.get .name = .ok name) {ms : List Node} {t t' : LinkTable}
    (h : (ms.forM fun m => do recordAct (← Act.ofExcept (p.get .name)) m).perform t = (.ok (), t')) :
    ∃ es, ms.mapM (entryOf name) = .ok es ∧ t' = fileAll es t := by
  induction ms generalizing t with
  | nil =>
    cases h
    exact ⟨[], rfl, rfl⟩
  | cons m rest ih =>
    obtain ⟨_, s, hm, h⟩ := Act.bind_eq_ok.1 h
    obtain ⟨name', hname, hm⟩ := Act.ofExcept_bind_eq_ok.1 hm
    rw [hn] at hname
    cases hname
    obtain ⟨e, he, rfl⟩ := recordAct_ok hm
    obtain ⟨es, hes, rfl⟩ := ih h
    refine ⟨e :: es, ?_, rfl⟩
    rw [List.mapM_cons, he, hes]
    rfl

theorem recordProgram_ok {p : Node} {t t' : LinkTable} (h : (recordProgram p).perform t = (.ok (), t')) :
    ∃ es, entriesOf p = .ok es ∧ t' = fileAll es t := by
  obtain ⟨name, hn, h⟩ := Act.ofExcept_bind_eq_ok.1 h
  obtain ⟨_, s, hp, h⟩ := Act.bind_eq_ok.1 h
  obtain ⟨e, he, rfl⟩ := recordAct_ok hp
  obtain ⟨pdas, hpdas, h⟩ := Act.ofExcept_bind_eq_ok.1 h
  obtain ⟨accounts, haccounts, h⟩ := Act.ofExcept_bind_eq_ok.1 h
  obtain ⟨types, htypes, h⟩ := Act.ofExcept_bind_eq_ok.1 h
  obtain ⟨instructions, hinstructions, h⟩ := Act.ofExcept_bind_eq_ok.1 h
  obtain ⟨es, hes, rfl⟩ := forM_record_ok hn h
  refine ⟨e :: es, ?_, rfl⟩
  unfold entriesOf
  rw [hn, hpdas, haccounts, htypes, hinstructions]
  change (p :: (pdas ++ accounts ++ types ++ instructions)).mapM (entryOf name) = _
  rw [List.mapM_cons, he, hes]
  rfl

theorem forM_recordProgram_ok {ps : List Node} {t t' : LinkTable}
    (h : (ps.forM recordProgram).perform t = (.ok (), t')) :
    ∃ ess, ps.mapM entriesOf = .ok ess ∧ t' = fileAll ess.flatten t := by
  induction ps generalizing t with
  | nil =>
    cases h
    exact ⟨[], rfl, rfl⟩
  | cons p rest ih =>
    obtain ⟨_, s, hp, h⟩ := Act.bind_eq_ok.1 h
    obtain ⟨es, hes, rfl⟩ := recordProgram_ok hp
    obtain ⟨ess, hess, rfl⟩ := ih h
    refine ⟨es :: ess, ?_, ?_⟩
    · rw [List.mapM_cons, hes, hess]
      rfl
    · rw [List.flatten_cons]
      exact (List.foldl_append ..).symm

/-- a recording that went through has filed the entries of all programs in order -/
theorem recordTree_ok {n : Node} {t t' : LinkTable} (h : (recordTree n).perform t = (.ok (), t')) :
    ∃ ps ess, n.programs = .ok ps ∧ List.Forall₂ (fun p es => entriesOf p = .ok es) ps ess ∧
      t' = fileAll ess.flatten t := by
  obtain ⟨ps, hps, h⟩ := Act.ofExcept_bind_eq_ok.1 h
  obtain ⟨ess, hess, ht⟩ := forM_recordProgram_ok h
  exact ⟨ps, ess, hps, mapM_eq_ok.1 hess, ht⟩

theorem get?_fileAll (entries : List (LinkKey × Node)) (t : LinkTable) (k : LinkKey) :
    (fileAll entries t).get? k = (t.get? k).or (OrderedMap.lookupIn k entries) := by
  induction entries generalizing t with
  | nil => exact (Option.or_none).symm
  | cons e rest ih =>
    change (fileAll rest (t.insertNew e.1 e.2)).get? k = _
    rw [ih, OrderedMap.insertNew, OrderedMap.get?_upsert, OrderedMap.lookupIn]
    split
    · next hk =>
      subst hk
      cases t.get? e.1 <;> rfl
    · rfl

theorem get?_fileAll_empty (entries : List (LinkKey × Node)) (k : LinkKey) :
    (fileAll entries .empty).get? k = OrderedMap.lookupIn k entries := by
  rw [get?_fileAll, OrderedMap.get?_empty, Option.none_or]

theorem entryOf_ok {name : Value} {n : Node} {e : LinkKey × Node} (h : entryOf name n = .ok e) :
    ∃ k v, n.kind? = some k ∧ n.get .name = .ok v ∧ e = (⟨name.nameKey, k, v.nameKey⟩, n) := by
  cases n with
  | unknown k object => cases h
  | known kind attributes =>
    obtain ⟨v, hv, h⟩ := except_bind_ok.1 h
    cases h
    exact ⟨kind, v, rfl, hv, rfl⟩

/-- a defined type is filed under the names of its program and itself, and nothing else is filed as a defined type -/
theorem mem_entriesOf {p : Node} (hp : p.isKind .program = true) {es : List (LinkKey × Node)}
    (h : entriesOf p = .ok es) {program name : NameKey} {n : Node} :
    (⟨program, .definedType, name⟩, n) ∈ es ↔
      ∃ pv nv types, p.get .name = .ok pv ∧ pv.nameKey = program ∧ n.get .name = .ok nv ∧ nv.nameKey = name ∧
        p.definedTypes = .ok types ∧ n ∈ types := by
  obtain ⟨pv, hpv, h⟩ := except_bind_ok.1 h
  obtain ⟨pdas, hpdas, h⟩ := except_bind_ok.1 h
  obtain ⟨accounts, haccounts, h⟩ := except_bind_ok.1 h
  obtain ⟨types, htypes, h⟩ := except_bind_ok.1 h
  obtain ⟨instructions, hinstructions, h⟩ := except_bind_ok.1 h
  have hes := mapM_eq_ok.1 h
  constructor
  · intro he
    obtain ⟨m, hm, he⟩ := exists_of_forall₂ hes he
    obtain ⟨k, nv, hk, hnv, he⟩ := entryOf_ok he
    cases he
    have hother : ∀ {k}, n.isKind k = true → k = .definedType := fun hn =>
      Option.some.inj ((beq_iff_eq.1 hn).symm.trans hk)
    refine ⟨pv, nv, types, hpv, rfl, hnv, rfl, htypes, ?_⟩
    rcases List.mem_cons.1 hm with rfl | hm
    · cases hother hp
    · rcases List.mem_append.1 hm with hm | hm
      · rcases List.mem_append.1 hm with hm | hm
        · rcases List.mem_append.1 hm with hm | hm
          · cases hother (Node.isKind_of_members hpdas n hm)
          · cases hother (Node.isKind_of_members haccounts n hm)
        · exact hm
      · cases hother (Node.isKind_of_instructionsUpTo hinstructions n hm)
  · rintro ⟨pv', nv, types', hpv', rfl, hnv, rfl, htypes', hn⟩
    rw [hpv] at hpv'
    rw [htypes] at htypes'
    cases hpv'
    cases htypes'
    have hmem : n ∈ p :: (pdas ++ accounts ++ types ++ instructions) := by simp [hn]
    obtain ⟨e, he, hne⟩ := exists_of_forall₂ hes.flip hmem
    obtain ⟨k, v, hk, hv, rfl⟩ := entryOf_ok hne
    rw [beq_iff_eq.1 (Node.isKind_of_members htypes n hn)] at hk
    rw [hnv] at hv
    cases hk
    cases hv
    exact he

/-- what is found as a defined type after a recording is a defined type of the program it is looked up in -/
theorem type_of_get? {n : Node} {table : LinkTable} (h : (recordTree n).perform .empty = (.ok (), table))
    {ps : List Node} (hps : n.programs = .ok ps) {program name : NameKey} {found : Node}
    (hf : table.get? ⟨program, .definedType, name⟩ = some found) :
    ∃ p ∈ ps, ∃ pv nv types, p.get .name = .ok pv ∧ pv.nameKey = program ∧ found.get .name = .ok nv ∧
      nv.nameKey = name ∧ p.definedTypes = .ok types ∧ found ∈ types := by
  obtain ⟨ps', ess, hps', hess, rfl⟩ := recordTree_ok h
  rw [hps] at hps'
  cases hps'
  rw [get?_fileAll_empty] at hf
  obtain ⟨es, hes, hmem⟩ := List.mem_flatten.1 (OrderedMap.mem_of_lookupIn hf)
  obtain ⟨p, hp, he⟩ := exists_of_forall₂ hess hes
  exact ⟨p, hp, (mem_entriesOf (Node.isKind_of_programs hps p hp) he).1 hmem⟩

/-- under the names of a program and of a defined type of it a defined type is found after a recording -/
theorem get?_of_type {n : Node} {table : LinkTable} (h : (recordTree n).perform .empty = (.ok (), table))
    {ps : List Node} (hps : n.programs = .ok ps) {p m : Node} (hp : p ∈ ps) {pv nv : Value} (hpv : p.get .name = .ok pv)
    (hnv : m.get .name = .ok nv) {types : List Node} (htypes : p.definedTypes = .ok types) (hm : m ∈ types) :
    ∃ found, table.get? ⟨pv.nameKey, .definedType, nv.nameKey⟩ = some found := by
  obtain ⟨ps', ess, hps', hess, rfl⟩ := recordTree_ok h
  rw [hps] at hps'
  cases hps'
  obtain ⟨es, hes, he⟩ := exists_of_forall₂ hess.flip hp
  have hmem := (mem_entriesOf (Node.isKind_of_programs hps p hp) he).2
    ⟨pv, nv, types, hpv, rfl, hnv, rfl, htypes, hm⟩
  rw [get?_fileAll_empty]
  exact OrderedMap.exists_lookupIn (List.mem_flatten.2 ⟨es, hes, hmem⟩)

end LinkTable

end InterfacePages

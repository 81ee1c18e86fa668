/-
Trees with nodes of no modelled kind inserted.

`Interspersed` relates a collection to one with such nodes among its values, `Node.Spaced` a program or a root to one in
whose collections they have been inserted at any places. Listings take only nodes of a modelled kind, so they are the same
before and after (`members_eq`, `instructionsUpTo_eq`), and the programs of the one are those of the other, spaced. What
is recorded has the same keys and, apart from the programs themselves, the same nodes (`recorded_agree`), so links lead
to the same nodes (`resolve_agree`).
-/
import InterfacePages.Proofs.StatelessVisits

namespace InterfacePages

/-! ## Collections -/

/-- a collection and one with nodes of no modelled kind inserted among its values, which are related -/
inductive Interspersed (R : Value → Value → Prop) : List Value → List Value → Prop
  | nil : Interspersed R [] []
  | keep {v v' : Value} (hv : R v v') {vs vs' : List Value} (h : Interspersed R vs vs') :
      Interspersed R (v :: vs) (v' :: vs')
  | insert (kind : Json) (object : List (Text × Json)) {vs vs' : List Value} (h : Interspersed R vs vs') :
      Interspersed R vs (.node (.unknown kind object) :: vs')

namespace Interspersed

variable {R : Value → Value → Prop} {vs vs' : List Value}

theorem refl (hrefl : ∀ v, R v v) (vs : List Value) : Interspersed R vs vs := by
  induction vs with
  | nil => exact .nil
  | cons v rest ih => exact .keep (hrefl v) ih

/-- the nodes of one kind are related as the values are -/
theorem ofKind_agree {S : Node → Node → Prop} (hnode : ∀ v v', R v v' → Agree S v.asNode v'.asNode)
    (hkind : ∀ n n', S n n' → n.kind? = n'.kind?) (h : Interspersed R vs vs') (k : Kind) :
    Agree (List.Forall₂ S) (Node.ofKind k vs) (Node.ofKind k vs') := by
  induction h with
  | nil => exact .ok .nil
  | keep hv _ ih =>
    refine (hnode _ _ hv).bind fun n n' hn => ih.bind fun ns ns' hns => .ok ?_
    have hsame : n'.isKind k = n.isKind k := by
      unfold Node.isKind
      rw [hkind n n' hn]
    rw [hsame]
    split
    · exact .cons hn hns
    · exact hns
  | @insert kind object vs vs' _ ih =>
    have hbind : Agree (List.Forall₂ S) (Node.ofKind k vs >>= pure) (Node.ofKind k vs' >>= .ok) :=
      ih.bind fun ns ns' hns => .ok hns
    rwa [bind_pure] at hbind

theorem ofKind_eq (h : Interspersed Eq vs vs') (k : Kind) : Node.ofKind k vs = Node.ofKind k vs' := by
  have hnode : ∀ v v' : Value, v = v' → Agree Eq v.asNode v'.asNode := by
    rintro v _ rfl
    exact .refl (fun _ => rfl) _
  have hagree := h.ofKind_agree hnode (fun n n' hn => congrArg Node.kind? hn) k
  rw [List.forall₂_eq_eq_eq] at hagree
  exact hagree.eq

/-- a list of instructions is the same where the same is listed of every value and nothing of those inserted -/
theorem listAll_eq {list list' : Node → Except Fault (List Node)} (h : Interspersed Eq vs vs')
    (hsame : ∀ v ∈ vs, v ∈ vs' → ∀ m, v.asNode = .ok m → list m = list' m)
    (hnone : ∀ v ∈ vs', ∀ m, v.asNode = .ok m → m.kind? = none → list' m = .ok []) :
    Node.listAll list vs = Node.listAll list' vs' := by
  induction h with
  | nil => rfl
  | @keep v v' hv vs vs' _ ih =>
    subst hv
    have hrest := ih (fun w hw hw' => hsame w (List.mem_cons_of_mem _ hw) (List.mem_cons_of_mem _ hw'))
      fun w hw => hnone w (List.mem_cons_of_mem _ hw)
    unfold Node.listAll
    rw [hrest]
    refine bind_congr_ok fun m hm => ?_
    rw [hsame v List.mem_cons_self List.mem_cons_self m hm]
  | @insert kind object vs vs' _ ih =>
    have hrest := ih (fun w hw hw' => hsame w hw (List.mem_cons_of_mem _ hw'))
      fun w hw => hnone w (List.mem_cons_of_mem _ hw)
    rw [hrest, Node.listAll]
    change _ = (list' (.unknown kind object) >>= _)
    rw [hnone _ List.mem_cons_self _ rfl rfl]
    cases Node.listAll list' vs' <;> rfl

/-- the pages of the values are the same where those of every value are and those inserted have none -/
theorem eachNode_agree {f f' : Node → Except Fault PageMap} (h : Interspersed Eq vs vs')
    (hsame : ∀ v ∈ vs, v ∈ vs' → ∀ m, v.asNode = .ok m → f m = f' m)
    (hnone : ∀ v ∈ vs', ∀ m, v.asNode = .ok m → m.kind? = none → f' m = .ok .empty) :
    Agree PageMap.SamePages (eachNode f vs) (eachNode f' vs') := by
  unfold eachNode
  induction h with
  | nil => exact .ok rfl
  | @keep v v' hv vs vs' _ ih =>
    subst hv
    have hrest := ih (fun w hw hw' => hsame w (List.mem_cons_of_mem _ hw) (List.mem_cons_of_mem _ hw'))
      fun w hw => hnone w (List.mem_cons_of_mem _ hw)
    have hv : (v.asNode >>= fun m => f m) = v.asNode >>= fun m => f' m :=
      bind_congr_ok fun m hm => hsame v List.mem_cons_self List.mem_cons_self m hm
    rw [List.mapM_cons, List.mapM_cons, hv]
    exact .after _ fun page => hrest.bind fun pages pages' hp => .ok (congrArg (page.entries ++ ·) hp)
  | @insert kind object vs vs' _ ih =>
    have hrest := ih (fun w hw hw' => hsame w hw (List.mem_cons_of_mem _ hw'))
      fun w hw => hnone w (List.mem_cons_of_mem _ hw)
    have hv : (Value.asNode (.node (.unknown kind object)) >>= fun m => f' m) = .ok .empty :=
      hnone _ List.mem_cons_self _ rfl rfl
    rw [List.mapM_cons, hv]
    have hbind : Agree PageMap.SamePages (vs.mapM (fun v => v.asNode >>= fun m => f m) >>= pure)
        (vs'.mapM (fun v => v.asNode >>= fun m => f' m) >>= fun pages => .ok (.empty :: pages)) :=
      hrest.bind fun pages pages' hp => .ok hp
    rwa [bind_pure] at hbind

end Interspersed

/-! ## Nodes -/

namespace Value

/-- a value and the same one, or a collection and one with nodes inserted -/
inductive Spaced (R : Value → Value → Prop) : Value → Value → Prop
  | same (v : Value) : Spaced R v v
  | tuple {vs vs' : List Value} (h : Interspersed R vs vs') : Spaced R (.tuple vs) (.tuple vs')

/-- a value and the same one, or a node and a related one -/
inductive Changed (R : Node → Node → Prop) : Value → Value → Prop
  | same (v : Value) : Changed R v v
  | node {n n' : Node} (h : R n n') : Changed R (.node n) (.node n')

theorem Changed.asNode {R : Node → Node → Prop} (hrefl : ∀ n, R n n) {v v' : Value} (h : v.Changed R v') :
    Agree R v.asNode v'.asNode := by
  cases h with
  | same v => exact .refl hrefl _
  | node h => exact .ok h

theorem Spaced.items {R : Value → Value → Prop} (hrefl : ∀ v, R v v) {v v' : Value} (h : v.Spaced R v') :
    Agree (Interspersed R) v.items v'.items := by
  cases h with
  | same v => exact .refl (Interspersed.refl hrefl) _
  | tuple h => exact .ok h

end Value

namespace Node

/-- two lists of attributes with the same names, and with values that are related as their names say -/
def Alike (rel : Attr → Value → Value → Prop) (attributes attributes' : List (Attr × Value)) : Prop :=
  List.Forall₂ (fun e e' => e.1 = e'.1 ∧ rel e.1 e.2 e'.2) attributes attributes'

theorem Alike.get {rel : Attr → Value → Value → Prop} {k : Kind} {attributes attributes' : List (Attr × Value)}
    (h : Alike rel attributes attributes') (a : Attr) :
    Agree (rel a) ((known k attributes).get a) ((known k attributes').get a) := by
  unfold Node.get attr? Node.attributes
  induction h with
  | nil => exact .error _
  | @cons e e' rest rest' he _ ih =>
    obtain ⟨b, v⟩ := e
    obtain ⟨b', v'⟩ := e'
    obtain ⟨rfl, hv⟩ := he
    by_cases hb : b = a
    · subst hb
      simpa using Agree.ok hv
    · simpa [hb] using ih

/-- the collections of a program in which nodes are inserted -/
def programCollections : List Attr := [.accounts, .instructions, .definedTypes, .pdas, .errors]

def programField (a : Attr) : Value → Value → Prop := if a ∈ programCollections then Value.Spaced Eq else Eq

theorem programField_same (a : Attr) (v : Value) : programField a v v := by
  unfold programField
  split
  · exact .same v
  · rfl

theorem programField_collection {a : Attr} (ha : a ∈ programCollections) {vs vs' : List Value}
    (h : Interspersed Eq vs vs') : programField a (.tuple vs) (.tuple vs') := by
  rw [programField, if_pos ha]
  exact .tuple h

/-- a node and the same one, or a program and one with nodes inserted in its collections -/
inductive ProgramSpaced : Node → Node → Prop
  | same (n : Node) : ProgramSpaced n n
  | program {attributes attributes' : List (Attr × Value)} (h : Alike programField attributes attributes') :
      ProgramSpaced (.known .program attributes) (.known .program attributes')

def rootField : Attr → Value → Value → Prop
  | .program => Value.Changed ProgramSpaced
  | .additionalPrograms => Value.Spaced (Value.Changed ProgramSpaced)
  | _ => Eq

/-- a node and the same one, or a root or program with nodes inserted in its collections and in those of its programs -/
inductive Spaced : Node → Node → Prop
  | inside {n n' : Node} (h : ProgramSpaced n n') : Spaced n n'
  | root {attributes attributes' : List (Attr × Value)} (h : Alike rootField attributes attributes') :
      Spaced (.known .root attributes) (.known .root attributes')

theorem Spaced.refl (n : Node) : Spaced n n := .inside (.same n)

theorem instructionsUpTo_unknown {leavesOnly : Bool} {fuel : Nat} {n : Node} (hn : n.kind? = none) :
    instructionsUpTo leavesOnly (fuel + 1) n = .ok [] := by
  have hkind : n.isKind .instruction = false := by
    rw [isKind, hn]
    rfl
  have hprograms : n.programs = .ok [] := by
    unfold programs
    rw [hn]
  rw [instructionsUpTo, hkind, hprograms]
  rfl

namespace ProgramSpaced

variable {n n' p p' : Node}

theorem kind_eq (h : ProgramSpaced n n') : n.kind? = n'.kind? := by
  cases h with
  | same => rfl
  | program h => rfl

theorem get_eq (h : ProgramSpaced n n') {a : Attr} (ha : a ∉ programCollections) : n.get a = n'.get a := by
  cases h with
  | same => rfl
  | program h =>
    have hget := h.get (k := .program) a
    rw [programField, if_neg ha] at hget
    exact hget.eq

theorem items_agree (h : ProgramSpaced n n') (a : Attr) : Agree (Interspersed Eq) (n.items a) (n'.items a) := by
  have hrefl : ∀ v : Value, v = v := fun _ => rfl
  cases h with
  | same => exact .refl (Interspersed.refl hrefl) _
  | program h =>
    refine (h.get (k := .program) a).bind fun v v' hv => ?_
    unfold programField at hv
    split at hv
    · exact hv.items hrefl
    · exact hv ▸ .refl (Interspersed.refl hrefl) _

theorem ownMembers_eq (h : ProgramSpaced p p') (a : Attr) (k : Kind) : p.ownMembers a k = p'.ownMembers a k :=
  (h.items_agree a).bind_eq fun _ _ _ _ hvs => hvs.ofKind_eq k

theorem ownInstructionsUpTo_eq (h : ProgramSpaced p p') {leavesOnly : Bool} {fuel fuel' : Nat}
    (hf : p.height ≤ fuel + 1) (hf' : p'.height ≤ fuel' + 1) :
    p.ownInstructionsUpTo leavesOnly fuel = p'.ownInstructionsUpTo leavesOnly fuel' := by
  refine (h.items_agree .instructions).bind_eq fun vs vs' hvs hvs' hspaced => ?_
  refine hspaced.listAll_eq (fun v hv hv' m hm => ?_) fun v hv' m hm hnone => ?_
  · have hlow := height_of_item hvs hv hm
    have hlow' := height_of_item hvs' hv' hm
    exact instructionsUpTo_eq (by omega) (by omega)
  · have hlow' := height_of_item hvs' hv' hm
    have hpos := m.height_pos
    obtain ⟨f, rfl⟩ : ∃ f, fuel' = f + 1 := ⟨fuel' - 1, by omega⟩
    exact instructionsUpTo_unknown hnone

theorem eq_of_kind (h : ProgramSpaced n n') (hp : n.kind? ≠ some .program) : n = n' := by
  cases h with
  | same => rfl
  | program h => exact absurd rfl hp

end ProgramSpaced

namespace Spaced

variable {n n' : Node}

theorem kind_eq (h : Spaced n n') : n.kind? = n'.kind? := by
  cases h with
  | inside h => exact h.kind_eq
  | root h => rfl

theorem inside_of_kind (h : Spaced n n') (hr : n.kind? ≠ some .root) : ProgramSpaced n n' := by
  cases h with
  | inside h => exact h
  | root h => exact absurd rfl hr

/-- the programs of a spaced node are those of the node, spaced -/
theorem programs_agree (h : Spaced n n') : Agree (List.Forall₂ ProgramSpaced) n.programs n'.programs := by
  cases h with
  | inside h =>
    cases h with
    | same => exact .refl (fun ps => List.forall₂_same.2 fun p _ => .same p) _
    | program h => exact .ok (.cons (.program h) .nil)
  | root h =>
    refine (h.get (k := .root) .program).bind fun main main' hmain => ?_
    refine Agree.bind (R := Interspersed (Value.Changed ProgramSpaced)) ?_ fun others others' hothers => ?_
    · exact (h.get (k := .root) .additionalPrograms).bind fun v v' hv => hv.items .same
    · exact (Interspersed.keep hmain hothers).ofKind_agree (fun v v' hv => hv.asNode .same)
        (fun n n' hn => hn.kind_eq) .program

theorem members_eq (h : Spaced n n') (a : Attr) (k : Kind) : n.members a k = n'.members a k := by
  refine h.programs_agree.bind_eq fun ps ps' _ _ hps => congrArg (· >>= _) ?_
  exact mapM_eq_of_forall₂ hps fun p _ p' _ hp => hp.ownMembers_eq a k

theorem instructionsUpTo_eq (h : Spaced n n') (leavesOnly : Bool) :
    instructionsUpTo leavesOnly n.height n = instructionsUpTo leavesOnly n'.height n' := by
  by_cases hk : n.kind? = some .instruction
  · have hsame := (h.inside_of_kind (by simp [hk])).eq_of_kind (by simp [hk])
    rw [hsame]
  · have hn : n.isKind .instruction = false := beq_eq_false_iff_ne.2 hk
    have hn' : n'.isKind .instruction = false := beq_eq_false_iff_ne.2 (h.kind_eq ▸ hk)
    obtain ⟨fuel, hf⟩ := Nat.exists_eq_add_one.2 n.height_pos
    obtain ⟨fuel', hf'⟩ := Nat.exists_eq_add_one.2 n'.height_pos
    rw [hf, hf', instructionsUpTo, instructionsUpTo, hn, hn']
    refine h.programs_agree.bind_eq fun ps ps' hn hn' hps => congrArg (· >>= _) ?_
    refine mapM_eq_of_forall₂ hps fun p hp p' hp' hpp => ?_
    exact hpp.ownInstructionsUpTo_eq (hf ▸ height_of_programs hn p hp) (hf' ▸ height_of_programs hn' p' hp')

/-- a spaced tree is as large as the tree -/
theorem counts_eq (h : Spaced n n') : n.counts = n'.counts := by
  have hleaves : n.leafInstructions = n'.leafInstructions := h.instructionsUpTo_eq true
  unfold counts accounts pdas definedTypes errors
  rw [hleaves, h.members_eq, h.members_eq, h.members_eq, h.members_eq]
  refine h.programs_agree.bind_eq fun ps ps' _ _ hps => ?_
  rw [hps.length_eq]

end Spaced

end Node

/-! ## Links -/

namespace LinkTable

/-- what two tables hold under keys of one kind: the same node of the kind, or a program and a spaced one -/
def Filed (k : Kind) (n n' : Node) : Prop := n.ProgramSpaced n' ∧ n.kind? = some k

/-- two tables with the same keys, under which related nodes are filed -/
def Spaced (links links' : LinkTable) : Prop :=
  ∀ key, Option.Rel (Filed key.kind) (links.get? key) (links'.get? key)

/-- two entries under one key -/
def EntrySpaced (e e' : LinkKey × Node) : Prop := e.1 = e'.1 ∧ Filed e.1.kind e.2 e'.2

theorem entryOf_agree {n n' : Node} (h : n.ProgramSpaced n') (name : Value) :
    Agree EntrySpaced (entryOf name n) (entryOf name n') := by
  have hname : n.get .name = n'.get .name := h.get_eq (by decide)
  cases h with
  | same =>
    cases n with
    | unknown kind object => exact .error _
    | known k attributes => exact .after _ fun v => .ok ⟨rfl, .same _, rfl⟩
  | program h =>
    unfold entryOf
    dsimp only
    rw [hname]
    exact .after _ fun v => .ok ⟨rfl, .program h, rfl⟩

theorem entriesOf_agree {p p' : Node} (h : p.ProgramSpaced p') :
    Agree (List.Forall₂ EntrySpaced) (entriesOf p) (entriesOf p') := by
  have hp : p.Spaced p' := .inside h
  have hinstructions : p.instructions = p'.instructions := hp.instructionsUpTo_eq false
  unfold entriesOf Node.pdas Node.accounts Node.definedTypes
  rw [h.get_eq (a := .name) (by decide), hp.members_eq, hp.members_eq, hp.members_eq, hinstructions]
  refine .after _ fun name => .after _ fun pdas => .after _ fun accounts => .after _ fun types => ?_
  refine .after _ fun instructions => .mapM (.cons h (List.forall₂_same.2 fun m _ => .same m)) ?_
  exact fun m _ m' _ hm => entryOf_agree hm name

theorem treeEntries_agree {n n' : Node} (h : n.Spaced n') :
    Agree (List.Forall₂ EntrySpaced) (treeEntries n) (treeEntries n') := by
  refine h.programs_agree.bind fun ps ps' hps => ?_
  refine (Agree.mapM hps fun p _ p' _ hp => entriesOf_agree hp).bind fun ess ess' hess => .ok ?_
  induction hess with
  | nil => exact .nil
  | cons hes _ ih => exact List.rel_append hes ih

theorem spaced_fileAll {es es' : List (LinkKey × Node)} (h : List.Forall₂ EntrySpaced es es') :
    Spaced (fileAll es .empty) (fileAll es' .empty) := by
  intro key
  rw [get?_fileAll_empty, get?_fileAll_empty]
  induction h with
  | nil => exact .none
  | @cons e e' es es' he _ ih =>
    rw [OrderedMap.lookupIn, OrderedMap.lookupIn, ← he.1]
    split
    · next hkey => exact .some (hkey ▸ he.2)
    · exact ih

/-- what is recorded of a spaced tree is filed under the same keys -/
theorem recorded_agree {n n' : Node} (h : n.Spaced n') : Agree Spaced (recorded n) (recorded n') :=
  (treeEntries_agree h).bind fun _ _ hes => .ok (spaced_fileAll hes)

/-! ## Paths -/

section

variable {links links' : LinkTable} {path path' : List Node}

theorem mem_of_target {link : Node} {k : Kind} (h : link.kind?.bind target? = some k) (hk : k ≠ .program) :
    k ∈ [Kind.pda, .definedType] := by
  obtain ⟨kind, -, h⟩ := Option.bind_eq_some_iff.1 h
  unfold target? at h
  split at h
  · exact Option.some.inj h ▸ by decide
  · exact Option.some.inj h ▸ by decide
  · exact absurd (Option.some.inj h).symm hk
  · cases h

/-- a link leads to related nodes in tables that hold related nodes for it -/
theorem resolve_congr {S : Node → Node → Prop} {link : Node}
    (hprogram : ∀ name, Option.Rel S (links.get? ⟨name, .program, name⟩) (links'.get? ⟨name, .program, name⟩))
    (hmember : ∀ k ∈ [Kind.pda, .definedType], ∀ program name,
      Option.Rel S (links.get? ⟨program, k, name⟩) (links'.get? ⟨program, k, name⟩))
    (hname : programName path link = programName path' link) :
    Agree (Option.Rel S) (links.resolve path link) (links'.resolve path' link) := by
  cases hk : link.kind?.bind target? with
  | none =>
    unfold resolve
    rw [hk]
    exact .ok .none
  | some k =>
    by_cases hp : k = .program
    · subst hp
      unfold resolve
      rw [hk]
      exact .after _ fun name => .ok (hprogram _)
    · rw [resolve_member hk hp, resolve_member hk hp, hname]
      refine .after _ fun program => ?_
      cases program with
      | none => exact .ok .none
      | some program => exact .after _ fun name => .ok (hmember k (mem_of_target hk hp) _ _)

theorem programName_eq (h : List.Forall₂ Node.Spaced path path') (link : Node) :
    programName path link = programName path' link := by
  refine programName_congr (fun _ _ hn => hn.kind_eq) (fun p p' hp hk => ?_) h link
  exact (hp.inside_of_kind (by simp [beq_iff_eq.1 hk])).get_eq (by decide)

namespace Spaced

theorem get?_eq (h : links.Spaced links') {key : LinkKey} (hk : key.kind ≠ .program) :
    links.get? key = links'.get? key := by
  have hkey := h key
  generalize links.get? key = found at hkey ⊢
  generalize links'.get? key = found' at hkey ⊢
  cases hkey with
  | none => rfl
  | some hn => rw [hn.1.eq_of_kind (by simpa [hn.2] using hk)]

/-- links to what programs declare lead to the same nodes -/
theorem resolve_eq (h : links.Spaced links') (hpath : List.Forall₂ Node.Spaced path path') {link : Node}
    (hl : link.kind?.bind target? ≠ some .program) : links.resolve path link = links'.resolve path' link := by
  cases hk : link.kind?.bind target? with
  | none =>
    unfold resolve
    rw [hk]
  | some k =>
    have hne : k ≠ .program := fun hk' => hl (hk' ▸ hk)
    rw [resolve_member hk hne, resolve_member hk hne, programName_eq hpath]
    refine bind_congr_ok fun program _ => ?_
    cases program with
    | none => rfl
    | some program => exact bind_congr_ok fun name _ => congrArg Except.ok (h.get?_eq hne)

theorem resolve_agree (h : links.Spaced links') (hpath : List.Forall₂ Node.Spaced path path') (link : Node) :
    Agree (Option.Rel Node.ProgramSpaced) (links.resolve path link) (links'.resolve path' link) := by
  have hget : ∀ key, Option.Rel Node.ProgramSpaced (links.get? key) (links'.get? key) := fun key => by
    have hkey := h key
    generalize links.get? key = found at hkey ⊢
    generalize links'.get? key = found' at hkey ⊢
    cases hkey with
    | none => exact .none
    | some hn => exact .some hn.1
  exact resolve_congr (fun _ => hget _) (fun _ _ _ _ => hget _) (programName_eq hpath link)

end Spaced

end

end LinkTable

end InterfacePages

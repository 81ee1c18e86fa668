/-
The visits that a visit for a size makes.

`Calls` says which they are: those of the nodes that the plan of a node comes to ask for, or that of the type behind a
link, whose name is being resolved then. A visit is what its handler makes of their answers (`perform_handler`). Each of
them is of a lower node or has fewer names left to resolve, so no chain of visits is endless (`calls_wellFounded`), and
a visit that may go deep enough never asks what there is at the greatest depth (`perform_visit_any`).

What names being resolved do to a size is said by induction on the visits: a name makes no difference to a size where
the visits come to no link of that name but those that vary (`size_unaffected`), and where a size is fixed they come to no
link whose name is being resolved (`varies_of_comes`). So a link has the size of its type where the links of its name lead
nowhere else (`LeadAlike.size_of_type`).
-/
import Mathlib.Logic.Relation
import InterfacePages.Proofs.SizeEvaluation

namespace InterfacePages

namespace ByteSize

variable {links : LinkTable} {path : List Node} {resolving more : Resolving} {n : Node}

/-- the size of a node that is no link is what its plan comes to with the sizes of nodes -/
theorem sizeWithin_plan (hl : n.isKind .definedTypeLink = false) :
    sizeWithin links path resolving n = (Plan.forNode n).eval (sizeWithin links path resolving) := by
  obtain ⟨height, hh, _⟩ := deepest_le_depthFor links n
  rw [sizeWithin_eq_measure hh (Nat.le_refl (deepest links height resolving n)), deepest, measure_plan hl]
  refine (Plan.sound_forNode n).eval_congr fun m hm => ?_
  have hlow := hm.height_lt
  exact (sizeWithin_eq_measure hh (by unfold deepest; omega)).symm

/-- the size of a link is that of what lies behind it -/
theorem sizeWithin_link (hl : n.isKind .definedTypeLink = true) :
    sizeWithin links path resolving n =
      onward links path resolving n >>= behind (sizeWithin links path) resolving := by
  obtain ⟨height, hh, _⟩ := deepest_le_depthFor links n
  rw [sizeWithin_eq_measure hh (Nat.le_refl (deepest links height resolving n)), deepest, measure_link hl]
  cases honward : onward links path resolving n with
  | error e => rfl
  | ok next =>
    cases onward_ok.1 honward with
    | again hn hr => rfl
    | nowhere hn hr hf => rfl
    | follow hn hr hf ht =>
      have hdeep := deepest_target hh hl hn hr hf ht
      exact (sizeWithin_eq_measure hh (Nat.le_of_lt_succ hdeep)).symm

theorem sizeWithin_onward (hl : n.isKind .definedTypeLink = true) {next : Option (NameKey × Node)}
    (h : Onward links path resolving n next) :
    sizeWithin links path resolving n = behind (sizeWithin links path) resolving next := by
  rw [sizeWithin_link hl, onward_ok.2 h]
  rfl

/-- while more names are being resolved, a type has the size it had or one that varies -/
theorem sizeWithin_dims (h : resolving ⊆ more) :
    Plan.Dims (sizeWithin links path resolving) (sizeWithin links path more) := by
  intro n v hv
  obtain ⟨fuel, hv⟩ := sizeWithin_ok.1 hv
  exact (measure_dims h n v hv).imp (fun hv => sizeWithin_ok.2 ⟨fuel, hv⟩) fun hv => sizeWithin_ok.2 ⟨fuel, hv⟩

/-- a size that varies goes on to vary while more names are being resolved -/
theorem sizeWithin_absent (h : resolving ⊆ more) (hv : sizeWithin links path resolving n = .ok .absent) :
    sizeWithin links path more n = .ok .absent := (sizeWithin_dims h n _ hv).elim id id

/-- a fixed size that is found while more names are being resolved is found anyway -/
theorem sizeWithin_fixed (h : resolving ⊆ more) {v : Value} (hv : sizeWithin links path more n = .ok v)
    (hne : v ≠ .absent) : sizeWithin links path resolving n = .ok v := by
  obtain ⟨fuel, hv⟩ := sizeWithin_ok.1 hv
  exact sizeWithin_ok.2 ⟨fuel, measure_fixed h hv hne⟩

/-! ## Visits made by a visit -/

/-- a visit of a node while some names are being resolved -/
structure Visit where
  resolving : Resolving
  node : Node

/-- a visit makes another one -/
inductive Calls (links : LinkTable) (path : List Node) : Visit → Visit → Prop
  | part {resolving : Resolving} {n m : Node} (hl : n.isKind .definedTypeLink = false)
      (hm : (Plan.forNode n).Asks (sizeWithin links path resolving) m) : Calls links path ⟨resolving, n⟩ ⟨resolving, m⟩
  | follow {resolving : Resolving} {n type : Node} {name : NameKey} (hl : n.isKind .definedTypeLink = true)
      (h : Onward links path resolving n (some (name, type))) :
      Calls links path ⟨resolving, n⟩ ⟨name :: resolving, type⟩

/-- a visit comes to another one: it is that one, or it makes a visit that comes to it -/
def Comes (links : LinkTable) (path : List Node) : Visit → Visit → Prop := Relation.ReflTransGen (Calls links path)

variable {a b c : Visit}

theorem Comes.refl (a : Visit) : Comes links path a a := Relation.ReflTransGen.refl

theorem Comes.head (h : Calls links path a b) (hc : Comes links path b c) : Comes links path a c :=
  Relation.ReflTransGen.head h hc

theorem Calls.deepest_lt {height : Nat} (hh : ∀ e ∈ links.entries, e.2.height ≤ height) (h : Calls links path a b) :
    deepest links height b.resolving b.node < deepest links height a.resolving a.node := by
  cases h with
  | part hl hm =>
    have hlow := ((Plan.sound_forNode _).of_asks hm).height_lt
    unfold deepest
    dsimp only
    omega
  | follow hl h =>
    cases h with
    | follow hn hr hf ht => exact deepest_target hh hl hn hr hf ht

/-- **No chain of visits is endless**, whatever the links of a table lead to. -/
theorem calls_wellFounded (links : LinkTable) (path : List Node) :
    WellFounded fun b a : Visit => Calls links path a b := by
  obtain ⟨height, hh⟩ : ∃ height, ∀ e ∈ links.entries, e.2.height ≤ height := ⟨_, (height_le_foldl links.entries 0).2⟩
  exact Subrelation.wf (fun h => h.deepest_lt hh)
    (InvImage.wf (fun a : Visit => deepest links height a.resolving a.node) Nat.lt_wfRel.wf)

/-- a handler makes of the answers of the visits it makes what the visit of its node finds -/
theorem perform_handler {visit : Node → Sizing}
    (h : ∀ b, Calls links path ⟨resolving, n⟩ b →
      (visit b.node).perform b.resolving = (sizeWithin links path b.resolving b.node, b.resolving)) :
    ((visitor links path).handlerFor n n visit).perform resolving = (sizeWithin links path resolving n, resolving) := by
  cases hl : n.isKind .definedTypeLink
  · rw [handlerFor_eq_plan links path hl, sizeWithin_plan hl]
    exact Plan.perform_run fun m hm => h ⟨resolving, m⟩ (.part hl hm)
  · rw [handlerFor_link links path hl, sizeWithin_link hl]
    exact perform_link fun name type honward => h ⟨name :: resolving, type⟩ (.follow hl (onward_ok.1 honward))

/-- a visit that may go deep enough does not depend on how deep it may go, nor on what there is at the greatest depth -/
theorem perform_visit_any {height fuel : Nat} (hh : ∀ e ∈ links.entries, e.2.height ≤ height)
    (h : deepest links height resolving n ≤ fuel) (limit : Sizing) :
    ((visitor links path).visit limit fuel n).perform resolving = (sizeWithin links path resolving n, resolving) := by
  induction fuel generalizing resolving n with
  | zero => exact absurd h (Nat.not_succ_le_zero _)
  | succ fuel ih =>
    rw [Visitor.visit]
    refine perform_handler fun b hb => ih ?_
    have hlow := hb.deepest_lt hh
    dsimp only at hlow
    omega

theorem Calls.ok (h : Calls links path a b) {v : Value} (hv : sizeWithin links path a.resolving a.node = .ok v) :
    ∃ w, sizeWithin links path b.resolving b.node = .ok w := by
  cases h with
  | part hl hm =>
    dsimp only at hv
    rw [sizeWithin_plan hl] at hv
    exact hm.ok hv
  | follow hl h =>
    dsimp only at hv
    rw [sizeWithin_onward hl h] at hv
    exact ⟨v, hv⟩

/-- where a visit finds a size, so do all that it comes to -/
theorem Comes.ok (h : Comes links path a b) {v : Value} (hv : sizeWithin links path a.resolving a.node = .ok v) :
    ∃ w, sizeWithin links path b.resolving b.node = .ok w := by
  induction h with
  | refl => exact ⟨v, hv⟩
  | tail _ hstep ih =>
    obtain ⟨w, hw⟩ := ih
    exact hstep.ok hw

/-! ## More names being resolved -/

/-- what is visited is visited as well while more names are being resolved, where that finds a fixed size; and it is
found to have a fixed size -/
theorem Calls.fixed (h : Calls links path a b) (hmore : a.resolving ⊆ more) {v : Value}
    (hv : sizeWithin links path more a.node = .ok v) (hne : v ≠ .absent) :
    ∃ more' w, Calls links path ⟨more, a.node⟩ ⟨more', b.node⟩ ∧ b.resolving ⊆ more' ∧ more ⊆ more' ∧
      sizeWithin links path more' b.node = .ok w ∧ w ≠ .absent := by
  cases h with
  | part hl hm =>
    dsimp only at hv hmore
    rw [sizeWithin_plan hl] at hv
    obtain ⟨hasks, w, hw, hfixed⟩ := (Plan.sound_forNode _).asks_fixed hm
      (fun _ _ hv hne => sizeWithin_fixed hmore hv hne) hv hne
    exact ⟨more, w, .part hl hasks, hmore, List.Subset.refl _, hw, hfixed⟩
  | follow hl h =>
    dsimp only at hv hmore
    cases h with
    | @follow name target type hn hr hf ht =>
      have hopen : name.nameKey ∉ more := by
        intro hm
        rw [sizeWithin_onward hl (.again hn hm)] at hv
        exact hne (Except.ok.inj hv).symm
      have hnext := Onward.follow hn hopen hf ht
      rw [sizeWithin_onward hl hnext] at hv
      exact ⟨_, v, .follow hl hnext, List.cons_subset_cons _ hmore, List.subset_cons_self _ _, hv, hne⟩

theorem Comes.fixed (h : Comes links path a b) (hmore : a.resolving ⊆ more) {v : Value}
    (hv : sizeWithin links path more a.node = .ok v) (hne : v ≠ .absent) :
    ∃ more' w, more ⊆ more' ∧ b.resolving ⊆ more' ∧ sizeWithin links path more' b.node = .ok w ∧ w ≠ .absent := by
  induction h with
  | refl => exact ⟨more, v, List.Subset.refl _, hmore, hv, hne⟩
  | tail _ hstep ih =>
    obtain ⟨more', w, hsub, hmore', hw, hwne⟩ := ih
    obtain ⟨more'', u, _, hsub', hmore'', hu, hune⟩ := hstep.fixed hmore' hw hwne
    exact ⟨more'', u, List.Subset.trans hsub hmore'', hsub', hu, hune⟩

/-- a link whose name is being resolved varies -/
theorem sizeWithin_again (hl : n.isKind .definedTypeLink = true) {name : Value} (hn : n.get .name = .ok name)
    (hr : name.nameKey ∈ resolving) : sizeWithin links path resolving n = .ok .absent :=
  sizeWithin_onward hl (.again hn hr)

/-- a visit that comes to a link finds nothing fixed while the name of the link is being resolved -/
theorem varies_of_comes (h : Comes links path a b) (hmore : a.resolving ⊆ more) {v : Value}
    (hv : sizeWithin links path more a.node = .ok v) (hl : b.node.isKind .definedTypeLink = true) {name : Value}
    (hn : b.node.get .name = .ok name) (hr : name.nameKey ∈ more) : v = .absent := by
  by_contra hne
  obtain ⟨more', w, hsub, _, hw, hwne⟩ := h.fixed hmore hv hne
  rw [sizeWithin_again hl hn (hsub hr)] at hw
  exact hwne (Except.ok.inj hw).symm

/-- one more name being resolved makes no difference where all links of that name that a visit comes to vary anyway -/
theorem size_unaffected {t : NameKey} (hmore : a.resolving ⊆ more) (hless : more ⊆ t :: a.resolving)
    (hvary : ∀ b, Comes links path a b → b.node.isKind .definedTypeLink = true →
      ∀ name, b.node.get .name = .ok name → name.nameKey = t →
        sizeWithin links path b.resolving b.node = .ok .absent) :
    sizeWithin links path more a.node = sizeWithin links path a.resolving a.node := by
  induction a using (calls_wellFounded links path).induction generalizing more with
  | _ a ih =>
    obtain ⟨resolving, n⟩ := a
    dsimp only at hmore hless ih ⊢
    cases hl : n.isKind .definedTypeLink
    · rw [sizeWithin_plan hl, sizeWithin_plan hl]
      refine (Plan.eval_congr_asked fun m hm => ?_).symm
      have hcall : Calls links path ⟨resolving, n⟩ ⟨resolving, m⟩ := .part hl hm
      exact (ih _ hcall hmore hless fun b hb => hvary b (hb.head hcall)).symm
    · cases hn : n.get .name with
      | error e =>
        rw [sizeWithin_link hl, sizeWithin_link hl]
        unfold onward
        rw [hn]
        rfl
      | ok name =>
        by_cases hname : name.nameKey = t
        · have habsent := hvary ⟨resolving, n⟩ (.refl _) hl name hn hname
          rw [habsent]
          exact sizeWithin_absent hmore habsent
        · -- the link goes on from here as before
          have hsame : name.nameKey ∈ more ↔ name.nameKey ∈ resolving :=
            ⟨fun hm => (List.mem_cons.1 (hless hm)).resolve_left hname, fun hm => hmore hm⟩
          have honward : onward links path more n = onward links path resolving n := by
            rw [onward_eq hn, onward_eq hn]
            simp only [hsame]
          rw [sizeWithin_link hl, sizeWithin_link hl, honward]
          cases hnext : onward links path resolving n with
          | error e => rfl
          | ok next =>
            cases next with
            | none => rfl
            | some behind =>
              obtain ⟨found, type⟩ := behind
              have hcall : Calls links path ⟨resolving, n⟩ ⟨found :: resolving, type⟩ := .follow hl (onward_ok.1 hnext)
              have hwithin : found :: more ⊆ t :: found :: resolving :=
                List.cons_subset.2 ⟨by simp, fun x hx => by
                  rcases List.mem_cons.1 (hless hx) with rfl | hx <;> simp [*]⟩
              exact ih _ hcall (List.cons_subset_cons found hmore) hwithin fun b hb => hvary b (hb.head hcall)

/-! ## Following a link -/

section Following

variable {l t type : Node}

/-- a link has the size that its type has while its name is being resolved -/
theorem byteSize_target (hl : l.isKind .definedTypeLink = true) (hf : links.resolve path l = .ok (some t))
    (htype : t.child .type = .ok type) :
    ∃ name, l.get .name = .ok name ∧ l.byteSize links path = sizeWithin links path [name.nameKey] type := by
  obtain ⟨_, name, -, hn, -⟩ := (LinkTable.resolve_some hl).1 hf
  exact ⟨name, hn, sizeWithin_onward hl (.follow hn List.not_mem_nil hf htype)⟩

/-- links that have the name of a link lead to one node or nowhere -/
def LeadAlike (links : LinkTable) (path : List Node) (l t : Node) : Prop :=
  ∀ m u, m.isKind .definedTypeLink = true → m.SameName l → links.resolve path m = .ok (some u) → u = t

/-- where a type varies while its name is being resolved, the links of that name vary everywhere -/
theorem LeadAlike.varies (halike : LeadAlike links path l t) (htype : t.child .type = .ok type) {name : Value}
    (hname : l.get .name = .ok name) (habsent : sizeWithin links path [name.nameKey] type = .ok .absent)
    (hl : n.isKind .definedTypeLink = true) (hs : n.SameName l) {next : Option (NameKey × Node)}
    (h : Onward links path resolving n next) : sizeWithin links path resolving n = .ok .absent := by
  rw [sizeWithin_onward hl h]
  cases h with
  | again hn hr => rfl
  | nowhere hn hr hf => rfl
  | follow hn hr hf ht =>
    obtain rfl := halike n _ hl hs hf
    rw [htype] at ht
    cases ht
    refine sizeWithin_absent ?_ habsent
    rw [hs.nameKey_eq hn hname]
    exact List.cons_subset_cons _ (List.nil_subset _)

/-- a type that varies while its name is being resolved varies anyway, if the links of the name lead on -/
theorem LeadAlike.within (halike : LeadAlike links path l t) (htype : t.child .type = .ok type) {name : Value}
    (hname : l.get .name = .ok name) (habsent : sizeWithin links path [name.nameKey] type = .ok .absent)
    (honward : ∀ b, Comes links path ⟨[], type⟩ b → b.node.isKind .definedTypeLink = true → b.node.SameName l →
      ∃ next, Onward links path b.resolving b.node next) :
    type.byteSize links path = .ok .absent := by
  refine (size_unaffected (a := ⟨[], type⟩) (List.nil_subset _) (List.Subset.refl _)
    fun b hb hlb bv hbv hsame => ?_).symm.trans habsent
  have hs : b.node.SameName l := .of_get hbv hsame hname rfl
  obtain ⟨next, hnext⟩ := honward b hb hlb hs
  exact halike.varies htype hname habsent hlb hs hnext

/-- a link has the size of its type where the links of its name lead nowhere else -/
theorem LeadAlike.size_of_type (halike : LeadAlike links path l t) (hl : l.isKind .definedTypeLink = true)
    (hf : links.resolve path l = .ok (some t)) (htype : t.child .type = .ok type) {v : Value}
    (hv : type.byteSize links path = .ok v) : l.byteSize links path = .ok v := by
  obtain ⟨name, hname, hsize⟩ := byteSize_target hl hf htype
  rw [hsize]
  rcases sizeWithin_dims (List.nil_subset [name.nameKey]) type v hv with hv' | habsent
  · exact hv'
  · rw [habsent, ← hv]
    refine (halike.within htype hname habsent fun b hb hlb _ => ?_).symm
    -- a visit that finds a size has found where the links it comes to lead
    obtain ⟨w, hw⟩ := hb.ok hv
    rw [sizeWithin_link hlb] at hw
    obtain ⟨next, hnext, -⟩ := except_bind_ok.1 hw
    exact ⟨next, onward_ok.1 hnext⟩

/-- a type has the size of a link to it, unless its visits come to a link of the name that cannot be looked up -/
theorem LeadAlike.type_of_size (halike : LeadAlike links path l t) (hl : l.isKind .definedTypeLink = true)
    (hf : links.resolve path l = .ok (some t)) (htype : t.child .type = .ok type) {v : Value}
    (hv : l.byteSize links path = .ok v) :
    type.byteSize links path = .ok v ∨ ∃ b e, Comes links path ⟨[], type⟩ b ∧
      b.node.isKind .definedTypeLink = true ∧ b.node.SameName l ∧ links.resolve path b.node = .error e := by
  obtain ⟨name, hname, hsize⟩ := byteSize_target hl hf htype
  rw [hsize] at hv
  by_cases hne : v = .absent
  · subst hne
    by_cases hfails : ∃ b e, Comes links path ⟨[], type⟩ b ∧ b.node.isKind .definedTypeLink = true ∧
        b.node.SameName l ∧ links.resolve path b.node = .error e
    · exact .inr hfails
    · refine .inl (halike.within htype hname hv fun b hb hlb hs => ?_)
      obtain ⟨bv, _, hbv, _, _⟩ := id hs
      by_cases hr : bv.nameKey ∈ b.resolving
      · exact ⟨none, .again hbv hr⟩
      · cases hfound : links.resolve path b.node with
        | error e => exact absurd ⟨b, e, hb, hlb, hs, hfound⟩ hfails
        | ok found =>
          cases found with
          | none => exact ⟨none, .nowhere hbv hr hfound⟩
          | some u =>
            obtain rfl := halike b.node u hlb hs hfound
            exact ⟨_, .follow hbv hr hfound htype⟩
  · exact .inl (sizeWithin_fixed (List.nil_subset _) hv hne)

end Following

end ByteSize

end InterfacePages

/-
Sizes without the state of the visits.

`measure` finds the size of a type with the names being resolved as an argument. `perform_visit` says that a visit does
nothing else and leaves the names as they were. What more names being resolved, more depth and another path do to a size
is then said of `measure`, by induction on the depth with one step for links and one for plans.

`byteSize_ok` says that the depth a size is found with is never too small, so no depth occurs in what is said of sizes.
-/
import InterfacePages.Proofs.LinkTables
import InterfacePages.Proofs.SizePlans

namespace InterfacePages

namespace ByteSize

/-- the type under a name that a resolved link leads to -/
def landing (name : NameKey) : Option Node → Except Fault (Option (NameKey × Node))
  | none => .ok none
  | some target => do return some (name, ← target.child .type)

/-- where a link leads to: the name to resolve and the type under it, or nowhere -/
def onward (links : LinkTable) (path : List Node) (resolving : Resolving) (n : Node) :
    Except Fault (Option (NameKey × Node)) := do
  let name := (← n.get .name).nameKey
  if resolving.contains name then return none
  landing name (← links.resolve path n)

/-- the size of what lies behind a link -/
def behind (size : Resolving → Node → Except Fault Value) (resolving : Resolving) :
    Option (NameKey × Node) → Except Fault Value
  | none => .ok .absent
  | some (name, type) => size (name :: resolving) type

/-- the size of a type while some names are being resolved, with nested types at most `fuel` deep -/
def measure (links : LinkTable) (path : List Node) : Nat → Resolving → Node → Except Fault Value
  | 0, _, _ => .error .nestingTooDeep
  | fuel + 1, resolving, n =>
    if n.isKind .definedTypeLink then onward links path resolving n >>= behind (measure links path fuel) resolving
    else (Plan.forNode n).eval (measure links path fuel resolving)

variable {links : LinkTable} {path : List Node} {fuel : Nat} {resolving : Resolving} {n : Node}

theorem onward_eq {name : Value} (hn : n.get .name = .ok name) :
    onward links path resolving n =
      if name.nameKey ∈ resolving then .ok none else links.resolve path n >>= landing name.nameKey := by
  unfold onward
  rw [hn]
  change (if resolving.contains name.nameKey then _ else _) = _
  simp only [List.contains_iff_mem]
  rfl

theorem measure_link (hl : n.isKind .definedTypeLink = true) :
    measure links path (fuel + 1) resolving n =
      onward links path resolving n >>= behind (measure links path fuel) resolving := if_pos hl

theorem measure_plan (hl : n.isKind .definedTypeLink = false) :
    measure links path (fuel + 1) resolving n = (Plan.forNode n).eval (measure links path fuel resolving) := by
  rw [measure, if_neg (Bool.eq_false_iff.1 hl)]

/-! ## Visits -/

theorem Plan.perform_run {visit : Node → Sizing} {size : Node → Except Fault Value} {p : Plan}
    (h : ∀ m, p.Asks size m → (visit m).perform resolving = (size m, resolving)) :
    (p.run visit).perform resolving = (p.eval size, resolving) := by
  induction p with
  | done r => rfl
  | ask n next ih =>
    rw [Plan.run, Plan.eval, Act.perform_bind, h n (.now n next)]
    cases hn : size n with
    | error e => rfl
    | ok v => exact ih v fun m hm => h m (.later hn hm)

theorem perform_target {visit : Node → Sizing} {size : Resolving → Node → Except Fault Value} {name : NameKey}
    {target : Node}
    (h : ∀ type, target.child .type = .ok type →
      (visit type).perform (name :: resolving) = (size (name :: resolving) type, name :: resolving)) :
    (do
      Act.change (name :: ·)
      Act.ensuring (do visit (← Act.ofExcept (target.child .type))) (·.erase name) : Sizing).perform resolving =
      (landing name (some target) >>= behind size resolving, resolving) := by
  rw [Act.perform_bind, Act.perform_change]
  dsimp only
  rw [Act.perform_ensuring, Act.perform_bind, Act.perform_ofExcept, landing]
  cases htype : target.child .type with
  | error e =>
    dsimp only
    rw [List.erase_cons_head]
    rfl
  | ok type =>
    dsimp only
    rw [h type htype, List.erase_cons_head]
    rfl

theorem perform_link {visit : Node → Sizing} {size : Resolving → Node → Except Fault Value}
    (h : ∀ name type, onward links path resolving n = .ok (some (name, type)) →
      (visit type).perform (name :: resolving) = (size (name :: resolving) type, name :: resolving)) :
    (link links path n visit).perform resolving =
      (onward links path resolving n >>= behind size resolving, resolving) := by
  unfold link
  rw [Act.perform_bind, Act.perform_ofExcept]
  cases hn : n.get .name with
  | error e =>
    unfold onward
    rw [hn]
    rfl
  | ok v =>
    rw [onward_eq hn] at h ⊢
    dsimp only
    rw [Act.perform_bind, Act.perform_get]
    dsimp only
    by_cases hmem : v.nameKey ∈ resolving
    · rw [if_pos (List.contains_iff_mem.2 hmem), if_pos hmem]
      rfl
    · rw [if_neg (fun hc => hmem (List.contains_iff_mem.1 hc)), if_neg hmem]
      rw [if_neg hmem] at h
      rw [Act.perform_bind, Act.perform_ofExcept]
      cases hfound : links.resolve path n with
      | error e => rfl
      | ok found =>
        cases found with
        | none => rfl
        | some target =>
          refine perform_target fun type htype => h v.nameKey type ?_
          rw [hfound]
          change landing _ (some target) = _
          rw [landing, htype]
          rfl

/-- a visit finds the size that is measured, and the names being resolved are afterwards what they were before -/
theorem perform_visit (links : LinkTable) (path : List Node) (fuel : Nat) (resolving : Resolving) (n : Node) :
    ((visitor links path).visit (throw .nestingTooDeep) fuel n).perform resolving =
      (measure links path fuel resolving n, resolving) := by
  induction fuel generalizing resolving n with
  | zero => rfl
  | succ fuel ih =>
    rw [Visitor.visit]
    cases hl : n.isKind .definedTypeLink
    · rw [handlerFor_eq_plan links path hl, measure_plan hl]
      exact Plan.perform_run fun m _ => ih resolving m
    · rw [handlerFor_link links path hl, measure_link hl]
      exact perform_link fun name type _ => ih (name :: resolving) type

/-- what a visit finds while some names are being resolved -/
def sizeWithin (links : LinkTable) (path : List Node) (resolving : Resolving) (n : Node) : Except Fault Value :=
  ((n.sizing links path).perform resolving).1

theorem perform_sizing (links : LinkTable) (path : List Node) (resolving : Resolving) (n : Node) :
    (n.sizing links path).perform resolving = (sizeWithin links path resolving n, resolving) := by
  unfold sizeWithin Node.sizing
  rw [perform_visit]

theorem sizeWithin_eq (links : LinkTable) (path : List Node) (resolving : Resolving) (n : Node) :
    sizeWithin links path resolving n = measure links path (depthFor links n) resolving n :=
  congrArg Prod.fst (perform_visit links path (depthFor links n) resolving n)

theorem byteSize_eq (links : LinkTable) (path : List Node) (n : Node) :
    n.byteSize links path = measure links path (depthFor links n) [] n := sizeWithin_eq links path [] n

/-! ## Links -/

/-- where a link leads to: its name is being resolved already, it finds nothing, or it finds a type -/
inductive Onward (links : LinkTable) (path : List Node) (resolving : Resolving) (n : Node) :
    Option (NameKey × Node) → Prop
  | again {name : Value} (hn : n.get .name = .ok name) (hr : name.nameKey ∈ resolving) :
      Onward links path resolving n none
  | nowhere {name : Value} (hn : n.get .name = .ok name) (hr : name.nameKey ∉ resolving)
      (hf : links.resolve path n = .ok none) : Onward links path resolving n none
  | follow {name : Value} {target type : Node} (hn : n.get .name = .ok name) (hr : name.nameKey ∉ resolving)
      (hf : links.resolve path n = .ok (some target)) (ht : target.child .type = .ok type) :
      Onward links path resolving n (some (name.nameKey, type))

theorem onward_ok {next : Option (NameKey × Node)} :
    onward links path resolving n = .ok next ↔ Onward links path resolving n next := by
  constructor
  · intro h
    obtain ⟨name, hn, _⟩ := except_bind_ok.1 h
    rw [onward_eq hn] at h
    by_cases hr : name.nameKey ∈ resolving
    · rw [if_pos hr] at h
      cases h
      exact .again hn hr
    · rw [if_neg hr] at h
      obtain ⟨found, hf, h⟩ := except_bind_ok.1 h
      cases found with
      | none =>
        cases h
        exact .nowhere hn hr hf
      | some target =>
        obtain ⟨type, ht, h⟩ := except_bind_ok.1 h
        cases h
        exact .follow hn hr hf ht
  · intro h
    cases h with
    | again hn hr => rw [onward_eq hn, if_pos hr]
    | nowhere hn hr hf =>
      rw [onward_eq hn, if_neg hr, hf]
      rfl
    | follow hn hr hf ht =>
      rw [onward_eq hn, if_neg hr, hf]
      change landing _ (some _) = _
      rw [landing, ht]
      rfl

theorem measure_link_ok (hl : n.isKind .definedTypeLink = true) {v : Value} :
    measure links path (fuel + 1) resolving n = .ok v ↔
      ∃ next, Onward links path resolving n next ∧ behind (measure links path fuel) resolving next = .ok v := by
  rw [measure_link hl, except_bind_ok]
  exact exists_congr fun next => and_congr_left fun _ => onward_ok

/-- a link that comes to a fixed size has it from the type it leads to -/
theorem measure_followed (hl : n.isKind .definedTypeLink = true) {v : Value}
    (hv : measure links path (fuel + 1) resolving n = .ok v) (hne : v ≠ .absent) :
    ∃ name target type, n.get .name = .ok name ∧ name.nameKey ∉ resolving ∧
      links.resolve path n = .ok (some target) ∧ target.child .type = .ok type ∧
      measure links path fuel (name.nameKey :: resolving) type = .ok v := by
  obtain ⟨next, hnext, hv⟩ := (measure_link_ok hl).1 hv
  cases hnext with
  | again hn hr => exact absurd (Except.ok.inj hv).symm hne
  | nowhere hn hr hf => exact absurd (Except.ok.inj hv).symm hne
  | follow hn hr hf ht => exact ⟨_, _, _, hn, hr, hf, ht, hv⟩

/-! ## More names being resolved -/

variable {more : Resolving}

/-- while more names are being resolved, a type has the size it had or one that varies -/
theorem measure_dims (h : resolving ⊆ more) :
    Plan.Dims (measure links path fuel resolving) (measure links path fuel more) := by
  induction fuel generalizing resolving more with
  | zero =>
    intro n v hv
    cases hv
  | succ fuel ih =>
    intro n v hv
    cases hl : n.isKind .definedTypeLink
    · rw [measure_plan hl] at hv ⊢
      exact (Plan.sound_forNode n).eval_dims (ih h) hv
    · rw [measure_link_ok hl] at hv ⊢
      rw [measure_link_ok hl]
      obtain ⟨next, hnext, hv⟩ := hv
      cases hnext with
      | again hn hr => exact .inl ⟨none, .again hn (h hr), hv⟩
      | @nowhere name hn hr hf =>
        by_cases hm : name.nameKey ∈ more
        · exact .inl ⟨none, .again hn hm, hv⟩
        · exact .inl ⟨none, .nowhere hn hm hf, hv⟩
      | @follow name target type hn hr hf ht =>
        by_cases hm : name.nameKey ∈ more
        · exact .inr ⟨none, .again hn hm, rfl⟩
        · have hnext := Onward.follow hn hm hf ht
          exact (ih (List.cons_subset_cons _ h) type v hv).imp (fun hv => ⟨_, hnext, hv⟩) fun hv => ⟨_, hnext, hv⟩

/-- a fixed size is found as well on a path that serves the links at least as well, while no more names are being
resolved -/
theorem measure_carried {path' : List Node}
    (hpath : ∀ l t, l.isKind .definedTypeLink = true → links.resolve path l = .ok (some t) →
      links.resolve path' l = .ok (some t))
    (h : resolving ⊆ more) {v : Value} (hv : measure links path fuel more n = .ok v) (hne : v ≠ .absent) :
    measure links path' fuel resolving n = .ok v := by
  induction fuel generalizing resolving more n v with
  | zero => cases hv
  | succ fuel ih =>
    cases hl : n.isKind .definedTypeLink
    · rw [measure_plan hl] at hv ⊢
      exact (Plan.sound_forNode n).eval_fixed (fun m w hw hw' => ih h hw hw') hv hne
    · obtain ⟨name, target, type, hn, hr, hf, ht, hv⟩ := measure_followed hl hv hne
      have hnext := Onward.follow hn (fun hm => hr (h hm)) (hpath n target hl hf) ht
      exact (measure_link_ok hl).2 ⟨_, hnext, ih (List.cons_subset_cons _ h) hv hne⟩

/-- a fixed size that is found while more names are being resolved is found anyway -/
theorem measure_fixed (h : resolving ⊆ more) {v : Value} (hv : measure links path fuel more n = .ok v)
    (hne : v ≠ .absent) : measure links path fuel resolving n = .ok v :=
  measure_carried (fun _ _ _ ht => ht) h hv hne

/-! ## More depth -/

/-- what has been found is found at any greater depth -/
theorem measure_le {fuel' : Nat} (h : fuel ≤ fuel') {v : Value} (hv : measure links path fuel resolving n = .ok v) :
    measure links path fuel' resolving n = .ok v := by
  induction fuel generalizing fuel' resolving n v with
  | zero => cases hv
  | succ fuel ih =>
    obtain ⟨fuel', rfl⟩ : ∃ k, fuel' = k + 1 := ⟨fuel' - 1, by omega⟩
    have hle : fuel ≤ fuel' := by omega
    cases hl : n.isKind .definedTypeLink
    · rw [measure_plan hl] at hv ⊢
      exact Plan.eval_le (fun m w hw => ih hle hw) hv
    · rw [measure_link_ok hl] at hv ⊢
      obtain ⟨next, hnext, hv⟩ := hv
      refine ⟨next, hnext, ?_⟩
      cases next with
      | none => exact hv
      | some behind => exact ih hle hv

/-- how many entries of the table are filed under names that are not being resolved -/
def gap (links : LinkTable) (resolving : Resolving) : Nat := (links.keys.filter (·.name ∉ resolving)).length

theorem gap_le_size (links : LinkTable) (resolving : Resolving) : gap links resolving ≤ links.size := by
  have hkeys : links.keys.length = links.size := List.length_map ..
  rw [← hkeys]
  exact List.length_filter_le ..

theorem gap_cons {key : LinkKey} (hk : key ∈ links.keys) (hr : key.name ∉ resolving) :
    gap links (key.name :: resolving) < gap links resolving := by
  have hfilter : links.keys.filter (·.name ∉ key.name :: resolving) =
      (links.keys.filter (·.name ∉ resolving)).filter (·.name ≠ key.name) := by
    rw [List.filter_filter]
    refine List.filter_congr fun k _ => ?_
    simp
  unfold gap
  rw [hfilter, List.length_filter_lt_length_iff_exists]
  exact ⟨key, List.mem_filter.2 ⟨hk, decide_eq_true hr⟩, by simp⟩

/-- how deep a visit can go: as many types in a row as there are names left, each as high as the highest entry -/
def deepest (links : LinkTable) (height : Nat) (resolving : Resolving) (n : Node) : Nat :=
  gap links resolving * (height + 1) + n.height + 1

theorem deepest_target {height : Nat} (hh : ∀ e ∈ links.entries, e.2.height ≤ height)
    (hl : n.isKind .definedTypeLink = true) {name : Value} {target type : Node} (hn : n.get .name = .ok name)
    (hr : name.nameKey ∉ resolving) (hf : links.resolve path n = .ok (some target))
    (ht : target.child .type = .ok type) :
    deepest links height (name.nameKey :: resolving) type < deepest links height resolving n := by
  obtain ⟨program, name', _, hn', hget⟩ := (LinkTable.resolve_some hl).1 hf
  rw [hn] at hn'
  cases hn'
  have hlow : type.height < target.height := Node.height_of_child ht
  have hhigh : target.height ≤ height := hh _ (OrderedMap.mem_entries.2 hget)
  have hgap := gap_cons (OrderedMap.mem_keys.2 ⟨target, hget⟩) hr
  calc deepest links height (name.nameKey :: resolving) type
      ≤ gap links (name.nameKey :: resolving) * (height + 1) + (height + 1) := by unfold deepest; omega
    _ = (gap links (name.nameKey :: resolving) + 1) * (height + 1) := (Nat.succ_mul ..).symm
    _ ≤ gap links resolving * (height + 1) := Nat.mul_le_mul_right _ (Nat.succ_le_of_lt hgap)
    _ < deepest links height resolving n := by unfold deepest; omega

/-- beyond the depth that a visit can reach, more of it does not count -/
theorem measure_enough {fuel' height : Nat} (hh : ∀ e ∈ links.entries, e.2.height ≤ height)
    (h : deepest links height resolving n ≤ fuel) (h' : deepest links height resolving n ≤ fuel') :
    measure links path fuel resolving n = measure links path fuel' resolving n := by
  induction fuel generalizing fuel' resolving n with
  | zero => exact absurd h (Nat.not_succ_le_zero _)
  | succ fuel ih =>
    obtain ⟨fuel', rfl⟩ : ∃ k, fuel' = k + 1 := ⟨fuel' - 1, by unfold deepest at h'; omega⟩
    cases hl : n.isKind .definedTypeLink
    · rw [measure_plan hl, measure_plan hl]
      refine (Plan.sound_forNode n).eval_congr fun m hm => ?_
      have hlow := hm.height_lt
      exact ih (by unfold deepest at *; omega) (by unfold deepest at *; omega)
    · rw [measure_link hl, measure_link hl]
      cases honward : onward links path resolving n with
      | error e => rfl
      | ok next =>
        cases onward_ok.1 honward with
        | again hn hr => rfl
        | nowhere hn hr hf => rfl
        | follow hn hr hf ht =>
          have hdeep := deepest_target hh hl hn hr hf ht
          exact ih (by omega) (by omega)

theorem height_le_foldl (entries : List (LinkKey × Node)) (height : Nat) :
    height ≤ entries.foldl (fun h e => max h e.2.height) height ∧
      ∀ e ∈ entries, e.2.height ≤ entries.foldl (fun h e => max h e.2.height) height := by
  induction entries generalizing height with
  | nil => exact ⟨Nat.le_refl _, fun e he => absurd he List.not_mem_nil⟩
  | cons e rest ih =>
    obtain ⟨hle, hall⟩ := ih (max height e.2.height)
    refine ⟨Nat.le_trans (Nat.le_max_left ..) hle, List.forall_mem_cons.2 ⟨?_, hall⟩⟩
    exact Nat.le_trans (Nat.le_max_right ..) hle

/-- the depth that a size is found with is as deep as a visit can go -/
theorem deepest_le_depthFor (links : LinkTable) (n : Node) :
    ∃ height, (∀ e ∈ links.entries, e.2.height ≤ height) ∧
      ∀ resolving, deepest links height resolving n ≤ depthFor links n := by
  obtain ⟨hn, hh⟩ := height_le_foldl links.entries n.height
  refine ⟨_, hh, fun resolving => ?_⟩
  unfold depthFor
  generalize links.entries.foldl (fun h e => max h e.2.height) n.height = height at hn ⊢
  have hgap := Nat.mul_le_mul_right (height + 1) (gap_le_size links resolving)
  calc deepest links height resolving n
      ≤ links.size * (height + 1) + (height + 1) + 1 := by unfold deepest; omega
    _ = (links.size + 1) * (height + 1) + 1 := by rw [Nat.succ_mul]

/-- a depth that a visit cannot exceed is enough -/
theorem sizeWithin_eq_measure {height : Nat} (hh : ∀ e ∈ links.entries, e.2.height ≤ height)
    (h : deepest links height resolving n ≤ fuel) :
    sizeWithin links path resolving n = measure links path fuel resolving n := by
  obtain ⟨height', hh', hdepth⟩ := deepest_le_depthFor links n
  rw [sizeWithin_eq, measure_enough hh' (hdepth resolving) (Nat.le_trans (hdepth resolving) (Nat.le_max_left _ fuel)),
    ← measure_enough hh h (Nat.le_trans h (Nat.le_max_right (depthFor links n) fuel))]

/-- a visit finds what one of any depth finds -/
theorem sizeWithin_ok {v : Value} :
    sizeWithin links path resolving n = .ok v ↔ ∃ fuel, measure links path fuel resolving n = .ok v := by
  obtain ⟨height, hh, hdepth⟩ := deepest_le_depthFor links n
  refine ⟨fun h => ⟨_, (sizeWithin_eq links path resolving n).symm.trans h⟩, fun ⟨fuel, h⟩ => ?_⟩
  rw [sizeWithin_eq_measure hh (Nat.le_trans (hdepth resolving) (Nat.le_max_right fuel _))]
  exact measure_le (Nat.le_max_left ..) h

/-- a type has the size that a visit of any depth finds -/
theorem byteSize_ok {v : Value} :
    n.byteSize links path = .ok v ↔ ∃ fuel, measure links path fuel [] n = .ok v := sizeWithin_ok

/-! ## Other paths -/

/-- a fixed size that is found without a path is found on every path -/
theorem measure_pathless {v : Value} (hv : measure links [] fuel resolving n = .ok v) (hne : v ≠ .absent)
    (path : List Node) : measure links path fuel resolving n = .ok v :=
  measure_carried (fun _ _ hl ht => LinkTable.resolve_pathless hl ht path) (List.Subset.refl _) hv hne

/-- fixed sizes found on two paths are one, and need no path, where a link that finds something on both paths finds the
same without one -/
theorem measure_agree {path' : List Node}
    (hboth : ∀ l t t', l.isKind .definedTypeLink = true → links.resolve path l = .ok (some t) →
      links.resolve path' l = .ok (some t') → links.resolve [] l = .ok (some t) ∧ t = t')
    {v v' : Value} (hv : measure links path fuel resolving n = .ok v) (hne : v ≠ .absent)
    (hv' : measure links path' fuel resolving n = .ok v') (hne' : v' ≠ .absent) :
    measure links [] fuel resolving n = .ok v ∧ v = v' := by
  induction fuel generalizing resolving n v v' with
  | zero => cases hv
  | succ fuel ih =>
    cases hl : n.isKind .definedTypeLink
    · rw [measure_plan hl] at hv hv' ⊢
      exact (Plan.sound_forNode n).eval_agree (fun m w w' hw hw' hn hn' => ih hw hn hw' hn') hv hv' hne hne'
    · obtain ⟨name, target, type, hn, hr, hf, ht, hv⟩ := measure_followed hl hv hne
      obtain ⟨name', target', type', hn', -, hf', ht', hv'⟩ := measure_followed hl hv' hne'
      obtain ⟨hnone, rfl⟩ := hboth n _ _ hl hf hf'
      rw [hn] at hn'
      rw [ht] at ht'
      cases hn'
      cases ht'
      obtain ⟨hsize, heq⟩ := ih hv hne hv' hne'
      exact ⟨(measure_link_ok hl).2 ⟨_, .follow hn hr hnone ht, hsize⟩, heq⟩

/-! ## Other tables -/

/-- the sizes of nodes of a class are the same with two tables and paths, where the class has everything that stands in
its nodes, and its links lead to the same nodes of the class -/
theorem byteSize_congr {links' : LinkTable} {path' : List Node} {P : Node → Prop}
    (hinside : ∀ n m, P n → n.Contains m → P m)
    (hlinks : ∀ l, P l → l.isKind .definedTypeLink = true → links.resolve path l = links'.resolve path' l ∧
      ∀ t, links.resolve path l = .ok (some t) → P t)
    (hn : P n) : n.byteSize links path = n.byteSize links' path' := by
  have hmeasure : ∀ fuel resolving n, P n →
      measure links path fuel resolving n = measure links' path' fuel resolving n := by
    intro fuel
    induction fuel with
    | zero => exact fun _ _ _ => rfl
    | succ fuel ih =>
      intro resolving n hn
      cases hl : n.isKind .definedTypeLink
      · rw [measure_plan hl, measure_plan hl]
        exact (Plan.sound_forNode n).eval_congr fun m hm => ih resolving m (hinside n m hn hm)
      · obtain ⟨hsame, htarget⟩ := hlinks n hn hl
        have honward : onward links path resolving n = onward links' path' resolving n := by
          unfold onward
          rw [hsame]
        rw [measure_link hl, measure_link hl, ← honward]
        cases hnext : onward links path resolving n with
        | error e => rfl
        | ok next =>
          cases onward_ok.1 hnext with
          | again hn hr => rfl
          | nowhere hn hr hf => rfl
          | follow hn hr hf ht => exact ih _ _ (hinside _ _ (htarget _ hf) (.child ht))
  obtain ⟨height, hh, hdepth⟩ := deepest_le_depthFor links n
  obtain ⟨height', hh', hdepth'⟩ := deepest_le_depthFor links' n
  rw [byteSize_eq, byteSize_eq,
    measure_enough hh (hdepth []) (Nat.le_trans (hdepth []) (Nat.le_max_left _ (depthFor links' n))), hmeasure _ _ n hn,
    measure_enough hh' (hdepth' []) (Nat.le_trans (hdepth' []) (Nat.le_max_right (depthFor links n) _))]

end ByteSize

end InterfacePages

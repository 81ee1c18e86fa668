/-
What a tree declares, program by program.

The listings of a node go over its programs, so each of them is the listings of its programs one after another
(`members_of_programs`, `leafInstructions_ok`, `listing_of_programs`), however deep the fuel with which they
were made. A visit goes over the values of a collection instead. Both come to the same where the collection holds only
nodes of its kind and nodes of kinds without a model (`eachNode_ofKind`).
-/
import InterfacePages.Node.Decode
import InterfacePages.Proofs.FirstFaults
import InterfacePages.Proofs.LinkTables
import InterfacePages.Proofs.NodeHeights
import InterfacePages.Proofs.Visiting
import InterfacePages.Summary

namespace InterfacePages

/-! ## Pointwise relations -/

theorem exists_mapM_ok {ε ι ρ : Type} {f : ι → Except ε ρ} {xs : List ι} (h : ∀ x ∈ xs, ∃ y, f x = .ok y) :
    ∃ ys, xs.mapM f = .ok ys := mapM_returns.2 h

/-- what goes with each of some things, one from each pair that is related -/
theorem exists_forall₂ {α β γ : Type} {R : α → β → Prop} {S : α → γ → Prop} {part : γ → β} {xs : List α} {ys : List β}
    (h : List.Forall₂ R xs ys) (hs : ∀ x ∈ xs, ∀ y, R x y → ∃ z, part z = y ∧ S x z) :
    ∃ zs, zs.map part = ys ∧ List.Forall₂ S xs zs := by
  induction h with
  | nil => exact ⟨[], rfl, .nil⟩
  | cons hxy _ ih =>
    obtain ⟨z, hz, hxz⟩ := hs _ List.mem_cons_self _ hxy
    obtain ⟨zs, hzs, hrest⟩ := ih fun x hx => hs x (List.mem_cons_of_mem _ hx)
    exact ⟨z :: zs, by rw [List.map_cons, hz, hzs], .cons hxz hrest⟩

namespace Node

/-! ## Members -/

theorem mem_ofKind {k : Kind} {vs : List Value} {ns : List Node} (h : ofKind k vs = .ok ns) {n : Node} (hn : n ∈ ns) :
    ∃ v ∈ vs, v.asNode = .ok n := by
  induction vs generalizing ns with
  | nil =>
    cases h
    cases hn
  | cons v rest ih =>
    obtain ⟨m, hm, h⟩ := except_bind_ok.1 h
    obtain ⟨ms, hms, h⟩ := except_bind_ok.1 h
    have hrest : n ∈ ms → ∃ w ∈ v :: rest, w.asNode = .ok n := fun hn => by
      obtain ⟨w, hw, hwn⟩ := ih hms hn
      exact ⟨w, List.mem_cons_of_mem _ hw, hwn⟩
    cases h
    split at hn
    · rcases List.mem_cons.1 hn with rfl | hn
      · exact ⟨v, List.mem_cons_self, hm⟩
      · exact hrest hn
    · exact hrest hn

/-- the programs of a root are lower than the root -/
theorem contains_rootProgram {n : Node} (hn : n.kind? = some .root) {ps : List Node} (h : n.programs = .ok ps) :
    ∀ p ∈ ps, n.Contains p := by
  intro p hp
  unfold programs at h
  rw [hn] at h
  obtain ⟨main, hmain, h⟩ := except_bind_ok.1 h
  obtain ⟨others, hothers, h⟩ := except_bind_ok.1 h
  obtain ⟨v, hv, hvp⟩ := mem_ofKind h hp
  rcases List.mem_cons.1 hv with rfl | hv
  · exact .child (except_bind_ok.2 ⟨v, hmain, hvp⟩)
  · exact .item hothers hv hvp

theorem height_of_rootPrograms {n : Node} (hn : n.kind? = some .root) {ps : List Node} (h : n.programs = .ok ps) :
    ∀ p ∈ ps, p.height < n.height := fun p hp => (contains_rootProgram hn h p hp).height_lt

/-- the programs of a node stand in it -/
theorem occurs_program {n p : Node} {ps : List Node} (h : n.programs = .ok ps) (hp : p ∈ ps) : n.Occurs p := by
  by_cases hn : n.kind? = some .root
  · exact .single (contains_rootProgram hn h p hp)
  · unfold programs at h
    split at h
    · next hroot => exact absurd hroot hn
    · cases h
      rw [List.mem_singleton.1 hp]
      exact .refl
    · cases h
      cases hp

theorem height_of_programs {n : Node} {ps : List Node} (h : n.programs = .ok ps) : ∀ p ∈ ps, p.height ≤ n.height :=
  fun _ hp => (occurs_program h hp).height_le

theorem contains_member {p : Node} (hp : p.isKind .program = true) {a : Attr} {k : Kind} {ms : List Node}
    (h : p.members a k = .ok ms) {m : Node} (hm : m ∈ ms) : p.Contains m := by
  obtain ⟨vs, hvs, hms⟩ := except_bind_ok.1 ((members_program hp).1 h)
  obtain ⟨v, hv, hvm⟩ := mem_ofKind hms hm
  exact .item hvs hv hvm

/-- the members of a node are those of its programs -/
theorem members_of_programs {a : Attr} {k : Kind} {n : Node} {ps : List Node} {mss : List (List Node)}
    (hps : n.programs = .ok ps) (h : List.Forall₂ (fun p ms => p.members a k = .ok ms) ps mss) :
    n.members a k = .ok mss.flatten := by
  have hown : List.Forall₂ (fun p ms => p.ownMembers a k = .ok ms) ps mss :=
    ((List.forall₂_and_left _ _).2 ⟨isKind_of_programs hps, h⟩).imp fun p ms hp => (members_program hp.1).1 hp.2
  refine except_bind_ok.2 ⟨ps, hps, except_bind_ok.2 ⟨mss, ?_, rfl⟩⟩
  exact mapM_eq_ok.2 hown

/-! ## Instructions -/

theorem listAll_congr {list list' : Node → Except Fault (List Node)} {vs : List Value}
    (h : ∀ v ∈ vs, ∀ m, v.asNode = .ok m → list m = list' m) : listAll list vs = listAll list' vs := by
  induction vs with
  | nil => rfl
  | cons v rest ih =>
    unfold listAll
    rw [ih fun w hw => h w (List.mem_cons_of_mem _ hw)]
    cases hv : v.asNode with
    | error e => rfl
    | ok m =>
      change (list m >>= _) = (list' m >>= _)
      rw [h v List.mem_cons_self m hv]

/-- the instructions that a program itself holds, nested at most `fuel` deep -/
def ownInstructionsUpTo (leavesOnly : Bool) (fuel : Nat) (p : Node) : Except Fault (List Node) := do
  listAll (instructionsUpTo leavesOnly fuel) (← p.items .instructions)

theorem height_pos (n : Node) : 0 < n.height := by
  cases n <;> simp only [height] <;> omega

theorem mapM_congr {ι ρ : Type} {f g : ι → Except Fault ρ} {xs : List ι} (h : ∀ x ∈ xs, f x = g x) :
    xs.mapM f = xs.mapM g := by
  induction xs with
  | nil => rfl
  | cons x rest ih =>
    rw [List.mapM_cons, List.mapM_cons, h x List.mem_cons_self, ih fun y hy => h y (List.mem_cons_of_mem _ hy)]

/-- any fuel that suffices lists the same instructions -/
theorem instructionsUpTo_eq {leavesOnly : Bool} {fuel fuel' : Nat} {n : Node} (h : n.height ≤ fuel)
    (h' : n.height ≤ fuel') : instructionsUpTo leavesOnly fuel n = instructionsUpTo leavesOnly fuel' n := by
  induction fuel generalizing fuel' n with
  | zero => exact absurd h (Nat.not_le.2 n.height_pos)
  | succ fuel ih =>
    obtain ⟨fuel', rfl⟩ : ∃ f, fuel' = f + 1 := Nat.exists_eq_add_one.2 (Nat.lt_of_lt_of_le n.height_pos h')
    -- whatever stands in a node that is no higher is listed with less fuel
    have hinside : ∀ {m : Node} {vs : List Value}, m.height ≤ n.height →
        (∀ v ∈ vs, ∀ i, v.asNode = .ok i → i.height < m.height) →
        listAll (instructionsUpTo leavesOnly fuel) vs = listAll (instructionsUpTo leavesOnly fuel') vs :=
      fun hm hvs => listAll_congr fun v hv i hi => by
        have := hvs v hv i hi
        exact ih (by omega) (by omega)
    unfold instructionsUpTo
    split
    · cases hsubs : n.get .subInstructions with
      | error e => rfl
      | ok subs =>
        change (if !subs.isGiven then _ else _) = (if !subs.isGiven then _ else _)
        cases hvs : subs.items with
        | error e => rfl
        | ok vs =>
          have hvs' : n.items .subInstructions = .ok vs := except_bind_ok.2 ⟨subs, hsubs, hvs⟩
          change (if !subs.isGiven then _ else (listAll _ vs >>= _)) = (if !subs.isGiven then _ else (listAll _ vs >>= _))
          rw [hinside (Nat.le_refl _) fun v hv i hi => height_of_item hvs' hv hi]
    · cases hps : n.programs with
      | error e => rfl
      | ok ps =>
        refine congrArg (fun x : Except Fault (List (List Node)) => do return (← x).flatten) (mapM_congr fun p hp => ?_)
        cases hvs : p.items .instructions with
        | error e => rfl
        | ok vs => exact hinside (height_of_programs hps p hp) fun v hv i hi => height_of_item hvs hv hi

theorem ownInstructionsUpTo_eq {leavesOnly : Bool} {fuel fuel' : Nat} {p : Node} (h : p.height ≤ fuel + 1)
    (h' : p.height ≤ fuel' + 1) : p.ownInstructionsUpTo leavesOnly fuel = p.ownInstructionsUpTo leavesOnly fuel' := by
  unfold ownInstructionsUpTo
  cases hvs : p.items .instructions with
  | error e => rfl
  | ok vs =>
    refine listAll_congr fun v hv m hm => ?_
    have := height_of_item hvs hv hm
    exact instructionsUpTo_eq (by omega) (by omega)

theorem not_instruction {n : Node} {k : Kind} (hn : n.isKind k = true) (hk : k ≠ .instruction) :
    n.isKind .instruction = false := by
  rw [isKind, beq_iff_eq.1 hn]
  simpa using hk

theorem leafInstructions_eq {n : Node} (hn : n.isKind .instruction = false) {fuel : Nat} (hf : n.height = fuel + 1) :
    n.leafInstructions = do return (← (← n.programs).mapM (ownInstructionsUpTo true fuel)).flatten := by
  unfold leafInstructions
  rw [hf, instructionsUpTo, hn]
  rfl

theorem leafInstructions_program {p : Node} (hp : p.isKind .program = true) {fuel : Nat} (hf : p.height ≤ fuel + 1)
    {ls : List Node} : p.leafInstructions = .ok ls ↔ p.ownInstructionsUpTo true fuel = .ok ls := by
  obtain ⟨fuel', hf'⟩ := Nat.exists_eq_add_one.2 p.height_pos
  rw [leafInstructions_eq (not_instruction hp (by decide)) hf', programs_program hp,
    ownInstructionsUpTo_eq (show p.height ≤ fuel + 1 from hf) (show p.height ≤ fuel' + 1 by omega)]
  constructor
  · intro h
    obtain ⟨_, hps, h⟩ := except_bind_ok.1 h
    cases hps
    obtain ⟨lss, hlss, h⟩ := except_bind_ok.1 h
    cases h
    cases mapM_eq_ok.1 hlss with
    | cons hl hrest =>
      cases hrest
      rw [List.flatten_singleton]
      exact hl
  · intro h
    refine except_bind_ok.2 ⟨[p], rfl, except_bind_ok.2 ⟨[ls], mapM_eq_ok.2 (.cons h .nil), ?_⟩⟩
    exact congrArg Except.ok List.flatten_singleton

/-- the instructions without sub-instructions of a node are those of its programs -/
theorem leafInstructions_ok {n : Node} (hn : n.isKind .instruction = false) {ls : List Node} :
    n.leafInstructions = .ok ls ↔ ∃ ps lss, n.programs = .ok ps ∧
      List.Forall₂ (fun p ls => p.leafInstructions = .ok ls) ps lss ∧ ls = lss.flatten := by
  obtain ⟨fuel, hf⟩ := Nat.exists_eq_add_one.2 n.height_pos
  have hprogram : ∀ {ps}, n.programs = .ok ps → ∀ p ∈ ps, ∀ ls,
      p.leafInstructions = .ok ls ↔ p.ownInstructionsUpTo true fuel = .ok ls := fun hps p hp ls =>
    leafInstructions_program (isKind_of_programs hps p hp) (hf ▸ height_of_programs hps p hp)
  rw [leafInstructions_eq hn hf]
  constructor
  · intro h
    obtain ⟨ps, hps, h⟩ := except_bind_ok.1 h
    obtain ⟨lss, hlss, h⟩ := except_bind_ok.1 h
    cases h
    refine ⟨ps, lss, hps, ?_, rfl⟩
    exact ((List.forall₂_and_left _ _).2 ⟨hprogram hps, mapM_eq_ok.1 hlss⟩).imp fun p ls h => (h.1 ls).2 h.2
  · rintro ⟨ps, lss, hps, hlss, rfl⟩
    refine except_bind_ok.2 ⟨ps, hps, except_bind_ok.2 ⟨lss, mapM_eq_ok.2 ?_, rfl⟩⟩
    exact ((List.forall₂_and_left _ _).2 ⟨hprogram hps, hlss⟩).imp fun p ls h => (h.1 ls).1 h.2

theorem mem_listAll {list : Node → Except Fault (List Node)} {vs : List Value} {ns : List Node}
    (h : listAll list vs = .ok ns) {n : Node} (hn : n ∈ ns) :
    ∃ v ∈ vs, ∃ m ms, v.asNode = .ok m ∧ list m = .ok ms ∧ n ∈ ms := by
  induction vs generalizing ns with
  | nil =>
    cases h
    cases hn
  | cons v rest ih =>
    obtain ⟨m, hm, h⟩ := except_bind_ok.1 h
    obtain ⟨here, hhere, h⟩ := except_bind_ok.1 h
    obtain ⟨others, hothers, h⟩ := except_bind_ok.1 h
    cases h
    rcases List.mem_append.1 hn with hn | hn
    · exact ⟨v, List.mem_cons_self, m, here, hm, hhere, hn⟩
    · obtain ⟨w, hw, hlisted⟩ := ih hothers hn
      exact ⟨w, List.mem_cons_of_mem _ hw, hlisted⟩

/-- an instruction of a node is the node or lower -/
theorem height_of_instructionsUpTo {leavesOnly : Bool} {fuel : Nat} {n : Node} {ns : List Node}
    (h : instructionsUpTo leavesOnly fuel n = .ok ns) : ∀ m ∈ ns, m = n ∨ m.height < n.height := by
  induction fuel generalizing n ns with
  | zero => cases h
  | succ fuel ih =>
    -- what is listed of a collection of a node is lower than the node
    have hall : ∀ {p : Node} {a : Attr} {vs ms}, p.items a = .ok vs →
        listAll (instructionsUpTo leavesOnly fuel) vs = .ok ms → ∀ m ∈ ms, m.height < p.height := by
      intro p a vs ms hvs hms m hm
      obtain ⟨v, hv, i, is, hi, his, hm⟩ := mem_listAll hms hm
      have hlow := height_of_item hvs hv hi
      rcases ih his m hm with rfl | hm
      · exact hlow
      · exact Nat.lt_trans hm hlow
    unfold instructionsUpTo at h
    split at h
    · obtain ⟨subs, hsubs, h⟩ := except_bind_ok.1 h
      split at h
      · cases h
        exact List.forall_mem_singleton.2 (.inl rfl)
      · obtain ⟨vs, hvs, h⟩ := except_bind_ok.1 h
        obtain ⟨nested, hnested, h⟩ := except_bind_ok.1 h
        have hlow : ∀ m ∈ nested, m = n ∨ m.height < n.height := fun m hm =>
          .inr (hall (a := .subInstructions) (except_bind_ok.2 ⟨subs, hsubs, hvs⟩) hnested m hm)
        cases h
        split
        · exact hlow
        · exact List.forall_mem_cons.2 ⟨.inl rfl, hlow⟩
    · obtain ⟨ps, hps, h⟩ := except_bind_ok.1 h
      obtain ⟨mss, hmss, h⟩ := except_bind_ok.1 h
      cases h
      intro m hm
      obtain ⟨ms, hms, hm⟩ := List.mem_flatten.1 hm
      obtain ⟨p, hp, hpm⟩ := exists_of_forall₂ (mapM_eq_ok.1 hmss) hms
      obtain ⟨vs, hvs, hpm⟩ := except_bind_ok.1 hpm
      exact .inr (Nat.lt_of_lt_of_le (hall hvs hpm m hm) (height_of_programs hps p hp))

theorem isKind_of_leafInstructions {n : Node} {ls : List Node} (h : n.leafInstructions = .ok ls) :
    ∀ m ∈ ls, m.isKind .instruction = true := isKind_of_instructionsUpTo h

/-- the instructions that a program holds are lower than the program -/
theorem height_of_leafInstructions {p : Node} (hp : p.isKind .instruction = false) {ls : List Node}
    (h : p.leafInstructions = .ok ls) : ∀ l ∈ ls, l.height < p.height := by
  intro l hl
  refine (height_of_instructionsUpTo h l hl).resolve_left ?_
  rintro rfl
  rw [isKind_of_leafInstructions h l hl] at hp
  cases hp

/-! ## All listings -/

/-- what a tree declares; of its instructions those without sub-instructions -/
structure Listing where
  programs : List Node
  accounts : List Node
  instructions : List Node
  pdas : List Node
  definedTypes : List Node
  errors : List Node

def listing (n : Node) : Except Fault Listing := do
  return ⟨← n.programs, ← n.accounts, ← n.leafInstructions, ← n.pdas, ← n.definedTypes, ← n.errors⟩

namespace Listing

def counts (l : Listing) : Counts :=
  ⟨l.programs.length, l.accounts.length, l.instructions.length, l.pdas.length, l.definedTypes.length, l.errors.length⟩

def join (ls : List Listing) : Listing where
  programs := ls.flatMap programs
  accounts := ls.flatMap accounts
  instructions := ls.flatMap instructions
  pdas := ls.flatMap pdas
  definedTypes := ls.flatMap definedTypes
  errors := ls.flatMap errors

end Listing

theorem counts_eq (n : Node) : n.counts = do return (← n.listing).counts := by
  unfold counts listing
  simp only [bind_assoc, pure_bind]
  rfl

theorem listing_eq_ok {n : Node} {l : Listing} :
    n.listing = .ok l ↔ n.programs = .ok l.programs ∧ n.accounts = .ok l.accounts ∧
      n.leafInstructions = .ok l.instructions ∧ n.pdas = .ok l.pdas ∧ n.definedTypes = .ok l.definedTypes ∧
      n.errors = .ok l.errors := by
  unfold listing
  simp only [except_bind_ok]
  constructor
  · rintro ⟨ps, hps, as, has, ls, hls, ds, hds, ts, hts, es, hes, h⟩
    cases h
    exact ⟨hps, has, hls, hds, hts, hes⟩
  · rintro ⟨hps, has, hls, hds, hts, hes⟩
    exact ⟨_, hps, _, has, _, hls, _, hds, _, hts, _, hes, rfl⟩

/-- what a node declares is what its programs declare -/
theorem listing_of_programs {n : Node} {ps : List Node} {ls : List Listing} (hn : n.isKind .instruction = false)
    (hps : n.programs = .ok ps) (h : List.Forall₂ (fun p l => p.listing = .ok l) ps ls) :
    n.listing = .ok (.join ls) := by
  have hmembers : ∀ {a : Attr} {k : Kind} {field : Listing → List Node},
      (∀ (p : Node) (l : Listing), p.listing = .ok l → p.members a k = .ok (field l)) →
        n.members a k = .ok (ls.flatMap field) :=
    fun hfield => members_of_programs hps (List.forall₂_map_right_iff.2 (h.imp hfield))
  refine listing_eq_ok.2 ⟨?_, hmembers fun p l hl => (listing_eq_ok.1 hl).2.1, ?_,
    hmembers fun p l hl => (listing_eq_ok.1 hl).2.2.2.1, hmembers fun p l hl => (listing_eq_ok.1 hl).2.2.2.2.1,
    hmembers fun p l hl => (listing_eq_ok.1 hl).2.2.2.2.2⟩
  · rw [hps]
    refine congrArg Except.ok ?_
    have hprograms : List.Forall₂ (fun p l => Listing.programs l = [p]) ps ls := by
      refine ((List.forall₂_and_left _ _).2 ⟨isKind_of_programs hps, h⟩).imp ?_
      rintro p l ⟨hp, hl⟩
      have := (listing_eq_ok.1 hl).1
      rw [programs_program hp] at this
      exact (Except.ok.inj this).symm
    clear h hps hmembers
    induction hprograms with
    | nil => rfl
    | cons hl _ ih =>
      change _ = Listing.programs _ ++ (Listing.join _).programs
      rw [hl, ← ih]
      rfl
  · refine (leafInstructions_ok hn).2 ⟨ps, _, hps, ?_, List.flatMap_def⟩
    exact List.forall₂_map_right_iff.2 (h.imp fun p l hl => (listing_eq_ok.1 hl).2.2.1)

end Node

/-! ## Collections of one kind -/

/-- a value is no node, or a node of a kind or of a kind without a model -/
def Value.fits (k : Kind) : Value → Bool
  | .node n => n.kind?.all (· == k)
  | _ => true

theorem Value.kind_of_fits {k k' : Kind} {v : Value} (h : v.fits k = true) {n : Node} (hn : v.asNode = .ok n)
    (hk : n.kind? = some k') : k' = k := by
  cases v with
  | node m =>
    cases hn
    simpa [fits, hk] using h
  | _ => cases hn

namespace Node

def itemsFit (a : Attr) (k : Kind) (n : Node) : Bool :=
  match n.items a with
  | .ok vs => vs.all (Value.fits k)
  | .error _ => true

/-- the collections of a program whose values are visited without looking at their kinds, and the kinds they are for -/
def visitedCollections : List (Attr × Kind) :=
  [(.accounts, .account), (.pdas, .pda), (.definedTypes, .definedType)]

/-- what programs hold fits its place -/
def membersFit (n : Node) : Bool :=
  match n.programs with
  | .ok ps => ps.all fun p => visitedCollections.all fun c => p.itemsFit c.1 c.2
  | .error _ => true

theorem fits_of_membersFit {n p : Node} (h : n.membersFit = true) {ps : List Node} (hps : n.programs = .ok ps)
    (hp : p ∈ ps) {a : Attr} {k : Kind} (ha : (a, k) ∈ visitedCollections) {vs : List Value} (hvs : p.items a = .ok vs) :
    ∀ v ∈ vs, v.fits k = true := by
  unfold membersFit at h
  rw [hps] at h
  have hitems := List.all_eq_true.1 (List.all_eq_true.1 h p hp) (a, k) ha
  unfold itemsFit at hitems
  simp only [hvs] at hitems
  exact List.all_eq_true.1 hitems

/-- going over values that fit a kind comes to going over the nodes of the kind -/
theorem eachNode_ofKind {δ : Type} {f : Node → Except Fault (List δ)} {k : Kind} {vs : List Value} {dss : List (List δ)}
    (hvs : ∀ v ∈ vs, v.fits k = true) (hnone : ∀ n ds, n.kind? = none → f n = .ok ds → ds = [])
    (h : eachNode f vs = .ok dss) :
    ∃ ns nss, ofKind k vs = .ok ns ∧ List.Forall₂ (fun n ds => f n = .ok ds) ns nss ∧ dss.flatten = nss.flatten := by
  replace h := mapM_eq_ok.1 h
  induction h with
  | nil => exact ⟨[], [], rfl, .nil, rfl⟩
  | @cons v ds rest dss hv _ ih =>
    obtain ⟨ns, nss, hns, hnss, hflat⟩ := ih (fun w hw => hvs w (List.mem_cons_of_mem _ hw))
    obtain ⟨n, hn, hds⟩ := except_bind_ok.1 hv
    have hfits := hvs v List.mem_cons_self
    have hof : ofKind k (v :: rest) = .ok (if n.isKind k then n :: ns else ns) := by
      unfold ofKind
      rw [hn, hns]
      rfl
    rw [hof, List.flatten_cons, hflat]
    cases v with
    | node m =>
      cases hn
      cases hk : n.kind? with
      | none =>
        rw [hnone n ds hk hds, isKind, hk]
        exact ⟨ns, nss, rfl, hnss, rfl⟩
      | some k' =>
        have hkk : n.isKind k = true := beq_iff_eq.2 (Value.kind_of_fits hfits rfl hk ▸ hk)
        rw [hkk]
        exact ⟨n :: ns, ds :: nss, rfl, .cons hds hnss, rfl⟩
    | _ => cases hn

/-- a tree of two programs, in which one member has a kind without a model and one instruction has another in it -/
def escrowTree : Node :=
  .known .root (Node.fillSlots Kind.root.slots [
    (.program, .node (.known .program (Node.fillSlots Kind.program.slots [
      (.name, .text "escrow"),
      (.accounts, .tuple [
        .node (.unknown (.text "eventNode") []),
        .node (.known .account (Node.fillSlots Kind.account.slots [(.name, .text "vault")]))]),
      (.errors, .tuple [.node (.known .error (Node.fillSlots Kind.error.slots [
        (.name, .text "locked"), (.code, .int 1), (.message, .text "The vault is locked.")]))])]))),
    (.additionalPrograms, .tuple [.node (.known .program (Node.fillSlots Kind.program.slots [
      (.name, .text "ledger"),
      (.pdas, .tuple [.node (.known .pda (Node.fillSlots Kind.pda.slots [(.name, .text "entry")]))]),
      (.instructions, .tuple [.node (.known .instruction (Node.fillSlots Kind.instruction.slots [
        (.name, .text "record"),
        (.subInstructions, .tuple [
          .node (.known .instruction (Node.fillSlots Kind.instruction.slots [(.name, .text "record_all")]))])]))])]))])])

end Node

end InterfacePages

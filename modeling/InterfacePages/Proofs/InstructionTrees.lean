/-
In which order instructions are listed.

What the listing of a node goes into makes a tree, in which every node has a place: which nested node is taken at each
step. The full listing has one entry for each place of an instruction, in pre-order (`instructions_inPreorder`): an
instruction comes before what its sub-instructions come to, and that stands together (`infix_of_comesTo`). Leaving out
the instructions with sub-instructions is a choice made at each step and changes nothing else, so the listing of those
without any is the full one without the others, and both fail alike (`leafInstructions_eq_filter`).
-/
import InterfacePages.Proofs.StandIns
import InterfacePages.Proofs.StatelessVisits

namespace InterfacePages

namespace Node

/-! ## Places -/

/-- a node stands at a place in the tree of what the listing of a node goes into -/
inductive StandsAt : Node → List Nat → Node → Prop
  | here (n : Node) : StandsAt n [] n
  | inside {n m l : Node} {ms : List Node} {i : Nat} {place : List Nat} (hms : n.nested = .ok ms) (hm : ms[i]? = some m)
      (h : StandsAt m place l) : StandsAt n (i :: place) l

/-- the entries of a list of instructions: a place and the instruction there -/
abbrev Entry := List Nat × Node

/-- the places inside nested nodes, the first of which is the `i`-th, as places inside the node they are nested in -/
def entriesFrom (i : Nat) : List (List Entry) → List Entry
  | [] => []
  | es :: rest => es.map (fun e => (i :: e.1, e.2)) ++ entriesFrom (i + 1) rest

theorem map_entriesFrom (i : Nat) (ess : List (List Entry)) :
    (entriesFrom i ess).map Prod.snd = (ess.map (·.map Prod.snd)).flatten := by
  induction ess generalizing i with
  | nil => rfl
  | cons es rest ih => simp [entriesFrom, ih, Function.comp_def]

theorem mem_entriesFrom {i : Nat} {ess : List (List Entry)} {place : List Nat} {l : Node} :
    (place, l) ∈ entriesFrom i ess ↔
      ∃ j inner es, place = (i + j) :: inner ∧ ess[j]? = some es ∧ (inner, l) ∈ es := by
  induction ess generalizing i with
  | nil => simp [entriesFrom]
  | cons es rest ih =>
    rw [entriesFrom, List.mem_append, ih]
    constructor
    · rintro (h | ⟨j, inner, es', rfl, hes, h⟩)
      · obtain ⟨⟨inner, m⟩, hmem, heq⟩ := List.mem_map.1 h
        cases heq
        exact ⟨0, inner, es, rfl, rfl, hmem⟩
      · exact ⟨j + 1, inner, es', by rw [Nat.add_right_comm, Nat.add_assoc], hes, h⟩
    · rintro ⟨j, inner, es', rfl, hes, h⟩
      cases j with
      | zero =>
        cases hes
        exact .inl (List.mem_map.2 ⟨_, h, rfl⟩)
      | succ j => exact .inr ⟨j, inner, es', by rw [Nat.add_right_comm, Nat.add_assoc], hes, h⟩

/-- places inside nested nodes that are in order are in order inside the node -/
theorem entriesFrom_increasing {i : Nat} {ess : List (List Entry)}
    (h : ∀ es ∈ ess, (es.map Prod.fst).Pairwise (List.Lex (· < ·))) :
    ((entriesFrom i ess).map Prod.fst).Pairwise (List.Lex (· < ·)) := by
  induction ess generalizing i with
  | nil => exact .nil
  | cons es rest ih =>
    obtain ⟨hes, hrest⟩ := List.forall_mem_cons.1 h
    rw [entriesFrom, List.map_append, List.map_map, List.pairwise_append]
    refine ⟨?_, ih hrest, ?_⟩
    · rw [List.pairwise_map] at hes ⊢
      exact hes.imp fun hlt => .cons hlt
    · intro a ha b hb
      obtain ⟨e, _, rfl⟩ := List.mem_map.1 ha
      obtain ⟨⟨place, l⟩, hmem, rfl⟩ := List.mem_map.1 hb
      obtain ⟨j, inner, _, rfl, -, -⟩ := mem_entriesFrom.1 hmem
      exact .rel (show i < i + 1 + j by omega)

/-! ## Pre-order -/

/-- a list goes over the instructions of a node in pre-order: it has one entry for each place of an instruction, behind
those of the places around it and before those of the places after it -/
def InPreorder (n : Node) (ms : List Node) : Prop :=
  ∃ entries : List Entry, entries.map Prod.snd = ms ∧ (entries.map Prod.fst).Pairwise (List.Lex (· < ·)) ∧
    ∀ place l, (place, l) ∈ entries ↔ n.StandsAt place l ∧ l.isKind .instruction = true

/-- **One step of the full listing.** An instruction is listed before what its sub-instructions come to, and of a node
that is no instruction only what its listing goes into is listed. -/
theorem instructions_step {n : Node} {ms : List Node} : n.instructions = .ok ms ↔
    ∃ inner mss, n.nested = .ok inner ∧ inner.mapM instructions = .ok mss ∧
      ms = (if n.isKind .instruction then [n] else []) ++ mss.flatten := by
  obtain ⟨fuel, hf⟩ := Nat.exists_eq_add_one.2 n.height_pos
  have hlisted : n.instructions = instructionsUpTo false (fuel + 1) n := congrArg (instructionsUpTo false · n) hf
  have hlow : ∀ {inner}, n.nested = .ok inner → inner.mapM (instructionsUpTo false fuel) = inner.mapM instructions :=
    fun hinner => mapM_congr fun m hm => by
      have := LeadsTo.height_lt ⟨_, hinner, hm⟩
      exact instructionsUpTo_eq (by omega) (Nat.le_refl _)
  rw [hlisted]
  by_cases h : n.Single
  · rw [instructionsUpTo_single h, h.nested]
    constructor
    · intro hms
      cases hms
      exact ⟨[], [], rfl, rfl, by rw [if_pos h.1]; rfl⟩
    · rintro ⟨_, _, ⟨⟩, ⟨⟩, rfl⟩
      rw [if_pos h.1]
      rfl
  · rw [instructionsUpTo_nested h]
    refine exists_congr fun inner => exists_congr fun mss => and_congr_right fun hinner => ?_
    rw [hlow hinner, Bool.not_false, Bool.and_true]

theorem exists_at_of_forall₂ {α β : Type} {R : α → β → Prop} {xs : List α} {ys : List β} (h : List.Forall₂ R xs ys)
    {i : Nat} {x : α} (hx : xs[i]? = some x) : ∃ y, ys[i]? = some y ∧ R x y := by
  induction h generalizing i with
  | nil => cases hx
  | cons hxy _ ih =>
    cases i with
    | zero =>
      cases hx
      exact ⟨_, rfl, hxy⟩
    | succ i => exact ih hx

/-- **The full listing is in pre-order.** -/
theorem instructions_inPreorder {n : Node} {ms : List Node} (h : n.instructions = .ok ms) : n.InPreorder ms := by
  induction n using nested_induction generalizing ms with
  | h n ih =>
    obtain ⟨inner, mss, hinner, hmss, rfl⟩ := instructions_step.1 h
    -- each nested node has its entries, and the node has one at the front if it is an instruction
    obtain ⟨ess, rfl, hess⟩ := exists_forall₂ (mapM_eq_ok.1 hmss) fun m hm ms hms => ih m ⟨inner, hinner, hm⟩ hms
    let own : List Entry := if n.isKind .instruction then [([], n)] else []
    have hown : ∀ place l, (place, l) ∈ own ↔ place = [] ∧ l = n ∧ n.isKind .instruction = true := fun place l => by
      cases hn : n.isKind .instruction <;> simp [own, hn]
    refine ⟨own ++ entriesFrom 0 ess, ?_, ?_, fun place l => ?_⟩
    · rw [List.map_append, map_entriesFrom]
      cases hn : n.isKind .instruction <;> simp [own, hn]
    · rw [List.map_append, List.pairwise_append]
      refine ⟨by cases hn : n.isKind .instruction <;> simp [own, hn], entriesFrom_increasing fun es hes => ?_, ?_⟩
      · obtain ⟨m, _, hincreasing, _⟩ := exists_of_forall₂ hess hes
        exact hincreasing
      · intro a ha b hb
        obtain ⟨⟨place, l⟩, hmem, rfl⟩ := List.mem_map.1 ha
        obtain ⟨⟨place', l'⟩, hmem', rfl⟩ := List.mem_map.1 hb
        obtain ⟨rfl, -, -⟩ := (hown place l).1 hmem
        obtain ⟨j, below, _, rfl, -, -⟩ := mem_entriesFrom.1 hmem'
        exact .nil
    · rw [List.mem_append, hown, mem_entriesFrom]
      constructor
      · rintro (⟨rfl, rfl, hkind⟩ | ⟨j, below, es, rfl, hes, hmem⟩)
        · exact ⟨.here l, hkind⟩
        · obtain ⟨m, hm, -, hplaces⟩ := exists_at_of_forall₂ hess.flip hes
          obtain ⟨hat, hkind⟩ := (hplaces below l).1 hmem
          exact ⟨.inside hinner (by rwa [Nat.zero_add]) hat, hkind⟩
      · rintro ⟨hat, hkind⟩
        cases hat with
        | here => exact .inl ⟨rfl, rfl, hkind⟩
        | inside hinner' hm hat =>
          cases hinner.symm.trans hinner'
          obtain ⟨es, hes, -, hplaces⟩ := exists_at_of_forall₂ hess hm
          exact .inr ⟨_, _, es, by rw [Nat.zero_add], hes, (hplaces _ l).2 ⟨hat, hkind⟩⟩

/-! ## Trees inside trees -/

/-- what is listed for a node stands together in the listing of every node that comes to it -/
theorem infix_of_comesTo {n m : Node} (h : n.ComesTo m) {ms : List Node} (hms : n.instructions = .ok ms) :
    ∃ ls, m.instructions = .ok ls ∧ ls <:+: ms := by
  induction h with
  | refl => exact ⟨ms, hms, List.infix_rfl⟩
  | tail _ hnext ih =>
    obtain ⟨ls, hls, hinfix⟩ := ih
    obtain ⟨inner, hinner, hmem⟩ := hnext
    obtain ⟨inner', mss, hinner', hmss, rfl⟩ := instructions_step.1 hls
    cases hinner.symm.trans hinner'
    obtain ⟨ls, hls, hm⟩ := exists_of_forall₂ (mapM_eq_ok.1 hmss).flip hmem
    refine ⟨ls, hm, .trans ?_ hinfix⟩
    exact (List.infix_of_mem_flatten hls).trans (List.suffix_append _ _).isInfix

/-! ## Leaves -/

instance : DecidablePred Single := fun n =>
  decidable_of_iff (n.isKind .instruction = true ∧ (n.get .subInstructions).toOption.any (!·.isGiven) = true) <| by
    rw [any_toOption]
    simp only [Single, Bool.not_eq_true']

theorem listAll_filter {p : Node → Bool} {list list' : Node → Except Fault (List Node)}
    (h : ∀ m, list' m = do return (← list m).filter p) (vs : List Value) :
    listAll list' vs = do return (← listAll list vs).filter p := by
  induction vs with
  | nil => rfl
  | cons v rest ih =>
    simp only [listAll, ih, h, bind_assoc, pure_bind, List.filter_append]

theorem mapM_filter {ι : Type} {p : Node → Bool} {f f' : ι → Except Fault (List Node)}
    (h : ∀ i, f' i = do return (← f i).filter p) (is : List ι) :
    is.mapM f' = do return (← is.mapM f).map (List.filter p) := by
  induction is with
  | nil => rfl
  | cons i rest ih => simp only [List.mapM_cons, ih, h, bind_assoc, pure_bind, List.map_cons]

theorem instructionsUpTo_filter (fuel : Nat) (n : Node) :
    instructionsUpTo true fuel n = do return (← instructionsUpTo false fuel n).filter (Single ·) := by
  induction fuel generalizing n with
  | zero => rfl
  | succ fuel ih =>
    unfold instructionsUpTo
    split
    · next hn =>
      cases hsubs : n.get .subInstructions with
      | error e => rfl
      | ok subs =>
        have hsingle : n.Single ↔ subs.isGiven = false := by simp [Single, hn, hsubs]
        simp only [bind, Except.bind]
        cases hgiven : subs.isGiven with
        | false => simp [hsingle, hgiven, pure, Except.pure]
        | true =>
          cases hvs : subs.items with
          | error e => rfl
          | ok vs =>
            simp only [listAll_filter ih]
            cases listAll (instructionsUpTo false fuel) vs with
            | error e => rfl
            | ok ls => simp [hsingle, hgiven, bind, Except.bind, pure, Except.pure]
    · cases n.programs with
      | error e => rfl
      | ok ps =>
        have hps : ∀ p : Node, p.ownInstructionsUpTo true fuel = do
            return (← p.ownInstructionsUpTo false fuel).filter (Single ·) := fun p => by
          unfold ownInstructionsUpTo
          cases p.items .instructions with
          | error e => rfl
          | ok vs => exact listAll_filter ih vs
        change (ps.mapM (ownInstructionsUpTo true fuel) >>= _) = ps.mapM (ownInstructionsUpTo false fuel) >>= _ >>= _
        rw [mapM_filter hps]
        simp only [bind_assoc, pure_bind, ← List.filter_flatten]

/-- **The instructions without sub-instructions are those of the full listing, in its order.** -/
theorem leafInstructions_eq_filter (n : Node) :
    n.leafInstructions = do return (← n.instructions).filter (Single ·) := instructionsUpTo_filter n.height n

/-- both listings answer or both fail -/
theorem instructions_returns {n : Node} :
    (∃ ms, n.instructions = .ok ms) ↔ ∀ m, n.ComesTo m → ∃ inner, m.nested = .ok inner := by
  rw [← leafInstructions_returns, leafInstructions_eq_filter]
  constructor
  · rintro ⟨ms, hms⟩
    exact ⟨_, except_bind_ok.2 ⟨ms, hms, rfl⟩⟩
  · rintro ⟨ls, hls⟩
    obtain ⟨ms, hms, -⟩ := except_bind_ok.1 hls
    exact ⟨ms, hms⟩

/-! ## Roots -/

theorem instructions_program {p : Node} (hp : p.isKind .program = true) {fuel : Nat} (hf : p.height ≤ fuel + 1) :
    p.instructions = p.ownInstructionsUpTo false fuel := by
  obtain ⟨fuel', hf'⟩ := Nat.exists_eq_add_one.2 p.height_pos
  unfold instructions
  rw [hf', instructionsUpTo, not_instruction hp (by decide), programs_program hp,
    ownInstructionsUpTo_eq (show p.height ≤ fuel + 1 from hf) (show p.height ≤ fuel' + 1 by omega)]
  change (do return (← [p].mapM (ownInstructionsUpTo false fuel')).flatten) = _
  rw [List.mapM_cons, List.mapM_nil]
  cases p.ownInstructionsUpTo false fuel' with
  | error e => rfl
  | ok ls => exact congrArg Except.ok List.flatten_singleton

/-- a root lists what its programs list, one after another -/
theorem instructions_root {r : Node} (hr : r.isKind .root = true) :
    r.instructions = do return (← (← r.programs).mapM instructions).flatten := by
  obtain ⟨fuel, hf⟩ := Nat.exists_eq_add_one.2 r.height_pos
  have hlisted : r.instructions = instructionsUpTo false (fuel + 1) r := congrArg (instructionsUpTo false · r) hf
  rw [hlisted, instructionsUpTo, not_instruction hr (by decide)]
  refine bind_congr_ok fun ps hps => congrArg (· >>= _) (mapM_congr fun p hp => ?_)
  have hlow := height_of_programs hps p hp
  exact (instructions_program (isKind_of_programs hps p hp) (by omega)).symm

/-- **The two listings of instructions.** The listing of the instructions without sub-instructions is the full one
without the others, in the same order, and fails as it does; they answer exactly if all that the listing comes to can be
gone through. The full listing is in pre-order, with one entry for each place of an instruction, and each instruction
that it comes to stands directly before what its sub-instructions come to, one after another. That of a root is those of
its programs. -/
theorem listings_agree (n : Node) :
    (n.leafInstructions = do return (← n.instructions).filter (Single ·)) ∧
    ((∃ ms, n.instructions = .ok ms) ↔ ∀ m, n.ComesTo m → ∃ inner, m.nested = .ok inner) ∧
    (∀ ms, n.instructions = .ok ms → n.InPreorder ms ∧ ∀ i, n.ComesTo i → i.isKind .instruction = true →
      ∃ subs lss, i.nested = .ok subs ∧ subs.mapM instructions = .ok lss ∧ i :: lss.flatten <:+: ms) ∧
    (n.isKind .root = true → n.instructions = do return (← (← n.programs).mapM instructions).flatten) := by
  refine ⟨leafInstructions_eq_filter n, instructions_returns, fun ms hms => ⟨instructions_inPreorder hms, ?_⟩,
    instructions_root⟩
  intro i hi hkind
  obtain ⟨ls, hls, hinfix⟩ := infix_of_comesTo hi hms
  obtain ⟨subs, lss, hsubs, hlss, rfl⟩ := instructions_step.1 hls
  rw [if_pos hkind] at hinfix
  exact ⟨subs, lss, hsubs, hlss, hinfix⟩

/-- the swap is listed before its steps, and of those the one that is made of another before that -/
theorem swap_in_preorder : ∃ ms, (exchange swap).isKind .root = true ∧ (exchange swap).instructions = .ok ms ∧
    (exchange swap).InPreorder ms ∧ (exchange swap).ComesTo swap ∧ swap.isKind .instruction = true ∧ ms.length = 4 ∧
    (∃ subs lss, swap.nested = .ok subs ∧ subs.mapM instructions = .ok lss ∧ swap :: lss.flatten <:+: ms) ∧
    (exchange swap).leafInstructions = .ok (ms.filter (Single ·)) ∧
    ∃ ps mss, (exchange swap).programs = .ok ps ∧ ps.mapM instructions = .ok mss ∧ ms = mss.flatten := by
  obtain ⟨hleaves, -, hfull, hroot⟩ := listings_agree (exchange swap)
  obtain ⟨ms, hms, hlength⟩ : ∃ ms, (exchange swap).instructions = .ok ms ∧ ms.length = 4 := ⟨_, rfl, rfl⟩
  obtain ⟨hpre, hinside⟩ := hfull ms hms
  have hcomes : (exchange swap).ComesTo swap := .single (leadsTo_exchange swap)
  rw [hms] at hleaves
  have hprograms := hroot rfl
  rw [hms] at hprograms
  obtain ⟨ps, hps, hprograms⟩ := except_bind_ok.1 hprograms.symm
  obtain ⟨mss, hmss, hprograms⟩ := except_bind_ok.1 hprograms
  exact ⟨ms, rfl, hms, hpre, hcomes, rfl, hlength, hinside swap hcomes rfl, hleaves, ps, mss, hps, hmss,
    (Except.ok.inj hprograms).symm⟩

end Node

end InterfacePages

/-
Which faults the operations on a store can end with.

Before the system is asked about a path, the path's text has to have octets and no zero among them (`checkText_ok`).
Under a path that has been accepted, every operation fails only with an answer of the system: `reach_system`,
`makeFolders_system`, `writeFile_system`. Removing a folder fails only so under any path (`deleteFolder_system`),
because a path that is not accepted leads to nothing that could be removed.
-/
import Mathlib.Data.List.TakeWhile
import InterfacePages.Files.Store
import InterfacePages.Proofs.Action

namespace InterfacePages

namespace Files

/-! ## Accepted paths -/

/-- a code point that may stand in a path: not zero, and a surrogate only if it stands for an octet -/
def isAccepted (c : Nat) : Bool := c != 0 && (!Text.isSurrogate c || Text.isStray c)

/-- the system can be asked about a path -/
def Path.Accepted (p : Path) : Prop := ∀ c ∈ p.text, isAccepted c = true

theorem checkText_ok {t : Text} : (∃ n, Store.checkText t = .ok n) ↔ ∀ c ∈ t, isAccepted c = true := by
  unfold Store.checkText Text.encodeStray
  cases ht : t.dropWhile fun c => !Text.isSurrogate c || Text.isStray c with
  | cons c rest =>
    have hd : ¬ ∀ c ∈ t, (!Text.isSurrogate c || Text.isStray c) = true := by
      rw [← List.dropWhile_eq_nil_iff, ht]
      exact List.cons_ne_nil c rest
    refine ⟨fun ⟨n, hn⟩ => by simp at hn, fun h => absurd (fun c hc => ?_) hd⟩
    exact (Bool.and_eq_true_iff.1 (h c hc)).2
  | nil =>
    rw [List.dropWhile_eq_nil_iff] at ht
    by_cases h0 : t.contains 0
    · have hm : 0 ∈ t := List.contains_iff_mem.1 h0
      refine ⟨fun ⟨n, hn⟩ => by simp [hm] at hn, fun h => ?_⟩
      have := h 0 hm
      simp [isAccepted] at this
    · refine ⟨fun _ c hc => ?_, fun _ => ⟨_, if_neg h0⟩⟩
      have hne : c ≠ 0 := fun e => h0 (List.contains_iff_mem.2 (e ▸ hc))
      rw [isAccepted, Bool.and_eq_true_iff]
      exact ⟨bne_iff_ne.2 hne, ht c hc⟩

theorem joinWith_dropLast_begins (separator : Text) (pieces : List Text) :
    Text.joinWith separator pieces.dropLast <+: Text.joinWith separator pieces := by
  induction pieces with
  | nil => exact List.prefix_rfl
  | cons a rest ih =>
    match rest, ih with
    | [], _ => exact List.nil_prefix
    | [b], _ => exact List.prefix_append _ _
    | b :: c :: rest, ih =>
      simp only [List.dropLast_cons_cons, Text.joinWith] at ih ⊢
      exact (List.prefix_append_right_inj _).2 ((List.prefix_append_right_inj _).2 ih)

theorem Path.Accepted.parent {p : Path} (h : p.Accepted) : p.parent.Accepted := by
  intro c hc
  unfold Path.Accepted Path.text at h
  unfold Path.text Path.parent at hc
  simp only at h hc
  split at hc
  · have hpoint : Text.ofString "." = [46] := rfl
    rw [hpoint] at hc
    cases List.mem_singleton.1 hc
    rfl
  · next hne =>
    have hsub : c ∈ p.root.text ++ Text.joinWith "/" p.parts := by
      rcases List.mem_append.1 hc with hc | hc
      · exact List.mem_append_left _ hc
      · exact List.mem_append_right _ ((joinWith_dropLast_begins _ _).subset hc)
    split at h
    · next he => exact absurd hsub (by rw [List.isEmpty_iff.1 he]; exact List.not_mem_nil)
    · exact h c hsub

/-! ## Answers of the system -/

/-- every fault that an action ends with satisfies a condition -/
def FailsOnly {ρ : Type} (P : Fault → Prop) (act : Act Store ρ) : Prop :=
  ∀ s e s', act.perform s = (.error e, s') → P e

/-- an action fails only with answers of the system -/
def SystemOnly {ρ : Type} (act : Act Store ρ) : Prop :=
  ∀ s e s', act.perform s = (.error e, s') → e.family = .system

variable {ρ τ : Type} {P : Fault → Prop}

theorem FailsOnly.bind {act : Act Store ρ} {next : ρ → Act Store τ} (ha : FailsOnly P act)
    (hn : ∀ r, FailsOnly P (next r)) : FailsOnly P (act >>= next) := by
  intro s e s' h
  rcases Act.bind_eq_error.1 h with h | ⟨r, t, _, h⟩
  · exact ha s e s' h
  · exact hn r t e s' h

/-- a handler may pass on what it was given, and that came from the action -/
theorem FailsOnly.tryCatch {act : Act Store ρ} {handle : Fault → Act Store ρ} (ha : FailsOnly P act)
    (hh : ∀ e, P e → FailsOnly P (handle e)) : FailsOnly P (tryCatch act handle) := by
  intro s e s' h
  rw [Act.perform_tryCatch] at h
  rcases hs : act.perform s with ⟨e1 | r, s1⟩ <;> rw [hs] at h
  · exact hh e1 (ha s e1 s1 hs) s1 e s' h
  · cases h

theorem FailsOnly.throw {e : Fault} (he : P e) : FailsOnly P (throw e : Act Store ρ) := by
  intro s e' s' h
  cases h
  exact he

theorem FailsOnly.pure (r : ρ) : FailsOnly P (pure r : Act Store ρ) := by
  intro s e s' h
  cases h

theorem SystemOnly.bind {act : Act Store ρ} {next : ρ → Act Store τ} (ha : SystemOnly act)
    (hn : ∀ r, SystemOnly (next r)) : SystemOnly (act >>= next) :=
  FailsOnly.bind ha hn

theorem SystemOnly.pure (r : ρ) : SystemOnly (pure r : Act Store ρ) := FailsOnly.pure r

/-- the system answers about an accepted path, with a place or with a fault of its own -/
theorem reach_system {p : Path} (hp : p.Accepted) (s : Store) {e : Fault} (h : s.reach p = .error e) :
    e.family = .system := by
  obtain ⟨n, hn⟩ := checkText_ok.2 hp
  simp only [Store.reach, hn, bind, Except.bind] at h
  split at h
  · cases h; rfl
  · split at h
    · cases h
    · cases h; rfl

theorem look_system (s : Store) (p : Path) {e : Fault} (h : s.look p = .error e) : e.family = .system := by
  unfold Store.look at h
  split at h
  · cases h
  · cases h; rfl
  · cases h

theorem isFolder_system (s : Store) (p : Path) {e : Fault} (h : s.isFolder p = .error e) : e.family = .system := by
  unfold Store.isFolder at h
  cases hl : s.look p with
  | error e' => rw [hl] at h; cases h; exact look_system s p hl
  | ok found => rw [hl] at h; cases h

theorem makeFolder_system {p : Path} (hp : p.Accepted) : SystemOnly (makeFolder p) := by
  intro s e s' h
  simp only [makeFolder, Act.perform_ofOutcome] at h
  split at h
  · next hr => cases h; exact reach_system hp s hr
  · split at h <;> cases h
    rfl

theorem unlessFolder_failsOnly (hsystem : ∀ e, e.family = .system → P e) (p : Path) {e : Fault} (he : P e) :
    FailsOnly P (unlessFolder p e) := by
  intro s e' s' h
  unfold unlessFolder at h
  split at h
  · rcases Act.bind_eq_error.1 h with h | ⟨t, _, ht, h⟩
    · cases h
    · cases ht
      rcases Act.bind_eq_error.1 h with h | ⟨b, _, hb, h⟩
      · exact hsystem e' (isFolder_system _ p (Prod.mk.inj h).1)
      · split at h
        · exact FailsOnly.throw he _ _ _ h
        · cases h
  · exact FailsOnly.throw he s e' s' h

/-- making folders one inside the other ends with no other faults than making single folders does -/
theorem makeFoldersUpTo_failsOnly (hsystem : ∀ e, e.family = .system → P e) {Q : Path → Prop}
    (hparent : ∀ p, Q p → Q p.parent) (hmake : ∀ p, Q p → FailsOnly P (makeFolder p)) (fuel : Nat) {p : Path}
    (hp : Q p) : FailsOnly P (makeFoldersUpTo fuel p) := by
  induction fuel generalizing p with
  | zero => exact FailsOnly.throw (hsystem _ rfl)
  | succ fuel ih =>
    refine (hmake p hp).tryCatch fun e he => ?_
    split
    · split
      · exact FailsOnly.throw he
      · refine (ih (hparent p hp)).bind fun _ => (hmake p hp).tryCatch fun e' he' => ?_
        split
        · exact FailsOnly.throw he'
        · exact unlessFolder_failsOnly hsystem p he'
    · exact unlessFolder_failsOnly hsystem p he

theorem makeFolders_system {p : Path} (hp : p.Accepted) : SystemOnly (makeFolders p) :=
  makeFoldersUpTo_failsOnly (Q := Path.Accepted) (fun _ h => h) (fun _ => .parent) (fun _ => makeFolder_system) _ hp

theorem writeFile_system {p : Path} (hp : p.Accepted) (octets : List UInt8) : SystemOnly (writeFile p octets) := by
  intro s e s' h
  simp only [writeFile, Act.perform_ofOutcome] at h
  split at h
  · next hr => cases h; exact reach_system hp s hr
  · split at h <;> cases h
    rfl

theorem removeFolder_system {p : Path} (hp : p.Accepted) : SystemOnly (removeFolder p) := by
  intro s e s' h
  simp only [removeFolder, Act.perform_ofOutcome] at h
  split at h
  · cases h; rfl
  · split at h
    · next hr => cases h; exact reach_system hp s hr
    · split at h
      · cases h; rfl
      · split at h <;> cases h
        rfl

theorem accepted_of_reach {s : Store} {p : Path} {place : Place} (h : s.reach p = .ok place) : p.Accepted := by
  apply checkText_ok.1
  unfold Store.reach at h
  obtain ⟨n, hn, _⟩ := except_bind_ok.1 h
  exact ⟨n, hn⟩

theorem deleteFolder_system (p : Path) : SystemOnly (deleteFolder p) := by
  intro s e s' h
  unfold deleteFolder at h
  rcases Act.bind_eq_error.1 h with h | ⟨t, _, ht, h⟩
  · cases h
  cases ht
  rcases Act.bind_eq_error.1 h with h | ⟨found, _, hl, h⟩
  · exact look_system _ p (Prod.mk.inj h).1
  cases hl' : s.look p with
  | error e' => simp [hl'] at hl
  | ok found' =>
    simp only [Act.perform_ofExcept, hl', Prod.mk.injEq, Except.ok.injEq] at hl
    obtain ⟨rfl, rfl⟩ := hl
    match found' with
    | none => cases h
    | some (.file _) => cases h; rfl
    | some .folder =>
      have hp : p.Accepted := by
        unfold Store.look at hl'
        cases hr : s.reach p with
        | ok place => exact accepted_of_reach hr
        | error e' => rw [hr] at hl'; split at hl' <;> simp_all
      refine SystemOnly.bind ?_ (fun _ => SystemOnly.bind ?_ fun place => SystemOnly.bind ?_ fun _ => ?_) s e s' h
      · intro s e s' h; cases h
      · intro s e s' h; exact reach_system hp _ (Prod.mk.inj h).1
      · intro s e s' h; cases h
      · exact removeFolder_system hp

end Files

end InterfacePages

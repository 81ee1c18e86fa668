/-
What actions do to their state: one law for each way to build an action, and the inversion of a sequence.

`bind_eq_ok` and `bind_eq_error` take a finished sequence apart: it answered because both of its actions did, it failed
because the first one or, after it, the second one did.
-/
import Mathlib.Data.List.Forall2
import Mathlib.Data.List.Pairwise
import InterfacePages.Act

namespace InterfacePages

namespace Act

variable {σ ρ τ : Type}

@[simp]
theorem perform_get (s : σ) : (get : Act σ σ).perform s = (.ok s, s) := rfl

@[simp]
theorem perform_ofOutcome (f : σ → Except Fault ρ × σ) (s : σ) : (ofOutcome f).perform s = f s := rfl

@[simp]
theorem perform_ofExcept (r : Except Fault ρ) (s : σ) : (ofExcept r : Act σ ρ).perform s = (r, s) := rfl

@[simp]
theorem perform_change (f : σ → σ) (s : σ) : (change f).perform s = (.ok (), f s) := rfl

@[simp]
theorem perform_ensuring (act : Act σ ρ) (cleanUp : σ → σ) (s : σ) :
    (ensuring act cleanUp).perform s = ((act.perform s).1, cleanUp (act.perform s).2) := rfl

theorem perform_bind (act : Act σ ρ) (next : ρ → Act σ τ) (s : σ) :
    (act >>= next).perform s =
      match act.perform s with
      | (.ok r, s') => (next r).perform s'
      | (.error e, s') => (.error e, s') := by
  simp only [perform, ExceptT.run, bind, ExceptT.bind, ExceptT.mk, StateT.bind]
  rcases act s with ⟨e | r, s'⟩ <;> rfl

theorem perform_bind_ok {act : Act σ ρ} {r : ρ} {s s' : σ} (h : act.perform s = (.ok r, s')) (next : ρ → Act σ τ) :
    (act >>= next).perform s = (next r).perform s' := by
  rw [perform_bind, h]

theorem perform_bind_error {act : Act σ ρ} {e : Fault} {s s' : σ} (h : act.perform s = (.error e, s'))
    (next : ρ → Act σ τ) : (act >>= next).perform s = (.error e, s') := by
  rw [perform_bind, h]

theorem bind_eq_ok {act : Act σ ρ} {next : ρ → Act σ τ} {s t : σ} {x : τ} :
    (act >>= next).perform s = (.ok x, t) ↔
      ∃ r s', act.perform s = (.ok r, s') ∧ (next r).perform s' = (.ok x, t) := by
  rw [perform_bind]
  rcases act.perform s with ⟨e | r, s'⟩
  · simp
  · exact ⟨fun h => ⟨r, s', rfl, h⟩, fun ⟨_, _, h1, h2⟩ => by cases h1; exact h2⟩

theorem bind_eq_error {act : Act σ ρ} {next : ρ → Act σ τ} {s t : σ} {e : Fault} :
    (act >>= next).perform s = (.error e, t) ↔
      act.perform s = (.error e, t) ∨
        ∃ r s', act.perform s = (.ok r, s') ∧ (next r).perform s' = (.error e, t) := by
  rw [perform_bind]
  rcases act.perform s with ⟨e | r, s'⟩
  · simp
  · exact ⟨fun h => .inr ⟨r, s', rfl, h⟩, fun h => by
      rcases h with h1 | ⟨_, _, h1, h2⟩
      · cases h1
      · cases h1; exact h2⟩

theorem ofExcept_bind_eq_ok {x : Except Fault ρ} {next : ρ → Act σ τ} {s t : σ} {y : τ} :
    (ofExcept x >>= next).perform s = (.ok y, t) ↔ ∃ r, x = .ok r ∧ (next r).perform s = (.ok y, t) := by
  cases x with
  | ok r => exact ⟨fun h => ⟨r, rfl, h⟩, fun ⟨_, hr, h⟩ => by cases hr; exact h⟩
  | error e =>
    constructor
    · intro h
      cases h
    · rintro ⟨_, hr, _⟩
      cases hr

theorem ofExcept_bind (x : Except Fault ρ) (next : ρ → Except Fault τ) :
    (ofExcept (x >>= next) : Act σ τ) = ofExcept x >>= fun a => ofExcept (next a) := by
  cases x <;> rfl

theorem perform_tryCatch (act : Act σ ρ) (handle : Fault → Act σ ρ) (s : σ) :
    (tryCatch act handle).perform s =
      match act.perform s with
      | (.ok r, s') => (.ok r, s')
      | (.error e, s') => (handle e).perform s' := by
  simp only [tryCatch, tryCatchThe, MonadExceptOf.tryCatch, ExceptT.tryCatch, perform, ExceptT.run, ExceptT.mk, bind,
    StateT.bind]
  rcases act s with ⟨e | r, s'⟩ <;> rfl

/-! ## Frames -/

/-- whatever an action answers, the states before and after it are related -/
def Within (R : σ → σ → Prop) (act : Act σ ρ) : Prop := ∀ s r s', act.perform s = (r, s') → R s s'

variable {R : σ → σ → Prop}

theorem Within.bind (htrans : ∀ a b c, R a b → R b c → R a c) {act : Act σ ρ} {next : ρ → Act σ τ}
    (ha : Within R act) (hn : ∀ r, Within R (next r)) : Within R (act >>= next) := by
  intro s r s' h
  rw [perform_bind] at h
  rcases hs : act.perform s with ⟨e | x, t⟩ <;> rw [hs] at h
  · cases h
    exact ha s _ _ hs
  · exact htrans s t s' (ha s _ _ hs) (hn x t r s' h)

theorem Within.tryCatch (htrans : ∀ a b c, R a b → R b c → R a c) {act : Act σ ρ} {handle : Fault → Act σ ρ}
    (ha : Within R act) (hh : ∀ e, Within R (handle e)) : Within R (tryCatch act handle) := by
  intro s r s' h
  rw [perform_tryCatch] at h
  rcases hs : act.perform s with ⟨e | x, t⟩ <;> rw [hs] at h
  · exact htrans s t s' (ha s _ _ hs) (hh e t r s' h)
  · cases h
    exact ha s _ _ hs

end Act

/-! ## Outcomes -/

theorem except_bind_ok {ε ρ τ : Type} {act : Except ε ρ} {next : ρ → Except ε τ} {x : τ} :
    (act >>= next) = .ok x ↔ ∃ r, act = .ok r ∧ next r = .ok x := by
  cases act <;> simp [bind, Except.bind]

theorem exists_of_isOk {ε ρ : Type} {x : Except ε ρ} (h : x.isOk = true) : ∃ a, x = .ok a := by
  cases x with
  | ok a => exact ⟨a, rfl⟩
  | error e => cases h

theorem Act.exists_of_isOk {σ ρ : Type} (act : Act σ ρ) (s : σ) (h : (act.perform s).1.isOk = true) :
    ∃ a, act.perform s = (.ok a, (act.perform s).2) := by
  obtain ⟨a, ha⟩ := InterfacePages.exists_of_isOk h
  exact ⟨a, Prod.ext ha rfl⟩

theorem any_toOption {ε ρ : Type} {x : Except ε ρ} {p : ρ → Bool} :
    x.toOption.any p = true ↔ ∃ a, x = .ok a ∧ p a = true := by
  cases x with
  | ok a => exact ⟨fun h => ⟨a, rfl, h⟩, fun ⟨_, ha, h⟩ => Except.ok.inj ha ▸ h⟩
  | error e => exact ⟨fun h => (nomatch h), fun ⟨_, ha, _⟩ => nomatch ha⟩

/-- what an outcome answers, if it does, satisfies a condition -/
def Answers {ε ρ : Type} (P : ρ → Prop) (x : Except ε ρ) : Prop := ∀ a, x = .ok a → P a

namespace Answers

variable {ε ρ τ : Type} {P : ρ → Prop} {Q : τ → Prop}

theorem ok {a : ρ} (h : P a) : Answers P (.ok a : Except ε ρ) := fun _ ha => Except.ok.inj ha ▸ h

theorem bind {x : Except ε ρ} (h : Answers P x) {next : ρ → Except ε τ} (hn : ∀ a, P a → Answers Q (next a)) :
    Answers Q (x >>= next) := by
  intro b hb
  obtain ⟨a, ha, hb⟩ := except_bind_ok.1 hb
  exact hn a (h a ha) b hb

theorem after (x : Except ε ρ) {next : ρ → Except ε τ} (hn : ∀ a, Answers Q (next a)) : Answers Q (x >>= next) := by
  intro b hb
  obtain ⟨a, _, hb⟩ := except_bind_ok.1 hb
  exact hn a b hb

theorem mapM {ι : Type} {f : ι → Except ε ρ} (h : ∀ i, Answers P (f i)) (xs : List ι) :
    Answers (fun as => ∀ a ∈ as, P a) (xs.mapM f) := by
  induction xs with
  | nil => exact ok fun a ha => absurd ha List.not_mem_nil
  | cons i rest ih =>
    rw [List.mapM_cons]
    exact (h i).bind fun a ha => ih.bind fun as has => ok (List.forall_mem_cons.2 ⟨ha, has⟩)

end Answers

/-! ## Outcomes of a list -/

theorem mapM_eq_ok {ε ι ρ : Type} {f : ι → Except ε ρ} {xs : List ι} {ys : List ρ} :
    xs.mapM f = .ok ys ↔ List.Forall₂ (fun x y => f x = .ok y) xs ys := by
  induction xs generalizing ys with
  | nil => simp [pure, Except.pure, eq_comm]
  | cons x rest ih =>
    rw [List.mapM_cons, except_bind_ok]
    constructor
    · rintro ⟨y, hy, h⟩
      obtain ⟨ys', hys, h⟩ := except_bind_ok.1 h
      cases h
      exact .cons hy (ih.1 hys)
    · intro h
      cases h with
      | cons hy hrest => exact ⟨_, hy, except_bind_ok.2 ⟨_, ih.2 hrest, rfl⟩⟩

theorem exists_of_forall₂ {α β : Type} {R : α → β → Prop} {xs : List α} {ys : List β} (h : List.Forall₂ R xs ys)
    {y : β} (hy : y ∈ ys) : ∃ x ∈ xs, R x y := by
  induction h with
  | nil => cases hy
  | cons hxy hrest ih =>
    rcases List.mem_cons.1 hy with rfl | hy
    · exact ⟨_, List.mem_cons_self, hxy⟩
    · obtain ⟨x, hx, hr⟩ := ih hy
      exact ⟨x, List.mem_cons_of_mem _ hx, hr⟩

theorem pairwise_of_forall₂ {α β : Type} {R : α → β → Prop} {S : β → β → Prop} {xs : List α} {ys : List β}
    (h : List.Forall₂ R xs ys) (hs : ys.Pairwise S) : xs.Pairwise fun x x' => ∃ y y', R x y ∧ R x' y' ∧ S y y' := by
  induction h with
  | nil => exact .nil
  | cons hxy hrest ih =>
    rw [List.pairwise_cons] at hs
    refine .cons (fun x' hx' => ?_) (ih hs.2)
    obtain ⟨y', hy', hr⟩ := exists_of_forall₂ hrest.flip hx'
    exact ⟨_, y', hxy, hr, hs.1 y' hy'⟩

end InterfacePages

/-
How outcomes fail.

A sequence fails with the fault of its first part that fails (`except_bind_error`, `mapM_eq_error`). `FailsOnly` says of
all the faults an outcome can end with that they satisfy a condition; it goes through sequences and lists like `Answers`
does for what is answered.
-/
import InterfacePages.Proofs.Action

namespace InterfacePages

theorem except_bind_error {ε ρ τ : Type} {x : Except ε ρ} {next : ρ → Except ε τ} {e : ε} :
    (x >>= next) = .error e ↔ x = .error e ∨ ∃ r, x = .ok r ∧ next r = .error e := by
  cases x <;> simp [bind, Except.bind]

/-- a list fails with the first fault among its items -/
theorem mapM_eq_error {ε ι ρ : Type} {f : ι → Except ε ρ} {xs : List ι} {e : ε} :
    xs.mapM f = .error e ↔
      ∃ before x after, xs = before ++ x :: after ∧ (∀ y ∈ before, ∃ b, f y = .ok b) ∧ f x = .error e := by
  induction xs with
  | nil => simp [pure, Except.pure]
  | cons x rest ih =>
    rw [List.mapM_cons, except_bind_error]
    constructor
    · rintro (hx | ⟨b, hb, h⟩)
      · exact ⟨[], x, rest, rfl, fun y hy => absurd hy List.not_mem_nil, hx⟩
      · rcases except_bind_error.1 h with h | ⟨_, _, h⟩
        · obtain ⟨before, y, after, rfl, hbefore, hy⟩ := ih.1 h
          exact ⟨x :: before, y, after, rfl, List.forall_mem_cons.2 ⟨⟨b, hb⟩, hbefore⟩, hy⟩
        · cases h
    · rintro ⟨before, y, after, hxs, hbefore, hy⟩
      cases before with
      | nil =>
        cases hxs
        exact .inl hy
      | cons z before =>
        cases hxs
        obtain ⟨⟨b, hb⟩, hbefore⟩ := List.forall_mem_cons.1 hbefore
        exact .inr ⟨b, hb, except_bind_error.2 (.inl (ih.2 ⟨before, y, after, rfl, hbefore, hy⟩))⟩

theorem exists_ok_iff {ε ρ : Type} {x : Except ε ρ} : (∃ a, x = .ok a) ↔ ∀ e, x ≠ .error e := by
  cases x with
  | ok a => exact ⟨fun _ _ h => (nomatch h), fun _ => ⟨a, rfl⟩⟩
  | error e => exact ⟨fun ⟨_, h⟩ => (nomatch h), fun h => absurd rfl (h e)⟩

theorem mapM_returns {ε ι ρ : Type} {f : ι → Except ε ρ} {xs : List ι} :
    (∃ ys, xs.mapM f = .ok ys) ↔ ∀ x ∈ xs, ∃ y, f x = .ok y := by
  constructor
  · rintro ⟨ys, hys⟩ x hx
    obtain ⟨y, _, hy⟩ := exists_of_forall₂ (mapM_eq_ok.1 hys).flip hx
    exact ⟨y, hy⟩
  · intro h
    rw [exists_ok_iff]
    intro e he
    obtain ⟨before, x, after, rfl, _, hx⟩ := mapM_eq_error.1 he
    exact exists_ok_iff.1 (h x (List.mem_append_right _ List.mem_cons_self)) e hx

/-- what an outcome fails with, if it does, satisfies a condition -/
def FailsOnly {ε ρ : Type} (P : ε → Prop) (x : Except ε ρ) : Prop := ∀ e, x = .error e → P e

namespace FailsOnly

variable {ε ρ τ ι : Type} {P : ε → Prop}

theorem ok (a : ρ) : FailsOnly P (.ok a : Except ε ρ) := fun _ h => nomatch h

theorem error {e : ε} (h : P e) : FailsOnly P (.error e : Except ε ρ) := fun _ he => Except.error.inj he ▸ h

theorem bind {x : Except ε ρ} (h : FailsOnly P x) {next : ρ → Except ε τ}
    (hn : ∀ a, x = .ok a → FailsOnly P (next a)) : FailsOnly P (x >>= next) := by
  intro e he
  rcases except_bind_error.1 he with he | ⟨a, ha, he⟩
  · exact h e he
  · exact hn a ha e he

theorem throw {e : ε} (h : P e) {next : ρ → Except ε τ} : FailsOnly P (throw e >>= next) := error h

theorem ite {c : Prop} [Decidable c] {x y : Except ε ρ} (hx : FailsOnly P x) (hy : FailsOnly P y) :
    FailsOnly P (if c then x else y) := by
  split
  · exact hx
  · exact hy

theorem mapM {f : ι → Except ε ρ} {xs : List ι} (h : ∀ x ∈ xs, FailsOnly P (f x)) : FailsOnly P (xs.mapM f) := by
  intro e he
  obtain ⟨before, x, after, rfl, _, hx⟩ := mapM_eq_error.1 he
  exact h x (List.mem_append_right _ List.mem_cons_self) e hx

theorem imp {Q : ε → Prop} {x : Except ε ρ} (h : FailsOnly P x) (himp : ∀ e, P e → Q e) : FailsOnly Q x :=
  fun e he => himp e (h e he)

end FailsOnly

end InterfacePages

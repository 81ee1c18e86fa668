/-
Actions that read and change a state and may fail. A failure keeps the state reached, so what was recorded before it
stays recorded.

`Act.ensuring` runs a clean-up after either outcome.
-/
import InterfacePages.Fault

namespace InterfacePages

/-- an action on a state `σ` with an answer in `ρ` -/
abbrev Act (σ ρ : Type) := ExceptT Fault (StateM σ) ρ

namespace Act

variable {σ ρ : Type}

/-- the outcome of an action with the state it leaves -/
def perform (act : Act σ ρ) (s : σ) : Except Fault ρ × σ := act.run s

/-- an action made of its outcome and the state it leaves -/
def ofOutcome (f : σ → Except Fault ρ × σ) : Act σ ρ := ExceptT.mk f

/-- an outcome that does not depend on the state -/
def ofExcept (r : Except Fault ρ) : Act σ ρ := ofOutcome fun s => (r, s)

/-- changes the state -/
def change (f : σ → σ) : Act σ Unit := ofOutcome fun s => (.ok (), f s)

/-- runs an action and then changes the state, whether the action failed or not -/
def ensuring (act : Act σ ρ) (cleanUp : σ → σ) : Act σ ρ :=
  ofOutcome fun s =>
    let (r, s) := act.perform s
    (r, cleanUp s)

end Act

end InterfacePages

/-
Redirections of descriptors.

All targets are expanded before the first descriptor is moved. Descriptors are moved in order, so a later one sees what
an earlier one has done, and a failure keeps what went before until the command around puts the descriptors back.
-/
import InterfacePages.Bench.Shell.Expansion

namespace InterfacePages

namespace Bench

namespace Shell

/-- a redirection whose target is known: a path, another descriptor or none, or a document by its number -/
inductive Move where
  | path (descriptor : Nat) (kind : RedirectKind) (name : Octets)
  | copy (descriptor : Nat) (source : Option Nat)
  | document (descriptor number : Nat)
  deriving DecidableEq, Repr, Inhabited

namespace Move

/-- the descriptor that octets name as the source of a copy; a minus sign closes -/
def source (os : Octets) : Run (Option Nat) := do
  match os with
  | [45] => return none
  | [c] => if Octet.isDigit c then return some (c.toNat - 48) else Run.fail (.cannotRead .descriptor)
  | _ => Run.fail (.cannotRead .descriptor)

/-- a redirection after its target has been expanded -/
def of (capture : Command → Run Octets) : Redirect → Run Move
  | .named descriptor kind target => do
    let text ← Expansion.text capture .single target
    if kind = .copy then return .copy descriptor (← source text)
    return .path descriptor kind text
  | .document descriptor number => return .document descriptor number

/-- opens a path for a redirection; the answer is the number of the stream -/
def openPath (kind : RedirectKind) (name : Octets) : Run Nat := do
  let created (r : Except OsCause Nat) : Run Nat :=
    match r with
    | .ok number => return number
    | .error cause => Run.fail (.cannotCreate name cause)
  match kind with
  | .input =>
    match ← Run.openInput name with
    | .ok number => return number
    | .error cause => Run.fail (.cannotOpen name cause)
  | .both => created (← Run.openOutput name ⟨true, false, false⟩)
  | .append => created (← Run.openOutput name ⟨false, false, true⟩)
  | .output =>
    if ← Run.option 67 then
      match ← Run.locate name with
      | .ok (.entry _ (.file _)) => Run.fail (.cannotCreate name .exists)
      | _ => created (← Run.openOutput name ⟨false, true, false⟩)
    else created (← Run.openOutput name ⟨false, true, false⟩)
  | _ => created (← Run.openOutput name ⟨false, true, false⟩)

def apply (capture : Command → Run Octets) : Move → Run Unit
  | .path descriptor kind name => do Run.connect descriptor (← openPath kind name)
  | .copy descriptor none => Run.disconnect descriptor
  | .copy descriptor (some source) => do
    if descriptor = source then return
    match ← Run.stream? source with
    | none => Run.fail (.badDescriptor source)
    | some (number, _) => Run.connect descriptor number
  | .document descriptor number => do
    let body := ((← Run.shell).documents.find? fun d => d.number == number).map (·.body)
    let content ← Expansion.text capture .document (body.getD [])
    Run.connect descriptor (← Run.openStream (.source content))

end Move

namespace Run

/-- expands the targets of redirections -/
def moves (capture : Command → Run Octets) (redirects : List Redirect) : Run (List Move) :=
  redirects.mapM (Move.of capture)

/-- moves descriptors one after the other -/
def applyMoves (capture : Command → Run Octets) (moves : List Move) : Run Unit := moves.forM (Move.apply capture)

/-- moves descriptors; the answer says whether all could be moved -/
def moved (capture : Command → Run Octets) (moves : List Move) : Run Bool := do
  match ← outcome (applyMoves capture moves) with
  | .ok () => return true
  | .error .failed => return false
  | .error stop => throw stop

end Run

end Shell

end Bench

end InterfacePages

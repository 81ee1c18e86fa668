/-
Variables of a shell.

A name has at most one binding. A function that hides a variable remembers what it was in the innermost scope and puts
it back at its end.
-/
import InterfacePages.Bench.Shell.Machine

namespace InterfacePages

namespace Bench

namespace Shell

namespace Session

def binding? (s : Session) (name : Octets) : Option Binding := s.bindings.lookup name

/-- gives a name a binding, or none -/
def bind (s : Session) (name : Octets) (binding : Option Binding) : Session :=
  let others := s.bindings.filter fun e => e.1 ≠ name
  match binding with
  | none => { s with bindings := others }
  | some b => { s with bindings := (name, b) :: others }

def value? (s : Session) (name : Octets) : Option Octets := (s.binding? name).bind (·.value)

/-- the separators of words when nothing else is said -/
def usualSeparators : Octets := " \t\n"

def separators (s : Session) : Octets := (s.value? "IFS").getD usualSeparators

/-- the variables that tools see -/
def exported (s : Session) : List (Octets × Octets) :=
  s.bindings.filterMap fun e => if e.2.exported then e.2.value.map (e.1, ·) else none

/-- the variables that a shell starts with, beside those it is given -/
def initialVariables : List (Octets × Binding) := [
  ("IFS", ⟨some usualSeparators, false, false⟩), ("OPTIND", ⟨some "1", false, false⟩),
  ("PS1", ⟨some "# ", false, false⟩), ("PS2", ⟨some "> ", false, false⟩), ("PS4", ⟨some "+ ", false, false⟩)]

/-- the variables that a formatter is started with -/
def environment : List (Octets × Octets) :=
  [("HOME", "/root"), ("PATH", "/usr/local/sbin:/usr/local/bin:/usr/sbin:/usr/bin:/sbin:/bin")]

/-- a shell that starts: its process, title and parameters, what it is given as variables, where it is and what its
descriptors lead to -/
def start (process : Nat) (title : Octets) (parameters : List Octets) (given : List (Octets × Octets))
    (work : Files.Place) (descriptors : List (Nat × Nat)) : Session :=
  let fresh : Session := {
    process := process
    isInner := false
    title := title
    parameters := parameters
    bindings := initialVariables
    scopes := []
    functions := []
    options := []
    descriptors := descriptors
    work := work
    status := 0
    outputStatus := 0
    line := 0
    faultLine := 0
    functionLine := 0
    builtin := none
    loops := 0
    skip := .none
    skipCount := 0
    traps := []
    outerTraps := []
    buffer := []
    nextOption := (1, 0)
    documents := []
    nextDocument := 0
    aliases := []
    lastBackground := 0
    hashed := []
    calls := 0
    mask := 18
    statusBefore := none }
  given.foldl (fun s (name, value) => if name = ("IFS" : Octets) then s else s.bind name (some ⟨some value, true, false⟩))
    fresh

end Session

namespace Run

def value? (name : Octets) : Run (Option Octets) := do return (← shell).value? name

/-- changes the binding of a name, unless it is fixed -/
def rebind (name : Octets) (f : Option Binding → Option Binding) : Run Unit := do
  let before := (← shell).binding? name
  if (before.map (·.readOnly)).getD false then fail (.readOnly name)
  onShell fun s => s.bind name (f before)
  if name = ("OPTIND" : Octets) then onShell fun s => { s with nextOption := (1, 0) }
  if name = ("PATH" : Octets) then onShell fun s => { s with hashed := [] }

/-- gives a variable a value -/
def assign (name value : Octets) : Run Unit := do
  let all ← option 97
  rebind name fun before => some ⟨some value, all || (before.map (·.exported)).getD false, false⟩

/-- gives a variable that tools see a value -/
def assignExported (name value : Octets) : Run Unit := rebind name fun _ => some ⟨some value, true, false⟩

/-- takes a variable away -/
def unset (name : Octets) : Run Unit := rebind name fun _ => none

/-- remembers what a variable is, for the end of the innermost scope -/
def hide (name : Octets) : Run Unit :=
  onShell fun s =>
    match s.scopes with
    | [] => s
    | scope :: outer =>
      if scope.any fun e => e.1 = name then s
      else { s with scopes := ((name, s.binding? name) :: scope) :: outer }

def inScope {ρ : Type} (act : Run ρ) : Run ρ := do
  onShell fun s => { s with scopes := [] :: s.scopes }
  ensuring act <| onShell fun s =>
    match s.scopes with
    | [] => s
    | scope :: outer => scope.foldl (fun s e => s.bind e.1 e.2) { s with scopes := outer }

/-- the name and the value of an assignment -/
def splitAssignment (os : Octets) : Octets × Option Octets :=
  let name := os.takeWhile (· != 61)
  (name, if name.length < os.length then some (os.drop (name.length + 1)) else none)

end Run

end Shell

end Bench

end InterfacePages

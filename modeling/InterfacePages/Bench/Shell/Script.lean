/-
Scripts that run command by command.

Each complete command is read and run before the next one is read, so a fault further down does not undo what went
before. `Evaluator` is what runs commands; the parts of the shell that need it take it as an argument.
-/
import InterfacePages.Bench.Shell.Parser
import InterfacePages.Bench.Shell.Variables

namespace InterfacePages

namespace Bench

namespace Shell

/-- how a command runs: whether its status is looked at, and whether nothing comes after it -/
structure Manner where
  tested : Bool
  last : Bool
  deriving DecidableEq, Repr, Inhabited

/-- nothing is special about a command -/
def Manner.usual : Manner := ⟨false, false⟩

/-- what runs commands; the answer is the status -/
abbrev Evaluator := Manner → Command → Run Nat

inductive Ending where
  | status (n : Nat)
  | signal (n : Nat)
  deriving DecidableEq, Repr, Inhabited

def Ending.toStatus : Ending → Nat
  | status n => n
  | signal n => 128 + n

/-- the shell that a process inside a shell starts with -/
def Session.forked (s : Session) : Session :=
  let outer := if s.isInner then s.outerTraps else (s.process, s.traps) :: s.outerTraps
  { s with isInner := true, traps := s.traps.filter fun e => e.2.isEmpty, outerTraps := outer, buffer := [] }

namespace Run

def nextCommand (source : Source) : Run (Option Command × Source) := do
  let s ← shell
  let (read, left) := { source with nextDocument := s.nextDocument, aliases := s.aliases, documents := [] }.nextCommand
  onShell fun s => { s with nextDocument := left.nextDocument, documents := left.documents ++ s.documents }
  match read with
  | .ok command => return (command, left)
  | .error fault =>
    onShell fun s => { s with faultLine := left.line }
    fail (.cannotRead fault)

/-- runs the commands of a script that are left; `status` is that of the last one -/
def commandsFrom (evaluate : Evaluator) (manner : Manner) : Nat → Source → Nat → Run Nat
  | 0, _, status => return status
  | fuel + 1, source, status => do
    match ← nextCommand source with
    | (none, _) => return status
    | (some command, left) =>
      let isEnd := left.returned && left.last == .endOfFile
      let own ← evaluate { manner with last := manner.last && isEnd } command
      let status := match command with
        | .nothing => status
        | _ => own
      if (← shell).skip ≠ .none then return status
      commandsFrom evaluate manner fuel left status

def script (evaluate : Evaluator) (manner : Manner) (os : Octets) : Run Nat :=
  commandsFrom evaluate manner (os.length + 2) (Source.start os 1 0 []) 0

/-- nothing is left undone any longer because of `return` -/
def endReturn : Run Unit :=
  onShell fun s => if s.skip = .return_ then { s with skip := .none } else s

/-! ## Traps -/

/-- runs what is to be done for the signals that have come in -/
def traps (evaluate : Evaluator) : Run Unit := do
  let m ← get
  let s := m.shell
  if m.pending.isEmpty || s.isInner || s.skip ≠ .none then return
  let (own, others) := m.pending.partition fun e => e.1 == s.process
  set { m with pending := others }
  for (_, signal) in own do
    match (← shell).traps.lookup signal with
    | some action =>
      let s ← shell
      onShell fun s => { s with statusBefore := some (s.statusBefore.getD s.status) }
      let _ ← script evaluate .usual action
      onShell fun now => { now with statusBefore := s.statusBefore }
      if (← shell).skip ≠ .return_ then setStatus s.status
    | none => pure ()

/-- runs what is to be done at the end of a shell -/
def exitTrap (evaluate : Evaluator) : Run Unit := do
  let s ← shell
  match s.traps.lookup 0 with
  | none => return
  | some action =>
    onShell fun s =>
      { s with traps := s.traps.filter (·.1 ≠ 0), skip := .none, statusBefore := some s.status }
    match ← outcome (script evaluate .usual action) with
    | .ok _ => setStatus s.status
    | .error .failed => return
    | .error .ended => return
    | .error stop => throw stop

/-! ## Processes -/

/-- runs a process to its end; only a signal for another process goes beyond -/
def process (evaluate : Evaluator) (act : Run Unit) : Run Ending := do
  let body ← outcome act
  let finished ← match body with
    | .ok () => outcome (exitTrap evaluate)
    | .error .failed => outcome (exitTrap evaluate)
    | .error .ended => outcome (exitTrap evaluate)
    | .error stop => pure (.error stop)
  let s ← shell
  match finished with
  | .error (.killed number signal) =>
    if number = 0 ∨ (number = s.process ∧ !s.isInner) then return .signal signal
    throw (.killed number signal)
  | _ =>
    let _ ← flush
    return .status ((← shell).status % 256)

/-- runs an action with a copy of the shell and puts the shell back afterwards -/
def apart {ρ : Type} (act : Run ρ) : Run ρ := do
  let s ← shell
  ensuring act (onShell fun inner => { s with nextDocument := inner.nextDocument })

/-- runs an action as a process inside the shell -/
def inner (evaluate : Evaluator) (act : Run Unit) : Run Ending :=
  apart do
    modify fun m => { m with shell := m.shell.forked, processes := m.processes + 1 }
    process evaluate act

def signalWords (n : Nat) : Octets :=
  match n with
  | 1 => "Hangup"
  | 3 => "Quit"
  | 4 => "Illegal instruction"
  | 5 => "Trace/breakpoint trap"
  | 6 => "Aborted"
  | 7 => "Bus error"
  | 8 => "Floating point exception"
  | 9 => "Killed"
  | 10 => "User defined signal 1"
  | 11 => "Segmentation fault"
  | 12 => "User defined signal 2"
  | 14 => "Alarm clock"
  | 15 => "Terminated"
  | n => "Signal " ++ Octets.decimal n

/-- runs the commands that wait in the background; they have no input -/
def settle (evaluate : Evaluator) : Run Unit := do
  let jobs := (← get).jobs
  modify fun m => { m with jobs := [] }
  for job in jobs do
    let ending ← apart do
      onShell fun _ => job.shell
      process evaluate (do let _ ← evaluate ⟨false, true⟩ job.body)
    modify fun m => { m with done := (job.process, ending.toStatus) :: m.done }

/-- takes notice of the end of a process; the answer is the status it counts as -/
def noticed (ending : Ending) : Run Nat := do
  match ending with
  | .signal n => if n ≠ 2 && n ≠ 13 then let _ ← write 2 (signalWords n ++ [10])
  | .status _ => pure ()
  return ending.toStatus

end Run

end Shell

end Bench

end InterfacePages

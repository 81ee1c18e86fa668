/-
The builtin commands about processes and signals.

A signal takes effect at once: it ends the process it is for, or what has been set for it is done as soon as the
command is over.
-/
import InterfacePages.Bench.Shell.Builtin.State
import InterfacePages.Bench.Shell.Script

namespace InterfacePages

namespace Bench

namespace Shell

namespace Builtin

/-- the signals by name; the first stands for the end of the shell -/
def signalNames : List Octets := List.map (fun s => Octets.ofText (Text.ofString s)) [
  "EXIT", "HUP", "INT", "QUIT", "ILL", "TRAP", "ABRT", "BUS", "FPE", "KILL", "USR1", "SEGV", "USR2", "PIPE", "ALRM",
  "TERM", "STKFLT", "CHLD", "CONT", "STOP", "TSTP", "TTIN", "TTOU", "URG", "XCPU", "XFSZ", "VTALRM", "PROF", "WINCH",
  "IO", "PWR", "SYS", "32", "33", "RTMIN", "RTMIN+1", "RTMIN+2", "RTMIN+3", "RTMIN+4", "RTMIN+5", "RTMIN+6", "RTMIN+7",
  "RTMIN+8", "RTMIN+9", "RTMIN+10", "RTMIN+11", "RTMIN+12", "RTMIN+13", "RTMIN+14", "RTMIN+15", "RTMAX-14", "RTMAX-13",
  "RTMAX-12", "RTMAX-11", "RTMAX-10", "RTMAX-9", "RTMAX-8", "RTMAX-7", "RTMAX-6", "RTMAX-5", "RTMAX-4", "RTMAX-3",
  "RTMAX-2", "RTMAX-1", "RTMAX"]

def capitals (os : Octets) : Octets := os.map fun c => if Octet.isLower c then c - 32 else c

/-- the signal that a number or a name stands for, from `lowest` on -/
def signal? (lowest : Nat) (os : Octets) : Option Nat :=
  if !os.isEmpty && os.all Octet.isDigit then
    let n := Octets.valueIn 10 os
    if n < signalNames.length then some n else none
  else ((signalNames.drop lowest).idxOf? (capitals os)).map (· + lowest)

/-- a signal that nothing happens at unless something has been set for it -/
def isHarmless (signal : Nat) : Bool := [0, 17, 18, 23, 28].contains signal

/-- sends a signal to a process; the answer says whether there is such a process -/
def send (signal process : Nat) : Run Bool := do
  let s ← Run.shell
  let traps? :=
    if process = s.process ∧ !s.isInner then some s.traps else s.outerTraps.lookup process
  match traps? with
  | none => return false
  | some traps =>
    if signal = 0 then return true
    match if signal = 9 then none else traps.lookup signal with
    | some [] => return true
    | some _ =>
      modify fun m => { m with pending := m.pending ++ [(process, signal)] }
      return true
    | none =>
      if isHarmless signal then return true
      throw (.killed process signal)

/-- the words that explain `kill` -/
def killUsage : Complaint :=
  .usage "Usage: kill [-s sigspec | -signum | -sigspec] [pid | job]... or\nkill -l [exitstatus]"

/-- shows the names of signals -/
def listSignals : List Octets → Run Nat
  | [] => do
    line "0"
    for name in signalNames.drop 1 do line name
    return 0
  | arg :: _ => do
    let n ← number arg
    let n := if 128 < n then n - 128 else n
    if 0 < n ∧ n < signalNames.length then
      line (signalNames.getD n [])
      return 0
    Run.fail (.usage ("invalid signal number or exit status: " ++ arg))

def sendAll (signal : Nat) : List Octets → Nat → Run Nat
  | [], status => return status
  | arg :: rest, status => do
    let target ← match arg with
      | 45 :: digits => do
        let _ ← number digits
        pure none
      | 37 :: _ => Run.fail (.usage ("No such job: " ++ arg))
      | digits => do
        let n ← number digits
        pure (some n)
    let done ← match target with
      | some process => send signal process
      | none => pure false
    if !done then
      Run.complain (.usage "No such process\n")
      sendAll signal rest 1
    else sendAll signal rest status

/-- sends signals or shows their names -/
def kill : Operation := fun args => do
  match args with
  | [] => Run.fail killUsage
  | (45 :: spelled) :: rest =>
    match signal? 1 spelled with
    | some n => if rest.isEmpty then Run.fail killUsage else sendAll n rest 0
    | none =>
      let (found, rest) ← options "ls:" args
      let lists := found.any fun e => e.1 = 108
      let given := (found.filter fun e => e.1 = 115).getLast?
      let chosen ← match given with
        | none => pure none
        | some (_, spelled) =>
          match signal? 1 spelled with
          | some n => pure (some n)
          | none => Run.fail (.unknownSignal spelled)
      if lists then
        if chosen.isSome then Run.fail killUsage
        listSignals rest
      else if rest.isEmpty then Run.fail killUsage
      else sendAll (chosen.getD 15) rest 0
  | args => sendAll 15 args 0

/-- shows what has been set for signals -/
def showTraps : Run Nat := do
  let sorted := (← Run.shell).traps.mergeSort fun a b => decide (a.1 ≤ b.1)
  for (n, action) in sorted do line ("trap -- " ++ quoted action ++ " " ++ signalNames.getD n [])
  return 0

/-- sets what is to be done for signals -/
def setTraps (action : Option Octets) : List Octets → Run Nat
  | [] => return 0
  | spelled :: rest => do
    match signal? 0 spelled with
    | none =>
      let _ ← Run.write 2 ("trap: " ++ spelled ++ ": bad trap\n")
      return 1
    | some n =>
      Run.onShell fun s =>
        let others := s.traps.filter (·.1 ≠ n)
        match action with
        | none => { s with traps := others }
        | some action => { s with traps := (n, action) :: others }
      setTraps action rest

/-- shows or sets what is to be done for signals -/
def trap : Operation := fun args => do
  let (_, args) ← options [] args
  match args with
  | [] => showTraps
  | [spelled] => setTraps none [spelled]
  | first :: rest =>
    if !first.isEmpty && first.all Octet.isDigit && (signal? 0 first).isSome then setTraps none args
    else if first = [45] then setTraps none rest
    else setTraps (some first) rest

/-- waits for processes, all of which have ended -/
def wait : Operation := fun args => do
  let mut status := 0
  for arg in args do
    if arg.head? = some 37 then Run.fail (.usage ("No such job: " ++ arg))
    let n ← number arg
    status := ((← get).done.lookup n).getD 127
  return status

end Builtin

end Shell

end Bench

end InterfacePages

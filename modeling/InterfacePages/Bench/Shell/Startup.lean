/-
Shells that start.

A shell takes its script from an argument after `-c`, from a file, or from its input. What is left of the arguments
become its name and parameters. `Startup.run` is a shell as a tool.
-/
import InterfacePages.Bench.Shell.Builtin.State
import InterfacePages.Bench.Shell.Script
import InterfacePages.Bench.Tool.Quoting

namespace InterfacePages

namespace Bench

namespace Shell

namespace Startup

/-- where a script comes from, the name that the shell takes if it takes another one, and its parameters -/
structure Plan where
  script : Octets
  exits : Bool
  title : Option Octets
  parameters : List Octets
  deriving DecidableEq, Repr, Inhabited

/-- everything that can be read on the input; a fault counts as its end -/
def input : Run Octets := do
  match ← Run.readAll 0 with
  | .ok os => return os
  | .error _ => return []

/-- what a file holds; a fault counts as an empty one -/
def fileContent (name : Octets) : Run Octets := do
  match ← Run.openInput name with
  | .error cause => Run.fail (.cannotOpen name cause)
  | .ok number =>
    match (← get).streams[number]? with
    | none => return []
    | some stream =>
      match ← Run.readStream (← Run.left stream) number stream with
      | .ok os => return os
      | .error _ => return []

/-- reads the arguments of a shell -/
def plan (args : List Octets) : Run Plan := do
  let read ← Builtin.setOptions true (args.length + 1) false args
  let fromInput ← Run.option 115
  match read.hasScript, read.rest with
  | true, [] => Run.fail (.usage "-c requires an argument")
  | true, script :: [] => return ⟨script, !fromInput, none, []⟩
  | true, script :: title :: parameters => return ⟨script, !fromInput, some title, parameters⟩
  | false, [] =>
    Builtin.setOption true 115
    return ⟨← input, false, none, []⟩
  | false, title :: parameters =>
    if fromInput then return ⟨← input, false, none, title :: parameters⟩
    return ⟨← fileContent title, false, some title, parameters⟩

/-- runs what a shell has been started for -/
def perform (evaluate : Evaluator) (args : List Octets) : Run Unit := do
  let p ← plan args
  Run.onShell fun s => { s with title := p.title.getD s.title, parameters := p.parameters }
  let status ← Run.script evaluate ⟨false, p.exits⟩ p.script
  Run.setStatus status

def startedBy (outer : Session) (process : Nat) (called : Octets) : Session :=
  { Session.start process called [] outer.exported outer.work outer.descriptors with
    traps := outer.traps.filter fun e => e.1 ≠ 0 && e.2.isEmpty
    outerTraps := outer.forked.outerTraps
    mask := outer.mask }

/-- runs a shell as a process of its own -/
def run (evaluate : Evaluator) (called : Octets) (args : List Octets) : Run Ending :=
  Run.apart do
    modify fun m =>
      { m with shell := startedBy m.shell (m.processes + 1) called, processes := m.processes + 1 }
    Run.process evaluate (perform evaluate args)

end Startup

end Shell

end Bench

end InterfacePages

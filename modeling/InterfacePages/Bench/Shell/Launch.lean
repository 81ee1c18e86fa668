/-
Programs that are started.

`Launch.start` runs the tool that one of some paths leads to as a process of its own. A shell waits for the process, or
it is replaced by it: then the end of the process is its own end.
-/
import InterfacePages.Bench.Shell.Search
import InterfacePages.Bench.Shell.Startup
import InterfacePages.Bench.Tool.Cat
import InterfacePages.Bench.Tool.Print
import InterfacePages.Bench.Tool.Tr

namespace InterfacePages

namespace Bench

namespace Shell

namespace Launch

/-- the tool with a name, other than a shell -/
def tool? (name : Octets) : Option Tool :=
  if name = ("cat" : Octets) then some Cat.run
  else if name = ("echo" : Octets) then some Echo.run
  else if name = ("printf" : Octets) then some Print.run
  else if name = ("tr" : Octets) then some Tr.run
  else if name = ("true" : Octets) then some fun _ _ => return 0
  else if name = ("false" : Octets) then some fun _ _ => return 1
  else none

/-- runs a tool as a process of its own -/
def run (evaluate : Evaluator) (name called : Octets) (args : List Octets) : Run Ending :=
  match tool? name with
  | some tool => Run.apart do return .status (← tool called args)
  | none => Startup.run evaluate called args

/-- the status for something that cannot be started -/
def failureStatus (cause : OsCause) : Nat :=
  match cause with
  | .notFound => 127
  | .notADirectory => 127
  | .nameTooLong => 127
  | _ => 126

/-- starts the tool that the first of some paths leads to; why there is none is complained about -/
def start (evaluate : Evaluator) (paths : List Octets) (called : Octets) (args : List Octets) : Run (Except Nat Ending) := do
  match ← Search.firstTool .notFound paths with
  | .error cause =>
    Run.complain (.cannotStart called cause)
    return .error (failureStatus cause)
  | .ok name => return .ok (← run evaluate name called args)

/-- starts a tool and waits for its end; the answer is the status -/
def waitFor (evaluate : Evaluator) (paths : List Octets) (called : Octets) (args : List Octets) : Run Nat := do
  Run.settle evaluate
  match ← start evaluate paths called args with
  | .error status => return status
  | .ok ending => Run.noticed ending

/-- starts a tool in place of the shell -/
def replace (evaluate : Evaluator) (paths : List Octets) (called : Octets) (args : List Octets) : Run Nat := do
  match ← start evaluate paths called args with
  | .error status =>
    Run.setStatus status
    throw .ended
  | .ok (.status n) =>
    Run.onShell fun s => { s with status := n, traps := [] }
    throw .ended
  | .ok (.signal n) => throw (.killed 0 n)

end Launch

end Shell

end Bench

end InterfacePages

/-
What a name stands for as a command.

Functions go before builtin commands, and those before files in the folders of `PATH`. Special builtin commands differ
from the others: a fault in one ends the shell, and assignments before one stay.
-/
import InterfacePages.Bench.Shell.Parser
import InterfacePages.Bench.Shell.Variables

namespace InterfacePages

namespace Bench

namespace Shell

/-- what a name stands for as a command; a file comes with all paths it can be started by -/
inductive Found where
  | builtin (name : Octets)
  | function (line : Nat) (body : Command)
  | file (paths : List Octets)
  | unknown (cause : OsCause)

instance : Inhabited Found := ⟨.unknown .notFound⟩

namespace Search

/-- the builtin commands that are not special -/
def regularNames : List Octets := List.map (fun s => Octets.ofText (Text.ofString s)) [
  "[", "alias", "bg", "cd", "chdir", "command", "echo", "false", "fg", "getopts", "hash", "jobs", "kill", "printf",
  "pwd", "read", "test", "true", "type", "ulimit", "umask", "unalias", "wait"]

/-- a special builtin command -/
def isSpecial (name : Octets) : Bool := specialNames.contains name

def isBuiltin (name : Octets) : Bool := isSpecial name || regularNames.contains name

/-- the builtin commands whose arguments can be assignments -/
def assigns (name : Octets) : Bool := (["alias", "export", "local", "readonly"] : List Octets).contains name

/-- the folders that the value of `PATH` names -/
def folders (path : Octets) : List Octets := splitFrom [] path
where
  /-- splits at colons; `taken` is the part being read, last octet first -/
  splitFrom (taken : Octets) : Octets → List Octets
    | [] => [taken.reverse]
    | c :: rest => if c = 58 then taken.reverse :: splitFrom [] rest else splitFrom (c :: taken) rest

def memberPath (folder name : Octets) : Octets := if folder.isEmpty then name else folder ++ "/" ++ name

/-- looks for a file in folders; `cause` is why it has not been found so far -/
def inFolders (name : Octets) (cause : OsCause) : List Octets → Run Found
  | [] => return .unknown cause
  | folder :: rest => do
    let path := memberPath folder name
    match ← Run.locate path with
    | .error .notFound => inFolders name cause rest
    | .error .notADirectory => inFolders name cause rest
    | .error cause => inFolders name cause rest
    | .ok (.free _) => inFolders name cause rest
    | .ok (.tool _) => return .file (path :: rest.map (memberPath · name))
    | .ok _ => inFolders name .permissionDenied rest

def file (path name : Octets) : Run Found := do
  if name.contains 47 then return .file [name]
  let found ← inFolders name .notFound (folders path)
  match found with
  | .file (first :: _) =>
    Run.onShell fun s => { s with hashed := (name, first) :: s.hashed.filter (·.1 ≠ name) }
  | _ => pure ()
  return found

/-- the folders of files for commands -/
def searchPath : Run Octets := do return (← Run.value? "PATH").getD []

/-- where commands are looked for when nothing else counts -/
def usualPath : Octets := "/usr/local/sbin:/usr/local/bin:/usr/sbin:/usr/bin:/sbin:/bin"

def inShell? (functions : Bool) (name : Octets) : Run (Option Found) := do
  let builtin := if isBuiltin name then some (Found.builtin name) else none
  if name.contains 47 then return none
  match (← Run.shell).functions.lookup name with
  | some (line, body) => return if functions then some (.function line body) else builtin
  | none => return builtin

def command (functions : Bool) (path name : Octets) : Run Found := do
  match ← inShell? functions name with
  | some found => return found
  | none => file path name

/-- the tool that a path leads to, or why there is none -/
def tool? (path : Octets) : Run (Except OsCause Octets) := do
  match ← Run.locate path with
  | .error cause => return .error cause
  | .ok (.free _) => return .error .notFound
  | .ok (.tool name) => return .ok name
  | .ok _ => return .error .permissionDenied

/-- the tool that the first path with one leads to, or why there is none -/
def firstTool (cause : OsCause) : List Octets → Run (Except OsCause Octets)
  | [] => return .error cause
  | path :: rest => do
    match ← tool? path with
    | .ok name => return .ok name
    | .error .notFound => firstTool cause rest
    | .error .notADirectory => firstTool cause rest
    | .error cause => firstTool cause rest

end Search

end Shell

end Bench

end InterfacePages

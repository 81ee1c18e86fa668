/-
The builtin commands that tell what names stand for.

A name is a keyword, an alias, a function, a builtin command or a file, in this order. A file that has been found
before is said to be tracked.
-/
import InterfacePages.Bench.Shell.Builtin.State
import InterfacePages.Bench.Shell.Search

namespace InterfacePages

namespace Bench

namespace Shell

namespace Builtin

/-- tells what a name stands for; `wordy` says it in words -/
def describe (path : Octets) (wordy : Bool) (name : Octets) : Run Nat := do
  let say (words brief : Octets) : Run Nat := do
    line (if wordy then name ++ words else brief)
    return 0
  let unknown : Run Nat := do
    if wordy then line (name ++ ": not found")
    return 127
  if (Keyword.ofOctets? name).isSome then say " is a shell keyword" name
  else
    let s ← Run.shell
    match s.aliases.lookup name with
    | some value => say (" is an alias for " ++ value) ("alias " ++ name ++ "=" ++ quoted value)
    | none =>
      match ← Search.inShell? true name with
      | some (.function _ _) => say " is a shell function" name
      | some (.builtin _) => say (if Search.isSpecial name then " is a special shell builtin" else " is a shell builtin") name
      | _ =>
        if name.contains 47 then
          match ← Run.locate name with
          | .error _ => unknown
          | .ok (.free _) => unknown
          | .ok _ => say (" is " ++ name) name
        else
          match s.hashed.lookup name, ← Search.inFolders name .notFound (Search.folders path) with
          | some found, _ => say (" is a tracked alias for " ++ found) found
          | none, .file (found :: _) => say (" is " ++ found) found
          | none, _ => unknown

/-- tells what names stand for; the status is that of those that stand for nothing -/
def type : Operation := fun names => do
  let path ← Search.searchPath
  let mut status := 0
  for name in names do
    if (← describe path true name) ≠ 0 then status := 127
  return status

/-- tells what the first name stands for if it is asked to -/
def command : Operation := fun args => do
  let (found, names) ← options "pvV" args
  let has (c : UInt8) : Bool := found.any fun e => e.1 = c
  match names with
  | [] => return 0
  | name :: _ =>
    if !has 118 && !has 86 then return 0
    let path ← if has 112 then pure Search.usualPath else Search.searchPath
    describe path (has 86) name

/-- shows or forgets the files that have been found for names -/
def hash : Operation := fun args => do
  let (found, names) ← options "r" args
  if !found.isEmpty then
    Run.onShell fun s => { s with hashed := [] }
    return 0
  if names.isEmpty then
    for (_, path) in (← Run.shell).hashed do line path
    return 0
  let path ← Search.searchPath
  let mut status := 0
  for name in names do
    match ← Search.command true path name with
    | .unknown _ =>
      Run.complain (.unknownCommand name)
      status := 1
    | _ => pure ()
  return status

end Builtin

end Shell

end Bench

end InterfacePages

/-
The report on a finished run: what was generated from which tree, how large the tree is and which files were written.

Columns are padded so that numbers stand below each other; line counts have a comma before every group of three
digits.
-/
import InterfacePages.Node.Tree

namespace InterfacePages

namespace Node

/-- the size of an interface tree; instructions with sub-instructions do not count -/
structure Counts where
  programs : Int
  accounts : Int
  instructions : Int
  pdas : Int
  definedTypes : Int
  errors : Int
  deriving DecidableEq, Repr

def counts (n : Node) : Except Fault Counts := do
  let programs ← n.programs
  let accounts ← n.accounts
  let instructions ← n.leafInstructions
  let pdas ← n.pdas
  let definedTypes ← n.definedTypes
  let errors ← n.errors
  return ⟨programs.length, accounts.length, instructions.length, pdas.length, definedTypes.length, errors.length⟩

end Node

/-- a written file: its path below the output folder and how many lines it has -/
structure FileReport where
  name : Text
  lines : Int
  deriving DecidableEq, Repr

structure Summary where
  command : Text
  program : Text
  source : Text
  output : Text
  counts : Node.Counts
  files : List FileReport
  deriving DecidableEq, Repr

namespace Summary

def commandLabels : List (Text × Text) := [("docs", "Documentation"), ("hooks", "React hooks")]

/-- the name and the version of the main program -/
def programLabel (root : Node) : Except Fault Text := do
  let name ← (← (← root.get .program).asNode).get .name
  let version ← (← (← root.get .program).asNode).get .version
  return name.display ++ " " ++ version.display

/-- what a command did with a tree -/
def ofRun (command : Text) (root : Node) (source output : Text) (files : List FileReport) : Except Fault Summary := do
  let program ← programLabel root
  return ⟨(commandLabels.lookup command).getD command, program, source, output, ← root.counts, files⟩

def countLine (label : Text) (count : Int) : Text :=
  "    " ++ Text.padEnd 14 label ++ Text.padStart 6 (Number.integer count)

def fileLine (width : Nat) (f : FileReport) : Text :=
  "    " ++ Text.padEnd width f.name ++ "  " ++ Text.padStart 6 (Number.grouped f.lines) ++ " lines"

def nameWidth (files : List FileReport) : Nat := (files.map (·.name.length)).foldl max 0

def totalLines (files : List FileReport) : Int := (files.map (·.lines)).foldr (· + ·) 0

/-- the report, which ends with a line feed -/
def text (s : Summary) : Text := Text.joinLines (List.flatten [
  [ s.command ++ " generated:",
    "",
    "  Program:    " ++ s.program,
    "  Source:     " ++ s.source,
    "  Output:     " ++ s.output,
    "",
    "  Interface:",
    countLine "Programs:" s.counts.programs,
    countLine "Accounts:" s.counts.accounts,
    countLine "Instructions:" s.counts.instructions,
    countLine "PDAs:" s.counts.pdas,
    countLine "Types:" s.counts.definedTypes,
    countLine "Errors:" s.counts.errors,
    "",
    "  Files written:"],
  s.files.map (fileLine (nameWidth s.files)),
  [ "",
    "  Total: " ++ Number.grouped (totalLines s.files) ++ " lines across " ++ Number.decimal s.files.length ++ " files",
    ""]])

end Summary

end InterfacePages

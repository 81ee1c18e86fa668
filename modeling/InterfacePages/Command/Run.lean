/-
A run of the program: from a command line to generated files and what is printed on the way.

A run reads the tree, makes the pages, emits them and reports. Nothing is written before all pages are made. A fault
of the settings or of the tree is explained with a hint, one of the system, of the formatter or of a value is printed,
and each of these ends the run with status 1; any other fault escapes.
-/
import InterfacePages.Command.Settings
import InterfacePages.Node.Decode
import InterfacePages.Summary

namespace InterfacePages

namespace Command

/-- the files, and what has been printed, last line first -/
structure Session where
  store : Files.Store
  printed : List Text
  deriving Repr

namespace Session

/-- everything printed so far -/
def console (s : Session) : Text := s.printed.reverse.flatten

def print (t : Text) : Act Session Unit := Act.change fun s => { s with printed := t :: s.printed }

def printLine (t : Text) : Act Session Unit := print (t ++ "\n")

def onStore {ρ : Type} (act : Act Files.Store ρ) : Act Session ρ :=
  Act.ofOutcome fun s =>
    let (r, store) := act.perform s.store
    (r, { s with store })

end Session

/-- emits pages that have been made into a folder below a package -/
def render (programs : Formatter.Programs) (pages : Except Fault PageMap) (package : Files.Path) (folder : Text)
    (options : Files.EmitOptions) : Act Files.Store Files.Emitted := do
  let pages ← Act.ofExcept pages
  Files.emit programs options (← Act.ofExcept (Files.Path.generatedFolder package folder)) pages

/-- the interface tree in a file -/
def readTree (store : Files.Store) (path : Files.Path) : Except Fault Node := do
  let t ← Formatter.decoded (← store.read path)
  match Node.rootOfText t with
  | .error (.invalidNode cause) =>
    throw (configFault .invalidTree ("Invalid interface tree in " ++ path.text ++ ": " ++ cause.message)
      "Pass a JSON rootNode or programNode.")
  | other => other

def programNames (root : Node) : Except Fault Text := do
  return Text.joinWith ", " (← (← (← root.programs).mapM (·.get .name)).mapM Value.asText)

/-- performs the stages of a run -/
def perform (programs : Formatter.Programs) (settings : Settings) : Act Session Unit := do
  Session.printLine ("Parsing: " ++ settings.source.text)
  let root ← Act.ofExcept (readTree (← get).store settings.source)
  Session.printLine ("  Programs: " ++ (← Act.ofExcept (programNames root)))
  let pages ← Act.ofExcept (settings.pages root)
  Session.printLine ("  Rendered: " ++ Number.decimal pages.size ++ " files")
  match settings.formatter.join with
  | some command => if !command.isEmpty then Session.printLine ("  Formatting with: " ++ command)
  | none => pure ()
  let emitted ← Session.onStore (Files.emit programs settings.emission (← Act.ofExcept settings.target) pages)
  Session.printLine ("  Written: " ++ Number.decimal emitted.files.length ++ " files, " ++
    Number.decimal emitted.totalLines ++ " lines to " ++ emitted.folder.text)
  let files := emitted.files.map fun f => FileReport.mk f.name f.lines
  let summary ← Act.ofExcept
    (Summary.ofRun settings.command.label root settings.source.text emitted.folder.text files)
  Session.print summary.text

inductive Ending where
  | done
  | exit (status : Nat)
  | escaped (fault : Fault)
  deriving Repr

/-- prints what a fault has to say, and tells how the run ends -/
def explain (fault : Fault) : Act Session Ending := do
  match fault with
  | .config cause =>
    Session.printLine ("Config error [" ++ cause.code.label ++ "]: " ++ cause.message)
    match cause.suggestion with
    | some t => if !t.isEmpty then Session.printLine ("Hint: " ++ t)
    | none => pure ()
    return .exit 1
  | fault =>
    match fault.family with
    | .system => Session.printLine ("Error: " ++ fault.message); return .exit 1
    | .formatter => Session.printLine ("Error: " ++ fault.message); return .exit 1
    | .work => Session.printLine ("Internal error: " ++ fault.message); return .exit 1
    | .value => Session.printLine ("Internal error: " ++ fault.message); return .exit 1
    | _ => return .escaped fault

/-- explains a fault of the settings; any other fault escapes -/
def explainSettings (fault : Fault) : Act Session Ending :=
  match fault.family with
  | .settings => explain fault
  | _ => return .escaped fault

/-- what a command line comes to as settings: those of a run, or how the run ends without one -/
def settingsOf (store : Files.Store) (arguments : List Text) : Except Fault (Settings ⊕ Nat) :=
  match parse arguments with
  | .help => .ok (.inr 0)
  | .rejected => .ok (.inr 2)
  | .command kind given => (Settings.check store kind given).map .inl

def run (programs : Formatter.Programs) (arguments : List Text) : Act Session Ending := do
  match settingsOf (← get).store arguments with
  | .error fault => explainSettings fault
  | .ok (.inr status) => return .exit status
  | .ok (.inl settings) =>
    tryCatch (do perform programs settings; return .done) explain

/-- a run on some files: how it ends, the files it leaves and what it prints -/
def runOn (programs : Formatter.Programs) (store : Files.Store) (arguments : List Text) :
    Ending × Files.Store × Text :=
  let (r, s) := (run programs arguments).perform ⟨store, []⟩
  let ending := match r with
    | .ok ending => ending
    | .error fault => .escaped fault
  (ending, s.store, s.console)

end Command

end InterfacePages

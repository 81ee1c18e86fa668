/-
The settings of a run.

Settings come from the options of a command line after they have been checked: first the tree, then the patterns for
names in the order they were given, then the folder, then the strategy. A pattern is tried on a sample name, so that
one which cannot be filled in is found before anything is generated.
-/
import InterfacePages.Command.Arguments
import InterfacePages.Docs.Pages
import InterfacePages.Files.Emission
import InterfacePages.Hooks.Pages
import InterfacePages.Name.Pattern

namespace InterfacePages

namespace Command

/-- what a run is to do; a package or client without a text is shown as an empty list, and nothing can be imported
from it -/
structure Settings where
  command : Kind
  source : Files.Path
  output : Files.Path
  folder : Text
  package : Chosen
  client : Chosen
  strategy : Strategy
  patterns : List (Text × Text)
  clear : Bool
  formatter : Option Chosen
  deriving DecidableEq, Repr

def configFault (code : ConfigCode) (message suggestion : Text) : Fault :=
  .config ⟨code, message, some suggestion⟩

/-- the roles that a command has names for -/
def roles : Kind → List Role
  | .docs => Role.client
  | .hooks => Role.all

/-- the path of the tree, which has to be a file -/
def checkSource (store : Files.Store) (given : Option Chosen) : Except Fault Files.Path := do
  match given with
  | none =>
    throw (configFault .missingTree "--idl is required: no interface tree provided."
      "Pass the JSON interface tree: --idl path/to/idl.json")
  | some none => throw .missingAttribute
  | some (some t) =>
    let path := Files.Path.ofText t
    if ← store.isFile path then return path
    throw (configFault .pathNotFound ("Path for --idl does not exist: " ++ path.text)
      "Provide an existing JSON file for this flag.")

/-- the folder of generated files, which has to lie below the package -/
def checkFolder (output : Files.Path) (folder : Text) : Except Fault Text :=
  match Files.Path.generatedFolder output folder with
  | .ok _ => .ok folder
  | .error _ =>
    .error (configFault .invalidGeneratedFolder
      ("--generated-folder must name a subfolder of --output-dir: " ++ Text.quoted folder)
      "The folder is cleared before rendering. Use e.g. --generated-folder docs")

def checkStrategy (label : Text) : Except Fault Strategy :=
  match Strategy.ofLabel label with
  | .ok strategy => .ok strategy
  | .error _ =>
    .error (configFault .invalidStrategy ("Unknown module resolution strategy: " ++ label)
      ("Use one of: " ++ Text.joinWith ", " (Strategy.all.map (·.label)) ++ "."))

/-- the name that patterns are tried on -/
def sampleName : Text := "sample"

/-- what is said about a pattern that cannot be filled in; faults of other families are passed on -/
def patternFault (role pattern : Text) (fault : Fault) : Fault :=
  match fault.family with
  | .type => fault
  | .limit => fault
  | .work => fault
  | _ =>
    configFault .invalidNameOverride
      ("Invalid template for " ++ role ++ ": " ++ Text.quoted pattern ++ " (" ++ fault.message ++ ")")
      ("Available fields: \x7bname\x7d, \x7bcamelCase\x7d, \x7bpascalCase\x7d, \x7bsnakeCase\x7d, " ++
        "\x7bkebabCase\x7d, \x7btitleCase\x7d, \x7bcapitalize\x7d.")

/-- tries a pattern on the sample name -/
def tryPattern (role pattern : Text) : Except Fault Unit :=
  match Name.Pattern.fill pattern sampleName with
  | .ok _ => .ok ()
  | .error fault => .error (patternFault role pattern fault)

/-- the role and the pattern that a text gives, split at the first equals sign -/
def splitOverride (raw : Text) : Except Fault (Text × Text) :=
  match Text.cut? 61 raw with
  | some (role, pattern) =>
    if (Text.strip role).isEmpty || pattern.isEmpty then .error malformed else .ok (Text.strip role, pattern)
  | none => .error malformed
where
  /-- what is said about a text that gives no role and pattern -/
  malformed : Fault :=
    configFault .invalidNameOverride ("Invalid --name value: " ++ Text.quoted raw)
      "Use ROLE=TEMPLATE, for example --name accountHook=use\x7bpascalCase\x7dAccount"

/-- reads a pattern for a name of a command -/
def checkOverride (kind : Kind) (raw : Text) : Except Fault (Text × Text) := do
  let (role, pattern) ← splitOverride raw
  let labels := (roles kind).map (·.label)
  if !labels.contains role then
    throw (configFault .unknownNameRole ("Unknown name role for " ++ kind.label ++ ": " ++ role)
      ("Known roles: " ++ Text.joinWith ", " (Text.sorted labels) ++ "."))
  tryPattern role pattern
  return (role, pattern)

/-- the folder of a command, unless another is given -/
def standardFolder : Kind → Text
  | .docs => Docs.standardFolder
  | .hooks => Hooks.standardFolder

/-- a value that counts as given, or another -/
def givenOr (value : Option Chosen) (other : Text) : Text :=
  match value.join with
  | some t => if t.isEmpty then other else t
  | none => other

/-- the folder that holds everything, when the option has a value -/
def checkOutput (output : Chosen) (folder : Text) : Except Fault (Files.Path × Text) := do
  match output with
  | some t =>
    let path := Files.Path.ofText t
    return (path, ← checkFolder path folder)
  | none =>
    let _ ← checkFolder (Files.Path.ofText ".") folder
    throw .wrongType

/-- reads a pattern for a name of a command, when the option has a value -/
def checkName (kind : Kind) (name : Chosen) : Except Fault (Text × Text) :=
  match name with
  | some raw => checkOverride kind raw
  | none => .error .missingAttribute

/-- how a missing text is shown -/
def noText : Text := "[]"

def Settings.check (store : Files.Store) (kind : Kind) (given : Given) : Except Fault Settings := do
  let source ← checkSource store (given.last? .idl)
  let patterns ← (given.all .name).mapM (checkName kind)
  let folder := givenOr (given.last? .generatedFolder) (standardFolder kind)
  let (output, folder) ← checkOutput ((given.last? .outputDir).getD (some ".")) folder
  let label := (given.last? .moduleResolution).getD (some Strategy.groupedRoot.label)
  let strategy ← checkStrategy (label.getD noText)
  return {
    command := kind, source, output, folder, strategy, patterns
    package := (given.last? .packageName).getD (some Docs.standardPackage)
    client := (given.last? .clientPackage).getD (some Resolver.standardClient)
    clear := (given.last? .keepExisting).isNone
    formatter := given.last? .formatCommand }

namespace Settings

def target (s : Settings) : Except Fault Files.Path := Files.Path.generatedFolder s.output s.folder

/-- names are spelled by filling in the patterns that were given -/
def transformers (s : Settings) : List (Text × Transformer) := s.patterns.map fun p => (p.1, Name.Pattern.fill p.2)

/-- what the settings choose about documentation -/
def docs (s : Settings) : Docs.Options := ⟨s.package.getD noText, s.transformers⟩

def hooks (s : Settings) : Hooks.Options := ⟨s.client.getD Resolver.standardClient, s.strategy.label, s.transformers⟩

def emission (s : Settings) : Files.EmitOptions := ⟨s.clear, s.formatter.join⟩

/-- refuses pages that import from a module when there is nothing to import from -/
def importable (source : Chosen) (isSource : Text → Bool) (pages : PageMap) : Except Fault PageMap :=
  if source.isNone && pages.entries.any (fun e => e.2.imports.modules.any isSource) then .error .wrongType
  else .ok pages

def pages (s : Settings) (root : Node) : Except Fault PageMap := do
  match s.command with
  | .docs => importable s.package (· == noText) (← Docs.pages s.docs root)
  | .hooks => importable s.client ImportTable.isRelative (← Hooks.pages s.hooks root)

end Settings

end Command

end InterfacePages

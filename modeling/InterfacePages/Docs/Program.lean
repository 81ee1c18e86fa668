/-
The pages of a program: its overview and its errors.

The overview has a section for each family of members that is not empty; its rows link to the pages of the members.
The page of errors exists only if there are errors.
-/
import InterfacePages.Docs.Piece
import InterfacePages.Node.Tree

namespace InterfacePages

namespace Docs

def plural (count : Nat) (word : Text) : Text :=
  let ending : Text := if 1 < count then "s" else []
  Number.decimal count ++ " " ++ word ++ ending

/-- the path of the page of a member: the folder of its family and its name -/
def memberPath (folder name : Text) : Text := folder ++ "/" ++ Name.camelCase name ++ ".md"

def memberLink (folder : Text) (n : Node) : Except Fault Text := do
  let name ← n.nameText
  return Markdown.link (Name.pascalCase name) (memberPath folder name)

/-- the section on a family of members, when there are any -/
def familySection (title : Text) (headings : List Text) (row : Node → Except Fault (List Text))
    (members : List Node) : Except Fault (List Fragment) := do
  if members.isEmpty then return []
  return [titledText title (Markdown.table headings (← members.mapM row))]

/-- the row of an account: its size -/
def accountSummary (scope : Scope) (path : List Node) (n : Node) : Except Fault (List Text) := do
  let link ← memberLink "accounts" n
  return [link, ← sizeText scope (path ++ [n]) (← n.get .data)]

/-- the row of an instruction: what it says about itself -/
def instructionSummary (n : Node) : Except Fault (List Text) := do
  let link ← memberLink "instructions" n
  let docs ← oneLine n
  return [link, if docs.isEmpty then "-" else docs]

/-- the row of an address: how many seeds it has -/
def addressSummary (n : Node) : Except Fault (List Text) := do
  let link ← memberLink "pdas" n
  let seeds ← n.get .seeds
  if seeds.isGiven then return [link, plural (← seeds.length) "seed"] else return [link, "None"]

def typeKind (type : Value) : Except Fault Text := do
  let inner ← (← type.asNode).unwrap
  if inner.isKind .structType then return "struct"
  if inner.isKind .enumType then return "enum"
  return "alias"

/-- the row of a defined type: what kind of thing it is -/
def typeSummary (n : Node) : Except Fault (List Text) := do
  let link ← memberLink "types" n
  return [link, ← typeKind (← n.get .type)]

/-- the section that leads to the page of errors, when there are errors -/
def errorSummary (errors : List Node) : List Fragment :=
  if errors.isEmpty then []
  else [titledText "Errors" ("This program defines " ++ plural errors.length "error" ++ ". See " ++
    Markdown.link "Errors" "errors.md" ++ ".")]

/-- the overview of a program at the end of a path, which is the program alone if it is empty -/
def overview (scope : Scope) (path : List Node) (n : Node) : Except Fault Fragment := do
  let path := if path.isEmpty then [n] else path
  let accountPart ← familySection "Accounts" ["Account", "Size"] (accountSummary scope path) (← n.accounts)
  let instructionPart ←
    familySection "Instructions" ["Instruction", "Description"] instructionSummary (← n.leafInstructions)
  let addressPart ← familySection "PDAs" ["PDA", "Seeds"] addressSummary (← n.pdas)
  let typePart ← familySection "Types" ["Type", "Kind"] typeSummary (← n.definedTypes)
  let errors ← n.errors
  let constant ← scope.identifier .programAddressConstant n
  let name ← n.nameText
  let docs ← description n
  return Fragment.paragraphs (
    [pageHeading (Name.titleCase name), .plain ("Program address: " ++ Markdown.code constant)] ++ docs ++
    [titledText "Installation" (Markdown.codeBlock ("npm install " ++ scope.package) "bash")] ++
    accountPart ++ instructionPart ++ addressPart ++ typePart ++ errorSummary errors)

def codeCell (code : Value) : Except Fault Text := do return "0x" ++ (← code.hexadecimal) ++ " (" ++ code.display ++ ")"

/-- the row of an error; its message has to be a text when the table is made -/
def errorRow (n : Node) : Except Fault (Text × Text × Value) := do
  let code ← codeCell (← n.get .code)
  let name ← nameCode n
  let docs ← oneLine n
  if docs.isEmpty then return (code, name, ← n.get .message) else return (code, name, .text docs)

def errorCells (row : Text × Text × Value) : Except Fault (List Text) :=
  match row with
  | (code, name, .text message) => .ok [code, name, message]
  | _ => .error .missingAttribute

/-- the page of a program's errors -/
def errors (scope : Scope) (n : Node) : Except Fault (Option Fragment) := do
  let errors ← n.errors
  if errors.isEmpty then return none
  let isError ← scope.identifier .programIsErrorFunction n
  let getMessage ← scope.identifier .programGetErrorMessageFunction n
  let imports ← ImportTable.createTexts scope.package [isError, getMessage]
  let rows ← errors.mapM errorRow
  let name ← n.nameText
  let cells ← rows.mapM errorCells
  let check :=
    imports.text ++ "\n\nif (" ++ isError ++ "(error, transactionMessage)) \x7b\n  const message = " ++ getMessage ++
      "(error.context.code);\n\x7d"
  return some (Fragment.paragraphs [
    pageHeading (Name.pascalCase name ++ " Errors"), importSection imports,
    .plain (Markdown.table ["Code", "Name", "Message"] cells),
    titled "Check Error" ⟨codeText check, imports⟩])

end Docs

end InterfacePages

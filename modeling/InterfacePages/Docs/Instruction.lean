/-
The page of an instruction: its accounts and arguments, how to build it and how to send it.

Arguments that the client fills in by a resolver are left out.
-/
import InterfacePages.Docs.Piece

namespace InterfacePages

namespace Docs

/-- the package that transactions are built with -/
def kitPackage : Text := "@solana/kit"

def sendPipeline : Text := Text.joinLines [
  "await pipe(",
  "  createTransactionMessage(\x7b version: 0 \x7d),",
  "  tx => setTransactionMessageFeePayer(feePayer, tx),",
  "  tx => setTransactionMessageLifetimeUsingBlockhash(blockhash, tx),",
  "  tx => appendTransactionMessageInstruction(instruction, tx),",
  "  tx => signAndSendTransactionMessageWithSigners(tx),",
  ");"]

/-- a tick or nothing -/
def tick (flag : Bool) : Text := if flag then "✅" else []

def alwaysSigns (a : Node) : Except Fault Bool := do
  match ← a.get .isSigner with
  | .bool b => return b
  | _ => return false

/-- an account signs always or sometimes -/
def maySign (a : Node) : Except Fault Bool := do
  match ← a.get .isSigner with
  | .bool b => return b
  | v => return v.same (.text "either")

def accountRow (v : Value) : Except Fault (List Text) := do
  let a ← v.asNode
  return [← nameCode a, tick (← maySign a), tick (← a.gives .isWritable), tick (← a.gives .isOptional)]

def argumentRow (a : Node) : Except Fault (List Text) := do return [← nameCode a, ← typeCode .type a]

/-- an argument is filled in by a resolver -/
def isResolved (a : Node) : Except Fault Bool := do
  let default ← a.get .defaultValue
  if default.isAbsent then return false
  return (← default.asNode).isKind .resolverValue

/-- the nodes that a test does not hold of -/
def rejecting (p : Node → Except Fault Bool) : List Value → Except Fault (List Node)
  | [] => .ok []
  | v :: rest => do
    let n ← v.asNode
    let out ← p n
    let ns ← rejecting p rest
    return if out then ns else n :: ns

def accountParameter (v : Value) : Except Fault Text := do
  let a ← v.asNode
  let name ← a.shown .name
  let value : Text := if ← alwaysSigns a then "signer" else "address('...')"
  return "  " ++ name ++ ": " ++ value

def argumentParameter (a : Node) : Except Fault Text := do
  return "  " ++ (← a.shown .name) ++ ": value"

/-- the section on accounts, when there are any -/
def accountSection (accounts : Value) : Except Fault (List Fragment) := do
  if !accounts.isGiven then return []
  let rows ← (← accounts.items).mapM accountRow
  return [titledText "Accounts" (Markdown.table ["Account", "Signer", "Writable", "Optional"] rows)]

/-- the section on arguments, when there are any -/
def argumentSection (arguments : List Node) : Except Fault (List Fragment) := do
  if arguments.isEmpty then return []
  return [titledText "Arguments" (Markdown.table ["Argument", "Type"] (← arguments.mapM argumentRow))]

def instruction (scope : Scope) (n : Node) : Except Fault Fragment := do
  let create ← scope.identifier .instructionSyncFunction n
  let accounts ← n.get .accounts
  let accountPart ← accountSection accounts
  let arguments ← rejecting isResolved (← n.items .arguments)
  let argumentPart ← argumentSection arguments
  let parameters := (← (← accounts.items).mapM accountParameter) ++ (← arguments.mapM argumentParameter)
  let build := "const instruction = " ++ create ++ "(\x7b\n" ++ Text.joinWith ",\n" parameters ++ "\n\x7d);"
  let sendImports := ImportTable.merge [
    ← ImportTable.createTexts kitPackage ["pipe"], ← ImportTable.createTexts scope.package [create]]
  let send := sendImports.text ++ "\n\nconst instruction = " ++ create ++ "(\x7b /* ... */ \x7d);\n" ++ sendPipeline
  let name ← n.nameText
  let docs ← description n
  let imports ← ImportTable.createTexts scope.package [create]
  let marks ← discriminators ["Type", "Value", "Offset"] n
  return Fragment.paragraphs (
    [pageHeading (Name.pascalCase name)] ++ docs ++ [importSection imports] ++ accountPart ++ argumentPart ++
    [titledCode "Build" build, titled "Send" ⟨codeText send, sendImports⟩] ++ marks)

end Docs

end InterfacePages

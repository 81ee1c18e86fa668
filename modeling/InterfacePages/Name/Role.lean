/-
Roles of generated names.

Each symbol of a client and each hook has a role. A role makes an identifier from the name of a node, by its own rule
or by a transformer given for it, which may be any function of the name; filling in a name pattern is one. A naming has
a list of roles and transformers for some of them; a transformer for a role it does not have is refused (`Naming.make`).
-/
import InterfacePages.Name.Case
import InterfacePages.Node.Basic

namespace InterfacePages

inductive Role where
  | accountDecodeFunction
  | accountFetchAllFunction
  | accountFetchFunction
  | accountFetchMaybeFunction
  | accountType
  | dataType
  | decoderFunction
  | encoderFunction
  | instructionAsyncFunction
  | instructionAsyncInputType
  | instructionSyncFunction
  | instructionSyncInputType
  | pdaFindFunction
  | pdaSeedsType
  | programAddressConstant
  | programErrorUnion
  | programGetErrorMessageFunction
  | programIsErrorFunction
  | accountFromSeedsHook
  | accountHook
  | batchAccountHook
  | instructionHook
  | pdaHook
  | programHook
  deriving DecidableEq, Repr

namespace Role

/-- the roles of the symbols that a client exports -/
def client : List Role := [
  accountDecodeFunction, accountFetchAllFunction, accountFetchFunction, accountFetchMaybeFunction, accountType,
  dataType, decoderFunction, encoderFunction, instructionAsyncFunction, instructionAsyncInputType,
  instructionSyncFunction, instructionSyncInputType, pdaFindFunction, pdaSeedsType, programAddressConstant,
  programErrorUnion, programGetErrorMessageFunction, programIsErrorFunction]

def hooks : List Role := [accountFromSeedsHook, accountHook, batchAccountHook, instructionHook, pdaHook, programHook]

def all : List Role := client ++ hooks

def label : Role → Text
  | accountDecodeFunction => "accountDecodeFunction"
  | accountFetchAllFunction => "accountFetchAllFunction"
  | accountFetchFunction => "accountFetchFunction"
  | accountFetchMaybeFunction => "accountFetchMaybeFunction"
  | accountType => "accountType"
  | dataType => "dataType"
  | decoderFunction => "decoderFunction"
  | encoderFunction => "encoderFunction"
  | instructionAsyncFunction => "instructionAsyncFunction"
  | instructionAsyncInputType => "instructionAsyncInputType"
  | instructionSyncFunction => "instructionSyncFunction"
  | instructionSyncInputType => "instructionSyncInputType"
  | pdaFindFunction => "pdaFindFunction"
  | pdaSeedsType => "pdaSeedsType"
  | programAddressConstant => "programAddressConstant"
  | programErrorUnion => "programErrorUnion"
  | programGetErrorMessageFunction => "programGetErrorMessageFunction"
  | programIsErrorFunction => "programIsErrorFunction"
  | accountFromSeedsHook => "accountFromSeedsHook"
  | accountHook => "accountHook"
  | batchAccountHook => "batchAccountHook"
  | instructionHook => "instructionHook"
  | pdaHook => "pdaHook"
  | programHook => "programHook"

def ofLabel? (t : Text) : Option Role := all.find? (·.label == t)

/-- the identifier a role gives to a name by its own rule -/
def standard (role : Role) (name : Text) : Text :=
  let n := Name.pascalCase name
  match role with
  | accountDecodeFunction => "decode" ++ n
  | accountFetchAllFunction => "fetchAll" ++ n
  | accountFetchFunction => "fetch" ++ n
  | accountFetchMaybeFunction => "fetchMaybe" ++ n
  | accountType => n
  | dataType => n
  | decoderFunction => "get" ++ n ++ "Decoder"
  | encoderFunction => "get" ++ n ++ "Encoder"
  | instructionAsyncFunction => "get" ++ n ++ "InstructionAsync"
  | instructionAsyncInputType => n ++ "AsyncInput"
  | instructionSyncFunction => "get" ++ n ++ "Instruction"
  | instructionSyncInputType => n ++ "Input"
  | pdaFindFunction => "find" ++ n ++ "Pda"
  | pdaSeedsType => n ++ "Seeds"
  | programAddressConstant => Text.upper (Name.snakeCase name) ++ "_PROGRAM_ADDRESS"
  | programErrorUnion => n ++ "Error"
  | programGetErrorMessageFunction => "get" ++ n ++ "ErrorMessage"
  | programIsErrorFunction => "is" ++ n ++ "Error"
  | accountFromSeedsHook => "use" ++ n ++ "FromSeeds"
  | accountHook => "use" ++ n
  | batchAccountHook => "use" ++ n ++ "s"
  | instructionHook => "use" ++ n
  | pdaHook => "use" ++ n ++ "Address"
  | programHook => "useProgram" ++ n

end Role

/-- makes an identifier from the name of a node, or fails -/
abbrev Transformer := Text → Except Fault Text

/-- roles, and what stands in for the rules of some of them -/
structure Naming where
  roles : List Role
  overrides : List (Role × Transformer)

namespace Naming

/-- the labels that no role of a list has, sorted -/
def unknownLabels (roles : List Role) (labels : List Text) : List Text :=
  Text.sorted (Text.distinct (labels.filter fun t => !roles.any (·.label == t)))

/-- a naming with transformers by label; of two for one role the later counts -/
def make (roles : List Role) (transformers : List (Text × Transformer)) : Except Fault Naming :=
  match unknownLabels roles (transformers.map (·.1)) with
  | [] => .ok ⟨roles, transformers.reverse.filterMap fun t => (Role.ofLabel? t.1).map fun role => (role, t.2)⟩
  | labels => .error (.unknownRoles labels)

def identifier (naming : Naming) (role : Role) (name : Text) : Except Fault Text :=
  if naming.roles.contains role then
    match naming.overrides.lookup role with
    | some transformer => transformer name
    | none => .ok (role.standard name)
  else .error (.missingKey role.label)

def identifierFor (naming : Naming) (label name : Text) : Except Fault Text :=
  match Role.ofLabel? label with
  | some role => naming.identifier role name
  | none => .error (.missingKey label)

end Naming

/-- the name of a node, which has to be a text -/
def Node.nameText (n : Node) : Except Fault Text := do (← n.get .name).asText

end InterfacePages

/-
Types as the generated client spells them.

Wrappers for size, offset and padding leave no trace. An option shows what it holds without such wrappers, an
enumeration without data lists its variants as literals. A link shows the name it has, so the text of a link without a
name is no text; everything else is. What is no type is `unknown`.
-/
import InterfacePages.Visit.Visitor

namespace InterfacePages

namespace TypeText

/-- an outcome of spelling a type -/
abbrev Outcome := Except Fault Value

def wideFormats : List Text := ["u64", "u128", "i64", "i128"]

def spelled (t : Text) : Handler Outcome := fun _ _ => .ok (.text t)

/-- the spelling of the type that an attribute holds -/
def through (a : Attr) : Handler Outcome := fun n visit => do visit (← n.child a)

/-- the spelling of the type that an attribute holds, in angle brackets -/
def applied (name : Text) (a : Attr) : Handler Outcome := fun n visit => do
  return .text (name ++ "<" ++ (← visit (← n.child a)).display ++ ">")

/-- the name of the node itself -/
def named : Handler Outcome := fun n _ => n.get .name

/-- the spellings of the items that an attribute holds, all of which have to be texts -/
def spellings (a : Attr) (n : Node) (visit : Node → Outcome) : Except Fault (List Text) := do
  let spelled ← (← n.items a).mapM fun v => do visit (← v.asNode)
  spelled.mapM Value.asText

/-- an option: what it holds, without wrappers -/
def option : Handler Outcome := fun n visit => do
  let inner ← (← n.child .item).unwrap
  return .text ("Option<" ++ (← visit inner).display ++ ">")

/-- the name of a variant as a literal -/
def literal (v : Value) : Except Fault Text := do
  return "'" ++ (← (← v.asNode).get .name).display ++ "'"

/-- an enumeration: its variants, as literals when none carries data -/
def enumeration : Handler Outcome := fun n visit => do
  if ← n.isScalarEnum then
    return .text (Text.joinWith " | " (← (← n.items .variants).mapM literal))
  else
    return .text (Text.joinWith " | " (← spellings .variants n visit))

def fieldText (visit : Node → Outcome) (v : Value) : Except Fault Text := do
  let f ← v.asNode
  let name := (← f.get .name).display
  return name ++ ": " ++ (← visit f).display

/-- a structure: its fields by name -/
def record : Handler Outcome := fun n visit => do
  if !(← n.get .fields).isGiven then return .text "\x7b\x7d"
  return .text ("\x7b " ++ Text.joinWith "; " (← (← n.items .fields).mapM (fieldText visit)) ++ " \x7d")

/-- a tuple: its items -/
def sequence : Handler Outcome := fun n visit => do
  return .text ("[" ++ Text.joinWith ", " (← spellings .items n visit) ++ "]")

/-- a map: its key and its value -/
def mapping : Handler Outcome := fun n visit => do
  let key := (← visit (← n.child .key)).display
  let value := (← visit (← n.child .value)).display
  return .text ("Map<" ++ key ++ ", " ++ value ++ ">")

/-- a number: whether it is too wide for a double -/
def number : Handler Outcome := fun n _ => do
  let format ← n.get .format
  if !format.isKey then throw .wrongType
  match format with
  | .text t => return .text (if wideFormats.contains t then "bigint" else "number")
  | _ => return .text "number"

def handlers : List (Kind × Handler Outcome) := [
  (.amountType, spelled "bigint"),
  (.arrayType, applied "Array" .item),
  (.booleanType, spelled "boolean"),
  (.bytesType, spelled "Uint8Array"),
  (.dateTimeType, spelled "bigint"),
  (.definedTypeLink, named),
  (.enumEmptyVariantType, named),
  (.enumStructVariantType, named),
  (.enumTupleVariantType, named),
  (.enumType, enumeration),
  (.fixedSizeType, through .type),
  (.hiddenPrefixType, through .type),
  (.hiddenSuffixType, through .type),
  (.mapType, mapping),
  (.numberType, number),
  (.optionType, option),
  (.postOffsetType, through .type),
  (.preOffsetType, through .type),
  (.publicKeyType, spelled "Address"),
  (.remainderOptionType, option),
  (.sentinelType, through .type),
  (.setType, applied "Set" .item),
  (.sizePrefixType, through .type),
  (.solAmountType, spelled "bigint"),
  (.stringType, spelled "string"),
  (.structFieldType, through .type),
  (.structType, record),
  (.tupleType, sequence),
  (.zeroableOptionType, option)]

/-- the visitor that spells types -/
def visitor : Visitor Outcome :=
  (Visitor.constant (fun _ => .ok (.text "unknown")) []).extend (handlers.map fun h => (.known h.1, h.2))

end TypeText

def Node.typeText (n : Node) : Except Fault Value :=
  TypeText.visitor.visit (.error .nestingTooDeep) (n.height + 1) n

def Value.typeText (v : Value) : Except Fault Text := do return (← (← v.asNode).typeText).display

end InterfacePages

/-
Nodes of an interface tree and the values of their attributes.

A modelled node has a kind and one value for each of the kind's slots, in order; a node of any other kind keeps the
object it was read from. What a tree holds need not fit its place, so an attribute can have any value, and using a
value as something it is not is a `Fault`: reading the kind or an attribute of what has none (`missingAttribute`), or
going through, joining or measuring what is no collection (`wrongType`).
-/
import InterfacePages.Fault
import InterfacePages.Node.Kind

namespace InterfacePages

mutual

/-- the value of an attribute; `undefined` is a double that came out of arithmetic as no number -/
inductive Value where
  | absent
  | bool (b : Bool)
  | int (n : Int)
  | float (x : Float)
  | undefined
  | text (t : Text)
  | tuple (items : List Value)
  | node (n : Node)

/-- a node: of a modelled kind with its attributes, or of another kind, which is a scalar, as it was read -/
inductive Node where
  | known (kind : Kind) (attributes : List (Attr × Value))
  | unknown (kind : Json) (object : List (Text × Json))

end

deriving instance Repr for Value, Node

instance : Inhabited Value := ⟨.absent⟩

instance : Inhabited Node := ⟨.unknown .null []⟩

/-- an attribute that a kind of node has: one that has to be given, or one with a default -/
inductive Slot where
  | required (attr : Attr)
  | optional (attr : Attr) (default : Value)

def Slot.attr : Slot → Attr
  | .required attr => attr
  | .optional attr _ => attr

namespace Kind

def octet : Value := .node (.known .numberType [(.format, .text "u8"), (.endian, .text "le")])

/-- a count written before the items as a number of four octets -/
def counted : Value :=
  .node (.known .prefixedCount [(.lead, .node (.known .numberType [(.format, .text "u32"), (.endian, .text "le")]))])

/-- the attributes of a kind of node, in order -/
def slots : Kind → List Slot
  | .numberType => [.required .format, .optional .endian (.text "le")]
  | .publicKeyType => []
  | .booleanType => [.optional .size octet]
  | .stringType => [.optional .encoding (.text "utf8")]
  | .bytesType => []
  | .amountType => [.required .number, .optional .decimals (.int 0), .optional .unit .absent]
  | .solAmountType => [.required .number]
  | .dateTimeType => [.required .number]
  | .fixedCount => [.required .value]
  | .prefixedCount => [.required .lead]
  | .remainderCount => []
  | .structFieldType => [
      .required .name, .required .type, .optional .docs (.tuple []), .optional .defaultValue .absent,
      .optional .defaultValueStrategy .absent]
  | .structType => [.optional .fields (.tuple [])]
  | .tupleType => [.optional .items (.tuple [])]
  | .arrayType => [.required .item, .optional .count counted]
  | .setType => [.required .item, .optional .count counted]
  | .mapType => [.required .key, .required .value, .optional .count counted]
  | .optionType => [.required .item, .optional .lead octet, .optional .fixed (.bool false)]
  | .zeroableOptionType => [.required .item, .optional .zeroValue .absent]
  | .remainderOptionType => [.required .item]
  | .enumEmptyVariantType => [.required .name, .optional .discriminator .absent]
  | .enumTupleVariantType => [.required .name, .required .tuple, .optional .discriminator .absent]
  | .enumStructVariantType => [.required .name, .required .struct, .optional .discriminator .absent]
  | .enumType => [.optional .variants (.tuple []), .optional .size octet]
  | .fixedSizeType => [.required .type, .required .size]
  | .sizePrefixType => [.required .type, .required .lead]
  | .hiddenPrefixType => [.required .type, .optional .lead (.tuple [])]
  | .hiddenSuffixType => [.required .type, .optional .suffix (.tuple [])]
  | .preOffsetType => [.required .type, .required .offset, .optional .strategy (.text "relative")]
  | .postOffsetType => [.required .type, .required .offset, .optional .strategy (.text "relative")]
  | .sentinelType => [.required .type, .optional .sentinel .absent]
  | .stringValue => [.required .string]
  | .numberValue => [.required .number]
  | .booleanValue => [.required .boolean]
  | .bytesValue => [.required .encoding, .required .data]
  | .publicKeyValue => [.required .publicKey, .optional .identifier .absent]
  | .constantValue => [.required .type, .required .value]
  | .resolverValue => [.required .name, .optional .dependsOn (.tuple []), .optional .docs (.tuple [])]
  | .programLink => [.required .name]
  | .pdaLink => [.required .name, .optional .program .absent]
  | .definedTypeLink => [.required .name, .optional .program .absent]
  | .fieldDiscriminator => [.required .name, .optional .offset (.int 0)]
  | .sizeDiscriminator => [.required .size]
  | .constantDiscriminator => [.required .constant, .optional .offset (.int 0)]
  | .constantPdaSeed => [.required .type, .required .value]
  | .variablePdaSeed => [.required .name, .required .type, .optional .docs (.tuple [])]
  | .pda => [.required .name, .optional .seeds (.tuple []), .optional .docs (.tuple []), .optional .programId .absent]
  | .account => [
      .required .name, .optional .data (.node (.known .structType [(.fields, .tuple [])])), .optional .pda .absent,
      .optional .discriminators (.tuple []), .optional .docs (.tuple []), .optional .size .absent]
  | .instructionAccount => [
      .required .name, .optional .isWritable (.bool false), .optional .isSigner (.bool false),
      .optional .isOptional (.bool false), .optional .docs (.tuple []), .optional .defaultValue .absent]
  | .instructionArgument => [
      .required .name, .required .type, .optional .docs (.tuple []), .optional .defaultValue .absent,
      .optional .defaultValueStrategy .absent]
  | .instruction => [
      .required .name, .optional .accounts (.tuple []), .optional .arguments (.tuple []),
      .optional .discriminators (.tuple []), .optional .docs (.tuple []), .optional .subInstructions (.tuple []),
      .optional .optionalAccountStrategy (.text "programId")]
  | .definedType => [.required .name, .required .type, .optional .docs (.tuple [])]
  | .error => [.required .name, .required .code, .required .message, .optional .docs (.tuple [])]
  | .program => [
      .required .name, .optional .publicKey (.text ""), .optional .version (.text "0.0.0"), .optional .origin .absent,
      .optional .docs (.tuple []), .optional .accounts (.tuple []), .optional .instructions (.tuple []),
      .optional .definedTypes (.tuple []), .optional .pdas (.tuple []), .optional .errors (.tuple [])]
  | .root => [
      .required .program, .optional .additionalPrograms (.tuple []), .optional .standard (.text "codama"),
      .optional .version (.text "1.0.0")]

/-- the name of the kind as messages show it: the tag with a capital -/
def className (k : Kind) : Text :=
  match k.tag with
  | c :: rest => (if 97 ≤ c ∧ c ≤ 122 then c - 32 else c) :: rest
  | [] => []

/-- the kinds that wrap a type without changing what it means -/
def wrappers : List Kind := [
  .fixedSizeType, .sizePrefixType, .hiddenPrefixType, .hiddenSuffixType, .preOffsetType, .postOffsetType, .sentinelType]

end Kind

/-! ## Printing -/

/-- a scalar kind inside a message -/
def Json.plain : Json → Text
  | .text t => t
  | other => other.display

mutual

/-- a value inside a message -/
def Value.quoted : Value → Text
  | .absent => "None"
  | .bool b => if b then "True" else "False"
  | .int n => Number.integer n
  | .float x => Number.floatText x
  | .undefined => "nan"
  | .text t => Text.quoted t
  | .tuple items => "(" ++ (Value.quotedItems items ++ (if items.length = 1 then ",)" else ")"))
  | .node n => n.quoted

/-- the items of a tuple inside a message -/
def Value.quotedItems : List Value → Text
  | [] => []
  | [x] => x.quoted
  | x :: rest => x.quoted ++ (", " ++ Value.quotedItems rest)

/-- a node inside a message -/
def Node.quoted : Node → Text
  | .known kind attributes => kind.className ++ ("(" ++ (Node.quotedAttributes attributes ++ ")"))
  | .unknown kind object =>
    "UnknownNode(kind=" ++ (kind.display ++ (", attributes=" ++ ((Json.object object).display ++ ")")))

def Node.quotedAttributes : List (Attr × Value) → Text
  | [] => []
  | [(a, x)] => a.label ++ ("=" ++ x.quoted)
  | (a, x) :: rest => a.label ++ ("=" ++ (x.quoted ++ (", " ++ Node.quotedAttributes rest)))

end

def Value.display : Value → Text
  | .text t => t
  | other => other.quoted

/-! ## Comparing -/

mutual

/-- whether two values are equal; numbers compare by value, truth values as zero and one, and an undefined double is
equal to nothing -/
def Value.same : Value → Value → Bool
  | .absent, .absent => true
  | .text a, .text b => a == b
  | .tuple a, .tuple b => Value.sameItems a b
  | .node a, .node b => a.same b
  | .bool a, .bool b => a == b
  | .bool a, .int n => (if a then 1 else 0) == n
  | .int n, .bool a => (if a then 1 else 0) == n
  | .int a, .int b => a == b
  | .float a, .float b => a == b || (a.isNaN && b.isNaN)
  | .float a, .int n => Number.exactInteger? a == some n
  | .int n, .float a => Number.exactInteger? a == some n
  | .float a, .bool b => a == (if b then 1.0 else 0.0)
  | .bool b, .float a => a == (if b then 1.0 else 0.0)
  | _, _ => false

def Value.sameItems : List Value → List Value → Bool
  | [], [] => true
  | a :: as, b :: bs => a.same b && Value.sameItems as bs
  | _, _ => false

/-- whether two nodes of modelled kinds are equal -/
def Node.same : Node → Node → Bool
  | .known k as, .known l bs => k == l && Node.sameAttributes as bs
  | _, _ => false

/-- whether two nodes have equal attributes -/
def Node.sameAttributes : List (Attr × Value) → List (Attr × Value) → Bool
  | [], [] => true
  | (a, x) :: as, (b, y) :: bs => a == b && x.same y && Node.sameAttributes as bs
  | _, _ => false

end

mutual

/-- whether a value can be looked up: it holds no node of another kind -/
def Value.isKey : Value → Bool
  | .tuple items => Value.areKeys items
  | .node n => n.isKey
  | _ => true

def Value.areKeys : List Value → Bool
  | [] => true
  | x :: rest => x.isKey && Value.areKeys rest

/-- whether a node can be looked up -/
def Node.isKey : Node → Bool
  | .known _ attributes => Node.haveKeys attributes
  | .unknown _ _ => false

/-- whether all attributes can be looked up -/
def Node.haveKeys : List (Attr × Value) → Bool
  | [] => true
  | (_, x) :: rest => x.isKey && Node.haveKeys rest

end

/-! ## Depth -/

mutual

/-- how deep nodes are nested in a value -/
def Value.height : Value → Nat
  | .tuple items => Value.heights items
  | .node n => n.height
  | _ => 0

/-- how deep nodes are nested in some values -/
def Value.heights : List Value → Nat
  | [] => 0
  | x :: rest => max x.height (Value.heights rest)

/-- how deep nodes are nested, the node itself included -/
def Node.height : Node → Nat
  | .known _ attributes => Node.attributeHeight attributes + 1
  | .unknown _ _ => 1

/-- how deep nodes are nested in some attributes -/
def Node.attributeHeight : List (Attr × Value) → Nat
  | [] => 0
  | (_, x) :: rest => max x.height (Node.attributeHeight rest)

end

/-! ## Using values -/

namespace Value

/-- whether a value counts as given: not nothing, not false, not zero, not empty -/
def isGiven : Value → Bool
  | .absent => false
  | .bool b => b
  | .int n => n != 0
  | .float x => x != 0.0
  | .undefined => true
  | .text t => !t.isEmpty
  | .tuple items => !items.isEmpty
  | .node _ => true

def isAbsent : Value → Bool
  | .absent => true
  | _ => false

def typeName : Value → Text
  | .absent => "NoneType"
  | .bool _ => "bool"
  | .int _ => "int"
  | .float _ => "float"
  | .undefined => "float"
  | .text _ => "str"
  | .tuple _ => "tuple"
  | .node (.known kind _) => kind.className
  | .node (.unknown _ _) => "UnknownNode"

/-- the node a value is; anything else has no kind -/
def asNode : Value → Except Fault Node
  | .node n => .ok n
  | _ => .error .missingAttribute

def asText : Value → Except Fault Text
  | .text t => .ok t
  | _ => .error .wrongType

/-- what going through a value gives: the items of a tuple, the letters of a text -/
def items : Value → Except Fault (List Value)
  | .tuple items => .ok items
  | .text t => .ok (t.map fun c => .text [c])
  | _ => .error .wrongType

def length (v : Value) : Except Fault Nat := do return (← v.items).length

def joined (separator : Text) (v : Value) : Except Fault Text := do
  return Text.joinWith separator (← (← v.items).mapM asText)

end Value

namespace Node

def kind? : Node → Option Kind
  | .known kind _ => some kind
  | .unknown _ _ => none

def isKind (k : Kind) (n : Node) : Bool := n.kind? == some k

def kindValue : Node → Json
  | .known kind _ => .text kind.tag
  | .unknown kind _ => kind

def kindText (n : Node) : Text := n.kindValue.plain

/-- the name of a node's kind; a kind that is no text has none -/
def tag? : Node → Option Tag
  | .known kind _ => some (.known kind)
  | .unknown (.text t) _ => some (.named t)
  | .unknown _ _ => none

def attributes : Node → List (Attr × Value)
  | .known _ attributes => attributes
  | .unknown _ _ => []

/-- the value of an attribute, when the node has it -/
def attr? (n : Node) (a : Attr) : Option Value := (n.attributes.find? (·.1 == a)).map (·.2)

def get (n : Node) (a : Attr) : Except Fault Value :=
  match n.attr? a with
  | some v => .ok v
  | none => .error .missingAttribute

def child (n : Node) (a : Attr) : Except Fault Node := do (← n.get a).asNode

def items (n : Node) (a : Attr) : Except Fault (List Value) := do (← n.get a).items

def isWrapper (n : Node) : Bool :=
  match n.kind? with
  | some k => Kind.wrappers.contains k
  | none => false

/-- strips at most `fuel` wrappers -/
def unwrapUpTo : Nat → Node → Except Fault Node
  | 0, _ => .error .nestingTooDeep
  | fuel + 1, n => if n.isWrapper then do unwrapUpTo fuel (← n.child .type) else .ok n

/-- the type inside all size, offset and padding wrappers -/
def unwrap (n : Node) : Except Fault Node := unwrapUpTo n.height n

/-- whether all variants of an enumeration carry no data -/
def isScalarEnum (n : Node) : Except Fault Bool := do
  let rec allEmpty : List Value → Except Fault Bool
    | [] => .ok true
    | v :: rest => do
      if (← v.asNode).isKind .enumEmptyVariantType then allEmpty rest else return false
  allEmpty (← n.items .variants)

end Node

end InterfacePages

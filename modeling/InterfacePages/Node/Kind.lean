/-
The kinds of node an interface tree is made of and the names of their attributes.

A kind is written in a tree by its tag, an attribute by its label in snake case; `Kind.ofTag?` and `Attr.ofLabel?`
read both back. `Tag` names any kind, one without a constructor here by its text.
-/
import InterfacePages.Text.Basic

namespace InterfacePages

/-- the modelled kinds of node -/
inductive Kind where
  | numberType | publicKeyType | booleanType | stringType | bytesType | amountType | solAmountType | dateTimeType
  | fixedCount | prefixedCount | remainderCount | structFieldType | structType | tupleType | arrayType | setType
  | mapType | optionType | zeroableOptionType | remainderOptionType | enumEmptyVariantType | enumTupleVariantType
  | enumStructVariantType | enumType | fixedSizeType | sizePrefixType | hiddenPrefixType | hiddenSuffixType
  | preOffsetType | postOffsetType | sentinelType | stringValue | numberValue | booleanValue | bytesValue
  | publicKeyValue | constantValue | resolverValue | programLink | pdaLink | definedTypeLink | fieldDiscriminator
  | sizeDiscriminator | constantDiscriminator | constantPdaSeed | variablePdaSeed | pda | account
  | instructionAccount | instructionArgument | instruction | definedType | error | program | root
  deriving DecidableEq, Repr, Inhabited

inductive Attr where
  | format | endian | size | encoding | number | decimals | unit | value | lead | name | type | docs | defaultValue
  | defaultValueStrategy | fields | items | item | count | key | fixed | zeroValue | discriminator | tuple | struct
  | variants | suffix | offset | strategy | sentinel | string | boolean | data | publicKey | identifier | dependsOn
  | program | constant | seeds | programId | pda | discriminators | isWritable | isSigner | isOptional | accounts
  | arguments | subInstructions | optionalAccountStrategy | code | message | version | origin | instructions
  | definedTypes | pdas | errors | additionalPrograms | standard
  deriving DecidableEq, Repr, Inhabited

namespace Kind

def all : List Kind := [
  .numberType, .publicKeyType, .booleanType, .stringType, .bytesType, .amountType, .solAmountType, .dateTimeType,
  .fixedCount, .prefixedCount, .remainderCount, .structFieldType, .structType, .tupleType, .arrayType, .setType,
  .mapType, .optionType, .zeroableOptionType, .remainderOptionType, .enumEmptyVariantType, .enumTupleVariantType,
  .enumStructVariantType, .enumType, .fixedSizeType, .sizePrefixType, .hiddenPrefixType, .hiddenSuffixType,
  .preOffsetType, .postOffsetType, .sentinelType, .stringValue, .numberValue, .booleanValue, .bytesValue,
  .publicKeyValue, .constantValue, .resolverValue, .programLink, .pdaLink, .definedTypeLink, .fieldDiscriminator,
  .sizeDiscriminator, .constantDiscriminator, .constantPdaSeed, .variablePdaSeed, .pda, .account,
  .instructionAccount, .instructionArgument, .instruction, .definedType, .error, .program, .root
]

def tag : Kind → Text
  | .numberType => "numberTypeNode"
  | .publicKeyType => "publicKeyTypeNode"
  | .booleanType => "booleanTypeNode"
  | .stringType => "stringTypeNode"
  | .bytesType => "bytesTypeNode"
  | .amountType => "amountTypeNode"
  | .solAmountType => "solAmountTypeNode"
  | .dateTimeType => "dateTimeTypeNode"
  | .fixedCount => "fixedCountNode"
  | .prefixedCount => "prefixedCountNode"
  | .remainderCount => "remainderCountNode"
  | .structFieldType => "structFieldTypeNode"
  | .structType => "structTypeNode"
  | .tupleType => "tupleTypeNode"
  | .arrayType => "arrayTypeNode"
  | .setType => "setTypeNode"
  | .mapType => "mapTypeNode"
  | .optionType => "optionTypeNode"
  | .zeroableOptionType => "zeroableOptionTypeNode"
  | .remainderOptionType => "remainderOptionTypeNode"
  | .enumEmptyVariantType => "enumEmptyVariantTypeNode"
  | .enumTupleVariantType => "enumTupleVariantTypeNode"
  | .enumStructVariantType => "enumStructVariantTypeNode"
  | .enumType => "enumTypeNode"
  | .fixedSizeType => "fixedSizeTypeNode"
  | .sizePrefixType => "sizePrefixTypeNode"
  | .hiddenPrefixType => "hiddenPrefixTypeNode"
  | .hiddenSuffixType => "hiddenSuffixTypeNode"
  | .preOffsetType => "preOffsetTypeNode"
  | .postOffsetType => "postOffsetTypeNode"
  | .sentinelType => "sentinelTypeNode"
  | .stringValue => "stringValueNode"
  | .numberValue => "numberValueNode"
  | .booleanValue => "booleanValueNode"
  | .bytesValue => "bytesValueNode"
  | .publicKeyValue => "publicKeyValueNode"
  | .constantValue => "constantValueNode"
  | .resolverValue => "resolverValueNode"
  | .programLink => "programLinkNode"
  | .pdaLink => "pdaLinkNode"
  | .definedTypeLink => "definedTypeLinkNode"
  | .fieldDiscriminator => "fieldDiscriminatorNode"
  | .sizeDiscriminator => "sizeDiscriminatorNode"
  | .constantDiscriminator => "constantDiscriminatorNode"
  | .constantPdaSeed => "constantPdaSeedNode"
  | .variablePdaSeed => "variablePdaSeedNode"
  | .pda => "pdaNode"
  | .account => "accountNode"
  | .instructionAccount => "instructionAccountNode"
  | .instructionArgument => "instructionArgumentNode"
  | .instruction => "instructionNode"
  | .definedType => "definedTypeNode"
  | .error => "errorNode"
  | .program => "programNode"
  | .root => "rootNode"

def ofTag? (t : Text) : Option Kind := all.find? (·.tag == t)

end Kind

namespace Attr

def all : List Attr := [
  .format, .endian, .size, .encoding, .number, .decimals, .unit, .value, .lead, .name, .type, .docs, .defaultValue,
  .defaultValueStrategy, .fields, .items, .item, .count, .key, .fixed, .zeroValue, .discriminator, .tuple, .struct,
  .variants, .suffix, .offset, .strategy, .sentinel, .string, .boolean, .data, .publicKey, .identifier, .dependsOn,
  .program, .constant, .seeds, .programId, .pda, .discriminators, .isWritable, .isSigner, .isOptional, .accounts,
  .arguments, .subInstructions, .optionalAccountStrategy, .code, .message, .version, .origin, .instructions,
  .definedTypes, .pdas, .errors, .additionalPrograms, .standard
]

def label : Attr → Text
  | .format => "format"
  | .endian => "endian"
  | .size => "size"
  | .encoding => "encoding"
  | .number => "number"
  | .decimals => "decimals"
  | .unit => "unit"
  | .value => "value"
  | .lead => "prefix"
  | .name => "name"
  | .type => "type"
  | .docs => "docs"
  | .defaultValue => "default_value"
  | .defaultValueStrategy => "default_value_strategy"
  | .fields => "fields"
  | .items => "items"
  | .item => "item"
  | .count => "count"
  | .key => "key"
  | .fixed => "fixed"
  | .zeroValue => "zero_value"
  | .discriminator => "discriminator"
  | .tuple => "tuple"
  | .struct => "struct"
  | .variants => "variants"
  | .suffix => "suffix"
  | .offset => "offset"
  | .strategy => "strategy"
  | .sentinel => "sentinel"
  | .string => "string"
  | .boolean => "boolean"
  | .data => "data"
  | .publicKey => "public_key"
  | .identifier => "identifier"
  | .dependsOn => "depends_on"
  | .program => "program"
  | .constant => "constant"
  | .seeds => "seeds"
  | .programId => "program_id"
  | .pda => "pda"
  | .discriminators => "discriminators"
  | .isWritable => "is_writable"
  | .isSigner => "is_signer"
  | .isOptional => "is_optional"
  | .accounts => "accounts"
  | .arguments => "arguments"
  | .subInstructions => "sub_instructions"
  | .optionalAccountStrategy => "optional_account_strategy"
  | .code => "code"
  | .message => "message"
  | .version => "version"
  | .origin => "origin"
  | .instructions => "instructions"
  | .definedTypes => "defined_types"
  | .pdas => "pdas"
  | .errors => "errors"
  | .additionalPrograms => "additional_programs"
  | .standard => "standard"

def ofLabel? (t : Text) : Option Attr := all.find? (·.label == t)

end Attr

/-- the name of a kind of node: a modelled one, or any other text -/
inductive Tag where
  | known (kind : Kind)
  | named (tag : Text)
  deriving DecidableEq, Repr

namespace Tag

def ofText (t : Text) : Tag :=
  match Kind.ofTag? t with
  | some kind => .known kind
  | none => .named t

def text : Tag → Text
  | .known kind => kind.tag
  | .named t => t

end Tag

theorem Kind.mem_all (k : Kind) : k ∈ Kind.all := by
  cases k <;> decide

theorem Attr.mem_all (a : Attr) : a ∈ Attr.all := by
  cases a <;> decide

end InterfacePages

/-
Everything that can go wrong, as causes.

Each constructor of `Fault` names a cause and keeps what it is about; `Fault.message` is the one place where a cause
becomes words. `wrongType` and `missingAttribute` are what malformed trees run into when a value is used as something
it is not; they have no words of their own.
-/
import InterfacePages.Json.Reader
import InterfacePages.Text.Blank
import InterfacePages.Text.Utf8

namespace InterfacePages

/-- why a JSON value is no node, or no interface tree -/
inductive NodeFault where
  | notAnObject (data : Json)
  | missing (kind className : Text) (attributes : List Text)
  | nameNotText (kind typeName : Text)
  | notJson (cause : Json.Cause) (place line column : Nat)
  | notARoot (kind : Text)
  deriving Repr

/-- why a name pattern cannot be filled in -/
inductive PatternFault where
  | singleOpen
  | singleClose
  | expectedClose
  | unexpectedOpen
  | endInConversion
  | expectedColon
  | unmatchedOpen
  | nestedTooDeep
  | tooManyDigits
  | emptyAttribute
  | missingBracket
  | afterBracket
  | unknownConversion (c : Nat)
  | invalidSpecifier (spec typeName : Text)
  | unknownCode (c : Nat) (typeName : Text)
  | missingPrecision
  | bothSeparators
  | separatorWith (separator c : Nat)
  | spaceSign
  | sign
  | negativeZero
  | alternate
  | equalsAlignment
  | integerPrecision
  | integerNegativeZero
  | characterSign
  | characterAlternate
  deriving DecidableEq, Repr

/-- which index lies outside what it indexes -/
inductive IndexFault where
  | listIndex
  | textIndex
  | tupleIndex
  | replacement (index : Nat)
  deriving DecidableEq, Repr

/-- what lacks a member: an object of a type, a type, or something that is not named -/
inductive MemberOwner where
  | ofObject (typeName : Text)
  | ofType (name : Text)
  | unnamed
  deriving DecidableEq, Repr

/-- what the operating system answers -/
inductive OsCause where
  | notFound
  | badDescriptor
  | permissionDenied
  | busy
  | exists
  | notADirectory
  | isADirectory
  | invalidArgument
  | nameTooLong
  | notEmpty
  | other (number : Nat) (words : Text)
  deriving DecidableEq, Repr

/-- whether a path is shown as plain text or as a path object -/
inductive PathForm where
  | plain
  | object
  deriving DecidableEq, Repr

/-- the codes of configuration faults -/
inductive ConfigCode where
  | missingTree
  | pathNotFound
  | invalidTree
  | invalidNameOverride
  | unknownNameRole
  | invalidStrategy
  | invalidGeneratedFolder
  deriving DecidableEq, Repr

/-- what is wrong with the settings of a run, and perhaps what to do about it -/
structure ConfigFault where
  code : ConfigCode
  message : Text
  suggestion : Option Text
  deriving DecidableEq, Repr

/-- why a formatter's command line cannot be split -/
inductive QuoteFault where
  | noClosingQuotation
  | noEscapedCharacter
  deriving DecidableEq, Repr

inductive Fault where
  | wrongType
  | missingAttribute
  | outOfMemory
  | integerTooLarge
  | indexTooLarge
  | repeatedTooLong
  | noCharacter
  | nestingTooDeep
  | missingKey (key : Text)
  | index (cause : IndexFault)
  | invalidNode (cause : NodeFault)
  | tooManyDigits (count : Nat)
  | tooDeep (container : Json.Container)
  | integerTextTooLong
  | pattern (cause : PatternFault)
  | missingMember (owner : MemberOwner) (member : Text)
  | invalidPlaceholder (line column : Nat)
  | invalidImport (raw : Text)
  | unknownRoles (roles : List Text)
  | unknownStrategy (raw : Text)
  | unsafePath (what whereTo path : Text)
  | notBelow (path base : Text)
  | emptyStack
  | unexpectedTop (expected found : Text)
  | unencodable (cause : Text.EncodeFault)
  | undecodable (cause : Text.DecodeFault)
  | embeddedNull
  | unknownNumberCode (typeName : Text)
  | quoting (cause : QuoteFault)
  | unknownConfigCode (code : Text)
  | os (cause : OsCause) (path : Text) (form : PathForm)
  | formatter (path : Text) (status : Int) (complaint : Text)
  | config (cause : ConfigFault)
  | refused (words : Text)
  deriving Repr

namespace Fault

/-- names in quotes, with commas and a closing "and" -/
def quotedList : List Text → Text
  | [] => []
  | [a] => Text.quoted a
  | [a, b] => Text.quoted a ++ " and " ++ Text.quoted b
  | names => Text.joinWith ", " (names.dropLast.map Text.quoted) ++ ", and " ++ Text.quoted (names.getLastD [])

end Fault

def Json.Cause.message : Json.Cause → Text
  | .expectingValue => "Expecting value"
  | .expectingName => "Expecting property name enclosed in double quotes"
  | .expectingColon => "Expecting ':' delimiter"
  | .expectingComma => "Expecting ',' delimiter"
  | .unterminated => "Unterminated string starting at"
  | .controlCharacter => "Invalid control character at"
  | .invalidEscape => "Invalid \\escape"
  | .invalidNumberEscape => "Invalid \\uXXXX escape"
  | .extraData => "Extra data"
  | .byteOrderMark => "Unexpected UTF-8 BOM (decode using utf-8-sig)"

/-- the words for a malformed node or tree -/
def NodeFault.message : NodeFault → Text
  | .notAnObject data => "Serialized node must be an object with a 'kind': " ++ data.display
  | .missing kind className attributes =>
    "Invalid " ++ kind ++ ": " ++ className ++ ".__init__() missing " ++ Number.decimal attributes.length ++
      (if attributes.length = 1 then " required positional argument: " else " required positional arguments: ") ++
      Fault.quotedList attributes
  | .nameNotText kind typeName =>
    "Invalid " ++ kind ++ ": expected string or bytes-like object, got " ++ Text.quoted typeName
  | .notJson cause place line column =>
    "Interface tree is not valid JSON: " ++ cause.message ++ ": line " ++ Number.decimal line ++ " column " ++
      Number.decimal column ++ " (char " ++ Number.decimal place ++ ")"
  | .notARoot kind => "Expected a rootNode or programNode, got " ++ kind

/-- a code point as it is named in the words for a pattern: itself when it is visible ASCII below `limit` -/
def PatternFault.named (limit c : Nat) : Text :=
  if 32 < c ∧ c < limit then [c] else "\\x" ++ Number.hexadecimal c

/-- the words for a name pattern that cannot be filled in -/
def PatternFault.message : PatternFault → Text
  | .singleOpen => "Single '\x7b' encountered in format string"
  | .singleClose => "Single '\x7d' encountered in format string"
  | .expectedClose => "expected '\x7d' before end of string"
  | .unexpectedOpen => "unexpected '\x7b' in field name"
  | .endInConversion => "end of string while looking for conversion specifier"
  | .expectedColon => "expected ':' after conversion specifier"
  | .unmatchedOpen => "unmatched '\x7b' in format spec"
  | .nestedTooDeep => "Max string recursion exceeded"
  | .tooManyDigits => "Too many decimal digits in format string"
  | .emptyAttribute => "Empty attribute in format string"
  | .missingBracket => "Missing ']' in format string"
  | .afterBracket => "Only '.' or '[' may follow ']' in format field specifier"
  | .unknownConversion c => "Unknown conversion specifier " ++ named 127 c
  | .invalidSpecifier spec typeName =>
    "Invalid format specifier '" ++ spec ++ "' for object of type '" ++ typeName ++ "'"
  | .unknownCode c typeName =>
    "Unknown format code '" ++ named 128 c ++ "' for object of type '" ++ typeName ++ "'"
  | .missingPrecision => "Format specifier missing precision"
  | .bothSeparators => "Cannot specify both ',' and '_'."
  | .separatorWith separator c => "Cannot specify '" ++ [separator] ++ "' with '" ++ named 128 c ++ "'."
  | .spaceSign => "Space not allowed in string format specifier"
  | .sign => "Sign not allowed in string format specifier"
  | .negativeZero => "Negative zero coercion (z) not allowed in string format specifier"
  | .alternate => "Alternate form (#) not allowed in string format specifier"
  | .equalsAlignment => "'=' alignment not allowed in string format specifier"
  | .integerPrecision => "Precision not allowed in integer format specifier"
  | .integerNegativeZero =>
    "Negative zero coercion (z) not allowed in format specifier with integer presentation type"
  | .characterSign => "Sign not allowed with integer format specifier 'c'"
  | .characterAlternate => "Alternate form (#) not allowed with integer format specifier 'c'"

/-- the words for an index out of range -/
def IndexFault.message : IndexFault → Text
  | .listIndex => "list index out of range"
  | .textIndex => "string index out of range"
  | .tupleIndex => "tuple index out of range"
  | .replacement index =>
    "Replacement index " ++ Number.decimal index ++ " out of range for positional args tuple"

/-- the number of a system answer -/
def OsCause.number : OsCause → Nat
  | .notFound => 2
  | .badDescriptor => 9
  | .permissionDenied => 13
  | .busy => 16
  | .exists => 17
  | .notADirectory => 20
  | .isADirectory => 21
  | .invalidArgument => 22
  | .nameTooLong => 36
  | .notEmpty => 39
  | .other number _ => number

/-- the words for a system answer -/
def OsCause.message : OsCause → Text
  | .notFound => "No such file or directory"
  | .badDescriptor => "Bad file descriptor"
  | .permissionDenied => "Permission denied"
  | .busy => "Device or resource busy"
  | .exists => "File exists"
  | .notADirectory => "Not a directory"
  | .isADirectory => "Is a directory"
  | .invalidArgument => "Invalid argument"
  | .nameTooLong => "File name too long"
  | .notEmpty => "Directory not empty"
  | .other _ words => words

def ConfigCode.label : ConfigCode → Text
  | .missingTree => "MISSING_IDL"
  | .pathNotFound => "PATH_NOT_FOUND"
  | .invalidTree => "INVALID_IDL"
  | .invalidNameOverride => "INVALID_NAME_OVERRIDE"
  | .unknownNameRole => "UNKNOWN_NAME_ROLE"
  | .invalidStrategy => "INVALID_STRATEGY"
  | .invalidGeneratedFolder => "INVALID_GENERATED_FOLDER"

def ConfigCode.all : List ConfigCode :=
  [.missingTree, .pathNotFound, .invalidTree, .invalidNameOverride, .unknownNameRole, .invalidStrategy,
    .invalidGeneratedFolder]

def ConfigCode.ofLabel? (t : Text) : Option ConfigCode := all.find? (·.label == t)

/-- a configuration fault under a label, which has to be the label of a code -/
def ConfigFault.ofLabel (label message : Text) (suggestion : Option Text) : Except Fault ConfigFault :=
  match ConfigCode.ofLabel? label with
  | some code => .ok ⟨code, message, suggestion⟩
  | none => .error (.unknownConfigCode label)

/-- the words for surrogates that have no octets -/
def Text.EncodeFault.message (e : Text.EncodeFault) : Text :=
  if e.count = 1 then
    "'utf-8' codec can't encode character " ++ Text.quotedAscii [e.first] ++ " in position " ++
      Number.decimal e.start ++ ": surrogates not allowed"
  else
    "'utf-8' codec can't encode characters in position " ++ Number.decimal e.start ++ "-" ++
      Number.decimal (e.start + e.count - 1) ++ ": surrogates not allowed"

def Text.DecodeReason.message : Text.DecodeReason → Text
  | .invalidStart => "invalid start byte"
  | .invalidContinuation => "invalid continuation byte"
  | .unexpectedEnd => "unexpected end of data"

/-- the words for octets that are no text -/
def Text.DecodeFault.message (e : Text.DecodeFault) : Text :=
  (if e.count = 1 then
    "'utf-8' codec can't decode byte 0x" ++ Text.hexDigits 2 e.octet.toNat ++ " in position " ++ Number.decimal e.start
  else
    "'utf-8' codec can't decode bytes in position " ++ Number.decimal e.start ++ "-" ++
      Number.decimal (e.start + e.count - 1)) ++ ": " ++ e.reason.message

/-- what callers tell apart: something used as what it is not, a member, key or place that is not there, a value that
is not acceptable, work that cannot go on, a limit of the machine, an answer of the system, of a formatter, or about
settings -/
inductive FaultFamily where
  | type
  | member
  | key
  | place
  | value
  | work
  | limit
  | system
  | formatter
  | settings
  deriving DecidableEq, Repr

def Fault.family : Fault → FaultFamily
  | .wrongType => .type
  | .missingAttribute => .member
  | .missingMember _ _ => .member
  | .outOfMemory => .limit
  | .integerTooLarge => .limit
  | .indexTooLarge => .limit
  | .repeatedTooLong => .limit
  | .noCharacter => .limit
  | .nestingTooDeep => .work
  | .tooDeep _ => .work
  | .refused _ => .work
  | .missingKey _ => .key
  | .index _ => .place
  | .os _ _ _ => .system
  | .formatter _ _ _ => .formatter
  | .config _ => .settings
  | _ => .value

/-- a path inside a system answer -/
def PathForm.show (form : PathForm) (path : Text) : Text :=
  match form with
  | .plain => Text.quoted path
  | .object => "PosixPath(" ++ Text.quoted path ++ ")"

namespace Fault

def message : Fault → Text
  | .wrongType => []
  | .missingAttribute => []
  | .outOfMemory => []
  | .integerTooLarge => "int too large to convert to float"
  | .indexTooLarge => "cannot fit 'int' into an index-sized integer"
  | .noCharacter => "%c arg not in range(0x110000)"
  | .repeatedTooLong => "repeated string is too long"
  | .tooDeep container =>
    "maximum recursion depth exceeded while decoding a JSON " ++
      (match container with
        | .array => "array"
        | .object => "object") ++ " from a unicode string"
  | .nestingTooDeep => "maximum recursion depth exceeded"
  | .missingKey key => Text.quoted key
  | .index cause => cause.message
  | .invalidNode cause => cause.message
  | .tooManyDigits count =>
    "Exceeds the limit (4300 digits) for integer string conversion: value has " ++ Number.decimal count ++
      " digits; use sys.set_int_max_str_digits() to increase the limit"
  | .integerTextTooLong =>
    "Exceeds the limit (4300 digits) for integer string conversion; use sys.set_int_max_str_digits() to increase the " ++
      "limit"
  | .pattern cause => cause.message
  | .missingMember (.ofObject typeName) member => "'" ++ typeName ++ "' object has no attribute '" ++ member ++ "'"
  | .missingMember (.ofType name) member => "type object '" ++ name ++ "' has no attribute '" ++ member ++ "'"
  | .missingMember .unnamed member => member
  | .invalidPlaceholder line column =>
    "Invalid placeholder in string: line " ++ Number.decimal line ++ ", col " ++ Number.decimal column
  | .invalidImport raw => "Invalid import input: " ++ Text.quoted raw
  | .unknownRoles roles => "Unknown name transformer role(s): " ++ Text.joinWith ", " roles
  | .unknownStrategy raw => Text.quoted raw ++ " is not a valid ModuleResolutionStrategy"
  | .unsafePath what whereTo path => what ++ " must be relative and inside " ++ whereTo ++ ": " ++ Text.quoted path
  | .notBelow path base =>
    Text.quoted path ++ " is not in the subpath of " ++ Text.quoted base ++
      " OR one path is relative and the other is absolute."
  | .emptyStack => "Node stack is empty"
  | .unexpectedTop expected found => "Expected " ++ expected ++ " on top of the node stack, got " ++ found
  | .unencodable cause => cause.message
  | .undecodable cause => cause.message
  | .embeddedNull => "embedded null byte"
  | .unknownNumberCode typeName => "Unknown format code 'x' for object of type " ++ Text.quoted typeName
  | .quoting .noClosingQuotation => "No closing quotation"
  | .quoting .noEscapedCharacter => "No escaped character"
  | .unknownConfigCode code => "Unknown config error code: " ++ code
  | .os cause path form => "[Errno " ++ Number.decimal cause.number ++ "] " ++ cause.message ++ ": " ++ form.show path
  | .formatter path status complaint =>
    let said := Text.strip complaint
    let tail : Text := if said.isEmpty then [] else ": " ++ said
    "Formatter exited with status " ++ Number.integer status ++ " for " ++ path ++ tail
  | .config cause => cause.message
  | .refused words => words

end Fault

end InterfacePages

/-
The command line.

A command line names a command, then its options. An option is written in full or by any beginning that no other
option has; its value is the next argument or follows an equals sign. Reading goes from left to right: the first thing
that cannot be read rejects the line, a call for help ends the reading, and an argument that belongs to nothing
rejects the line at the end.
-/
import InterfacePages.Text.Digit

namespace InterfacePages

namespace Command

inductive Kind where
  | docs
  | hooks
  deriving DecidableEq, Repr

def Kind.label : Kind → Text
  | .docs => "docs"
  | .hooks => "hooks"

def Kind.ofLabel? (t : Text) : Option Kind := [Kind.docs, Kind.hooks].find? (·.label == t)

inductive Flag where
  | help
  | idl
  | outputDir
  | generatedFolder
  | name
  | keepExisting
  | formatCommand
  | packageName
  | clientPackage
  | moduleResolution
  deriving DecidableEq, Repr

namespace Flag

/-- how an option is written in full -/
def label : Flag → Text
  | help => "--help"
  | idl => "--idl"
  | outputDir => "--output-dir"
  | generatedFolder => "--generated-folder"
  | name => "--name"
  | keepExisting => "--keep-existing"
  | formatCommand => "--format-command"
  | packageName => "--package-name"
  | clientPackage => "--client-package"
  | moduleResolution => "--module-resolution"

def shortHelp : Text := "-h"

def hasValue : Flag → Bool
  | help => false
  | keepExisting => false
  | _ => true

/-- the options of every command -/
def common : List Flag := [help, idl, outputDir, generatedFolder, name, keepExisting, formatCommand]

def ofCommand : Kind → List Flag
  | .docs => common ++ [packageName]
  | .hooks => common ++ [clientPackage, moduleResolution]

end Flag

/-- what an argument looks like -/
inductive Argument where
  | plain
  | separator
  | option (flag : Flag) (value : Option Text)
  | shortHelp (tail : Text)
  | unknown
  deriving DecidableEq, Repr

namespace Argument

/-- a decimal digit of any script -/
def isAnyDigit (c : Nat) : Bool := (Text.digitValue? c).isSome

/-- at least one digit, perhaps with a line feed behind -/
def areDigits (t : Text) : Bool :=
  let digits := if t.getLast? == some 10 then t.dropLast else t
  !digits.isEmpty && digits.all isAnyDigit

/-- a number with a minus sign, which is no option -/
def isNegative (t : Text) : Bool :=
  match t with
  | 45 :: rest =>
    match rest.dropWhile isAnyDigit with
    | 46 :: fraction => areDigits fraction
    | _ => areDigits rest
  | _ => false

/-- the options that start like an argument -/
def candidates (flags : List Flag) (start : Text) : List Flag := flags.filter fun f => Text.startsWith start f.label

/-- what an argument with two hyphens looks like; `none` if several options start like it -/
def ofLong (flags : List Flag) (t : Text) : Option Argument :=
  let (start, value) := match Text.cut? 61 t with
    | some (start, value) => (start, some value)
    | none => (t, none)
  match flags.find? (·.label == start) with
  | some flag => some (.option flag value)
  | none =>
    match candidates flags start with
    | [flag] => some (.option flag value)
    | [] => some (if t.contains 32 then .plain else .unknown)
    | _ => none

/-- what an argument looks like; `none` if several options start like it -/
def of (flags : List Flag) (t : Text) : Option Argument :=
  match t with
  | 45 :: 45 :: [] => some .separator
  | 45 :: 45 :: _ => ofLong flags t
  | 45 :: 104 :: tail => some (.shortHelp tail)
  | 45 :: _ :: _ => some (if isNegative t || t.contains 32 then .plain else .unknown)
  | _ => some .plain

/-- what arguments look like; after a separator all are plain -/
def ofAll (flags : List Flag) : List Text → Option (List (Argument × Text))
  | [] => some []
  | t :: rest =>
    match of flags t with
    | none => none
    | some .separator => some ((.separator, t) :: rest.map fun u => (.plain, u))
    | some a => (ofAll flags rest).map ((a, t) :: ·)

/-- a short call for help may be repeated in one argument, also behind an equals sign; nothing else may follow it -/
def callsForHelp (tail : Text) : Bool :=
  match tail with
  | 61 :: more => !more.isEmpty && more.all (· == 104)
  | more => more.all (· == 104)

end Argument

/-- the value of an option; two hyphens behind the equals sign stand for no value -/
abbrev Chosen := Option Text

/-- the value that is written behind an equals sign -/
def Chosen.ofWritten (t : Text) : Chosen := if t = Text.ofString "--" then none else some t

/-- the options that were given, in order -/
abbrev Given := List (Flag × Chosen)

/-- what a command line comes to -/
inductive Parsed where
  | command (kind : Kind) (given : Given)
  | help
  | rejected
  deriving DecidableEq, Repr

/-- reads the options of a command; `strays` tells whether some argument belonged to nothing -/
def parseOptions (kind : Kind) (strays : Bool) : Given → List (Argument × Text) → Parsed
  | given, [] => if strays then .rejected else .command kind given.reverse
  | given, (.plain, _) :: rest => parseOptions kind true given rest
  | given, (.separator, _) :: rest => parseOptions kind true given rest
  | given, (.unknown, _) :: rest => parseOptions kind true given rest
  | _, (.shortHelp tail, _) :: _ => if Argument.callsForHelp tail then .help else .rejected
  | given, (.option flag value, _) :: rest =>
    if !flag.hasValue then
      if value.isSome then .rejected
      else if flag = .help then .help
      else parseOptions kind strays ((flag, none) :: given) rest
    else
      match value with
      | some v => parseOptions kind strays ((flag, .ofWritten v) :: given) rest
      | none =>
        match rest with
        | (.plain, v) :: rest => parseOptions kind strays ((flag, some v) :: given) rest
        | _ => .rejected

/-- reads what stands before the command, then its options -/
def parseFrom (strays : Bool) : List (Argument × Text) → Parsed
  | [] => .rejected
  | (.separator, _) :: _ => .rejected
  | (.unknown, _) :: rest => parseFrom true rest
  | (.shortHelp tail, _) :: _ => if Argument.callsForHelp tail then .help else .rejected
  | (.option _ value, _) :: _ => if value.isSome then .rejected else .help
  | (.plain, t) :: rest =>
    match Kind.ofLabel? t with
    | none => .rejected
    | some kind =>
      match Argument.ofAll (Flag.ofCommand kind) (rest.map (·.2)) with
      | none => .rejected
      | some arguments => parseOptions kind strays [] arguments

/-- reads a command line -/
def parse (arguments : List Text) : Parsed :=
  match Argument.ofAll [.help] arguments with
  | none => .rejected
  | some arguments => parseFrom false arguments

namespace Given

def last? (given : Given) (flag : Flag) : Option Chosen := (given.reverse.find? (·.1 == flag)).map (·.2)

/-- all values given for an option, in order -/
def all (given : Given) (flag : Flag) : List Chosen := (given.filter (·.1 == flag)).map (·.2)

end Given

end Command

end InterfacePages

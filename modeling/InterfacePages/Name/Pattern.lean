/-
Name patterns: texts with replacement fields in braces, such as `useX` written with the field `pascalCase` for its
middle.

A pattern falls into literal text and fields; doubled braces are literal. A field names a spelling, perhaps goes on to
an item or a member of it, and perhaps has a conversion and a layout, which may contain fields itself. Reading and
filling in go hand in hand from left to right, so of two faults the first counts: `split` therefore gives the pieces
before a fault together with the fault.

`fill` is the whole: a pattern and a name give a text or a cause.
-/
import InterfacePages.Name.Case
import InterfacePages.Name.Layout
import InterfacePages.Reflection.Object

namespace InterfacePages

namespace Name

namespace Pattern

open Reflection (Object)

/-! ## Pieces of a pattern -/

/-- a replacement field: its name with items and members, the conversion, the layout, and whether that has fields -/
structure Field where
  name : Text
  conversion : Option Nat
  layout : Text
  nested : Bool
  deriving DecidableEq, Repr

inductive Piece where
  | literal (t : Text)
  | field (f : Field)
  deriving DecidableEq, Repr

/-- a code point that is neither brace -/
def isPlain (c : Nat) : Bool := c != 123 && c != 125

/-- the layout up to the brace that closes the field; `depth` braces are open -/
def splitLayout (nested : Bool) (done : Text) : Nat → Text → Except PatternFault (Text × Bool × Text)
  | _, [] => .error .unmatchedOpen
  | depth, 123 :: rest => splitLayout true (123 :: done) (depth + 1) rest
  | 0, 125 :: rest => .ok (done.reverse, nested, rest)
  | depth + 1, 125 :: rest => splitLayout nested (125 :: done) depth rest
  | depth, c :: rest => splitLayout nested (c :: done) depth rest

/-- what may follow a field's name: nothing, a conversion, a layout -/
def splitTail (name : Text) (terminator : Nat) (rest : Text) : Except PatternFault (Field × Text) :=
  let layoutOf (conversion : Option Nat) (rest : Text) : Except PatternFault (Field × Text) :=
    match splitLayout false [] 0 rest with
    | .error fault => .error fault
    | .ok (layout, nested, rest) => .ok (⟨name, conversion, layout, nested⟩, rest)
  if terminator = 125 then .ok (⟨name, none, [], false⟩, rest)
  else if terminator = 58 then layoutOf none rest
  else
    match rest with
    | [] => .error .endInConversion
    | [c] => layoutOf (some c) []
    | c :: 125 :: rest => .ok (⟨name, some c, [], false⟩, rest)
    | c :: 58 :: rest => layoutOf (some c) rest
    | _ => .error .expectedColon

/-- a field after its opening brace; inside square brackets every code point belongs to the name -/
def splitField (bracketed : Bool) (done : Text) : Text → Except PatternFault (Field × Text)
  | [] => .error .expectedClose
  | c :: rest =>
    if bracketed then splitField (c != 93) (c :: done) rest
    else if c = 123 then .error .unexpectedOpen
    else if c = 91 then splitField true (c :: done) rest
    else if c = 125 ∨ c = 58 ∨ c = 33 then splitTail done.reverse c rest
    else splitField false (c :: done) rest

def split : Nat → Text → List Piece × Option PatternFault
  | 0, _ => ([], none)
  | fuel + 1, t =>
    let plain := t.takeWhile isPlain
    match t.dropWhile isPlain with
    | [] => ([.literal plain], none)
    | 125 :: 125 :: rest =>
      let (pieces, fault) := split fuel rest
      (.literal (plain ++ [125]) :: pieces, fault)
    | 123 :: 123 :: rest =>
      let (pieces, fault) := split fuel rest
      (.literal (plain ++ [123]) :: pieces, fault)
    | 125 :: _ => ([], some .singleClose)
    | [_] => ([], some .singleOpen)
    | _ :: rest =>
      match splitField false [] rest with
      | .error fault => ([.literal plain], some fault)
      | .ok (field, rest) =>
        let (pieces, fault) := split fuel rest
        (.literal plain :: .field field :: pieces, fault)

/-! ## Values of a field -/

/-- the number a text writes when it is nothing but digits, within bounds -/
def wholeNumber (t : Text) : Except Fault (Option Nat) :=
  match Layout.leadingNumber t with
  | (_, 0, _) => .ok none
  | (n, _, rest) =>
    if Layout.maxNumber < n then .error (.pattern .tooManyDigits)
    else if rest.isEmpty then .ok (some n)
    else .ok none

/-- the spellings a pattern can name, for a name -/
def spelling? (name label : Text) : Option Text :=
  if label == Text.ofString "name" then some name
  else if label == Text.ofString "camelCase" then some (camelCase name)
  else if label == Text.ofString "capitalize" then some (capitalized name)
  else if label == Text.ofString "kebabCase" then some (kebabCase name)
  else if label == Text.ofString "pascalCase" then some (pascalCase name)
  else if label == Text.ofString "snakeCase" then some (snakeCase name)
  else if label == Text.ofString "titleCase" then some (titleCase name)
  else none

/-- a point or an opening bracket, where the next part of a field's name starts -/
def startsPart (c : Nat) : Bool := c == 46 || c == 91

/-- follows the parts of a field's name after the first -/
def follow : Nat → Text → Object → Except Fault Object
  | 0, _, o => .ok o
  | fuel + 1, t, o =>
    match t with
    | [] => .ok o
    | 46 :: rest =>
      let name := rest.takeWhile (!startsPart ·)
      if name.isEmpty then .error (.pattern .emptyAttribute)
      else do follow fuel (rest.dropWhile (!startsPart ·)) (← o.member name)
    | 91 :: rest =>
      match Text.cut? 93 rest with
      | none => .error (.pattern .missingBracket)
      | some (key, rest) => do
        let index ← wholeNumber key
        if key.isEmpty then throw (.pattern .emptyAttribute)
        follow fuel rest (← o.item ((index.map .place).getD (.key key)))
    | _ => .error (.pattern .afterBracket)

def object (name fieldName : Text) : Except Fault Object := do
  let first := fieldName.takeWhile (!startsPart ·)
  match ← wholeNumber first with
  | some index => throw (.index (.replacement index))
  | none =>
    if first.isEmpty then throw (.index (.replacement 0))
    match spelling? name first with
    | none => throw (.missingKey first)
    | some t => follow (fieldName.length + 1) (fieldName.dropWhile (!startsPart ·)) (.text t)

/-- an object after a field's conversion; the code point zero is no conversion -/
def convert (conversion : Option Nat) (o : Object) : Except Fault Object :=
  match conversion with
  | none => .ok o
  | some c =>
    if c = 0 then .ok o
    else if c = 115 then .ok (.text o.display)
    else if c = 114 then .ok (.text o.quoted)
    else if c = 97 then
      match o with
      | .text t => .ok (.text (Text.quotedAscii t))
      | other => .ok (.text other.display)
    else .error (.pattern (.unknownConversion c))

/-- an object laid out; the empty layout is no layout -/
def layOut (layout : Text) (o : Object) : Except Fault Text :=
  if layout.isEmpty then .ok o.display
  else
    match o with
    | .text t => do (← Layout.read .text layout).applyText t
    | .whole n => do (← Layout.read .whole layout).applyWhole n
    | _ => .error .wrongType

/-! ## The whole -/

/-- fills in pieces; `inner` fills in the layouts that have fields -/
def fillPieces (inner : Text → Except Fault Text) (name : Text) : List Piece → Except Fault Text
  | [] => .ok []
  | .literal t :: rest => do return t ++ (← fillPieces inner name rest)
  | .field f :: rest => do
    let o ← convert f.conversion (← object name f.name)
    let layout ← if f.nested then inner f.layout else pure f.layout
    let shown ← layOut layout o
    return shown ++ (← fillPieces inner name rest)

/-- fills in a pattern with layouts nested at most `depth` deep -/
def fillAt (name : Text) : Nat → Text → Except Fault Text
  | 0, _ => .error (.pattern .nestedTooDeep)
  | depth + 1, t => do
    let (pieces, fault) := split (t.length + 1) t
    let filled ← fillPieces (fillAt name depth) name pieces
    match fault with
    | some fault => throw (.pattern fault)
    | none => return filled

def fill (pattern name : Text) : Except Fault Text := fillAt name 2 pattern

end Pattern

end Name

end InterfacePages

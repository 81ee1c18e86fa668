/-
Octets in a row, as files and tools have them.

The classes are those of ASCII. `Octets.ofText` and `Octets.text` lead from a text to its octets and back; an octet
that is no part of a code point is shown as the surrogate that stands for it, so none is lost.
-/
import InterfacePages.Number.Digits
import InterfacePages.Text.Utf8

namespace InterfacePages

abbrev Octets := List UInt8

namespace Octets

/-- the octets of a text, in which surrogates may stand for octets -/
def ofText (t : Text) : Octets := t.flatMap Text.strayOctetsOf

instance : Coe String Octets := ⟨fun s => ofText (Text.ofString s)⟩

/-- the text of some octets; `skip` octets belong to the code point before -/
def textFrom : Nat → Octets → Text
  | _, [] => []
  | skip + 1, _ :: rest => textFrom skip rest
  | 0, first :: rest =>
    match Text.decodeOne first rest with
    | .ok (c, more) => c :: textFrom more rest
    | .error _ => (0xDC00 + first.toNat) :: textFrom 0 rest

/-- the text of some octets, with a surrogate for each octet that is no text -/
def text (os : Octets) : Text := textFrom 0 os

def decimal (n : Nat) : Octets := ofText (Number.decimal n)

/-- the decimal digits of a number after its sign -/
def integer (n : Int) : Octets := ofText (Number.integer n)

/-- the octets with others between neighbours -/
def joinWith (separator : Octets) : List Octets → Octets
  | [] => []
  | [piece] => piece
  | piece :: pieces => piece ++ separator ++ joinWith separator pieces

/-- order by octet, a beginning before what it begins -/
def le : Octets → Octets → Bool
  | [], _ => true
  | _ :: _, [] => false
  | a :: as, b :: bs => if a = b then le as bs else decide (a < b)

end Octets

namespace Octet

def isDigit (c : UInt8) : Bool := decide (48 ≤ c) && decide (c ≤ 57)

def isOctal (c : UInt8) : Bool := decide (48 ≤ c) && decide (c ≤ 55)

def isUpper (c : UInt8) : Bool := decide (65 ≤ c) && decide (c ≤ 90)

def isLower (c : UInt8) : Bool := decide (97 ≤ c) && decide (c ≤ 122)

def isAlpha (c : UInt8) : Bool := isUpper c || isLower c

def isAlphanumeric (c : UInt8) : Bool := isAlpha c || isDigit c

def isHexadecimal (c : UInt8) : Bool :=
  isDigit c || (decide (65 ≤ c) && decide (c ≤ 70)) || (decide (97 ≤ c) && decide (c ≤ 102))

/-- the value of a hexadecimal digit -/
def value (c : UInt8) : Nat :=
  if isDigit c then c.toNat - 48 else if isUpper c then c.toNat - 55 else c.toNat - 87

def isSpace (c : UInt8) : Bool := c == 32 || (decide (9 ≤ c) && decide (c ≤ 13))

/-- an octet with a visible form -/
def isGraphic (c : UInt8) : Bool := decide (33 ≤ c) && decide (c ≤ 126)

/-- an octet with a visible form or a space -/
def isPrintable (c : UInt8) : Bool := decide (32 ≤ c) && decide (c ≤ 126)

/-- a visible octet that is neither letter nor digit -/
def isPunctuation (c : UInt8) : Bool := isGraphic c && !isAlphanumeric c

def isControl (c : UInt8) : Bool := decide (c < 32) || c == 127

/-- may begin a name -/
def isNameStart (c : UInt8) : Bool := isAlpha c || c == 95

/-- may stand in a name -/
def isNamePart (c : UInt8) : Bool := isNameStart c || isDigit c

def classes : List (Octets × (UInt8 → Bool)) := [
  ("alnum", isAlphanumeric), ("alpha", isAlpha), ("blank", fun c => c == 32 || c == 9), ("cntrl", isControl),
  ("digit", isDigit), ("graph", isGraphic), ("lower", isLower), ("print", isPrintable), ("punct", isPunctuation),
  ("space", isSpace), ("upper", isUpper), ("xdigit", isHexadecimal)]

def class? (name : Octets) : Option (UInt8 → Bool) := classes.lookup name

def all : Octets := (List.range 256).map Nat.toUInt8

end Octet

namespace Octets

/-- whether octets are a name: a letter or a low line and then letters, digits and low lines -/
def isName : Octets → Bool
  | [] => false
  | c :: rest => Octet.isNameStart c && rest.all Octet.isNamePart

def valueIn (base : Nat) (digits : Octets) : Nat := digits.foldl (fun n c => n * base + Octet.value c) 0

end Octets

end InterfacePages

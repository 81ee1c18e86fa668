/-
The six spellings of a name.

A name falls into words at its ASCII capitals, which start a word, and at separators, which are dropped: hyphen,
underscore, plus, point and white space. A word is capitalised by the case mappings of all of Unicode.
-/
import InterfacePages.Text.Blank
import InterfacePages.Text.Case

namespace InterfacePages

namespace Name

/-- what stands between the words of a name -/
def isSeparator (c : Nat) : Bool := c == 45 || c == 95 || c == 43 || c == 46 || Text.isBlank c

/-- the first code point in upper case and the others in lower case -/
def capitalized : Text → Text
  | [] => []
  | c :: rest => Text.upper [c] ++ Text.lower rest

def spaced (t : Text) : Text := t.flatMap fun c => if Text.isCapital c then [32, c] else [c]

/-- the words of a name, each capitalised -/
def capitalizedWords (t : Text) : List Text := (Text.pieces isSeparator (spaced t)).map capitalized

/-- `My Name` -/
def titleCase (t : Text) : Text := Text.joinWith " " (capitalizedWords t)

/-- `MyName` -/
def pascalCase (t : Text) : Text := (capitalizedWords t).flatten

/-- `myName` -/
def camelCase (t : Text) : Text := Text.lower ((pascalCase t).take 1) ++ (pascalCase t).drop 1

/-- `my-name` -/
def kebabCase (t : Text) : Text := Text.lower (Text.joinWith "-" (capitalizedWords t))

/-- `my_name` -/
def snakeCase (t : Text) : Text := Text.lower (Text.joinWith "_" (capitalizedWords t))

end Name

end InterfacePages

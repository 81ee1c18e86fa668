/-
Quoted text, as error messages show it.

The quote is an apostrophe unless the text has one and has no quotation mark. The quote, the backslash, tab, line feed
and carriage return have short escapes; what is not printable is written by number with two, four or eight digits.
-/
import InterfacePages.Text.Basic
import InterfacePages.Text.Printable

namespace InterfacePages

namespace Text

/-- a lower-case hexadecimal digit -/
def hexDigit (n : Nat) : Nat := if n < 10 then 48 + n else 87 + n

/-- the last `width` hexadecimal digits of a number -/
def hexDigits : Nat → Nat → Text
  | 0, _ => []
  | width + 1, n => hexDigits width (n / 16) ++ [hexDigit (n % 16)]

/-- a code point by number -/
def numberEscape (c : Nat) : Text :=
  if c < 0x100 then "\\x" ++ hexDigits 2 c
  else if c < 0x10000 then "\\u" ++ hexDigits 4 c
  else "\\U" ++ hexDigits 8 c

/-- one code point inside quotes -/
def quotedOne (plain : Nat → Bool) (quote c : Nat) : Text :=
  if c = quote ∨ c = 92 then [92, c]
  else if c = 9 then "\\t"
  else if c = 10 then "\\n"
  else if c = 13 then "\\r"
  else if plain c then [c]
  else numberEscape c

/-- the quote that needs the fewest escapes, an apostrophe if in doubt -/
def quoteFor (t : Text) : Nat := if t.contains 39 && !t.contains 34 then 34 else 39

/-- the text in quotes, with every code point outside `plain` escaped -/
def quotedWith (plain : Nat → Bool) (t : Text) : Text :=
  [quoteFor t] ++ t.flatMap (quotedOne plain (quoteFor t)) ++ [quoteFor t]

/-- the text in quotes, printable code points as they are -/
def quoted (t : Text) : Text := quotedWith isPrintable t

/-- the text in quotes, in ASCII -/
def quotedAscii (t : Text) : Text := quotedWith (fun c => decide (c < 127) && isPrintable c) t

end Text

end InterfacePages

/-
The words of a command line.

White space separates words. Apostrophes take everything up to the next one as it is; between quotation marks a
backslash takes a backslash or a quotation mark as it is and stays before anything else; outside, a backslash takes
any one code point as it is. A pair of quotes makes a word even if nothing stands between them.
-/
import InterfacePages.Fault

namespace InterfacePages

namespace Formatter

inductive Reading where
  | between
  | word
  | escaped
  | apostrophes
  | quotationMarks
  | escapedInMarks
  deriving DecidableEq, Repr

def separates (c : Nat) : Bool := c == 32 || c == 9 || c == 13 || c == 10

/-- reads on; `word` is the word being read, last code point first -/
def wordsFrom : Reading → Text → Text → Except Fault (List Text)
  | .between, _, [] => .ok []
  | .word, word, [] => .ok [word.reverse]
  | .escaped, _, [] => .error (.quoting .noEscapedCharacter)
  | .escapedInMarks, _, [] => .error (.quoting .noEscapedCharacter)
  | .apostrophes, _, [] => .error (.quoting .noClosingQuotation)
  | .quotationMarks, _, [] => .error (.quoting .noClosingQuotation)
  | .between, _, c :: rest =>
    if separates c then wordsFrom .between [] rest
    else if c = 92 then wordsFrom .escaped [] rest
    else if c = 39 then wordsFrom .apostrophes [] rest
    else if c = 34 then wordsFrom .quotationMarks [] rest
    else wordsFrom .word [c] rest
  | .word, word, c :: rest =>
    if separates c then do return word.reverse :: (← wordsFrom .between [] rest)
    else if c = 92 then wordsFrom .escaped word rest
    else if c = 39 then wordsFrom .apostrophes word rest
    else if c = 34 then wordsFrom .quotationMarks word rest
    else wordsFrom .word (c :: word) rest
  | .escaped, word, c :: rest => wordsFrom .word (c :: word) rest
  | .apostrophes, word, c :: rest =>
    if c = 39 then wordsFrom .word word rest else wordsFrom .apostrophes (c :: word) rest
  | .quotationMarks, word, c :: rest =>
    if c = 34 then wordsFrom .word word rest
    else if c = 92 then wordsFrom .escapedInMarks word rest
    else wordsFrom .quotationMarks (c :: word) rest
  | .escapedInMarks, word, c :: rest =>
    wordsFrom .quotationMarks (if c = 92 ∨ c = 34 then c :: word else c :: 92 :: word) rest

def words (command : Text) : Except Fault (List Text) := wordsFrom .between [] command

/-- what stands for the path of a page in a command line -/
def pathMark : Text := "\x7bpath\x7d"

def wordsFor (command path : Text) : Except Fault (List Text) := do
  return (← words command).map (Text.replaceAll pathMark path)

end Formatter

end InterfacePages

/-
White space: the 29 code points that separate words, ASCII controls and Unicode spaces alike.

`words` drops every run of white space; `strip` removes it from both ends.
-/
import InterfacePages.Text.Basic

namespace InterfacePages

namespace Text

/-- white space of any kind -/
def isBlank (c : Nat) : Bool :=
  (decide (9 ≤ c) && decide (c ≤ 13)) || (decide (28 ≤ c) && decide (c ≤ 32)) || c == 0x85 || c == 0xA0 ||
  c == 0x1680 || (decide (0x2000 ≤ c) && decide (c ≤ 0x200A)) || c == 0x2028 || c == 0x2029 || c == 0x202F ||
  c == 0x205F || c == 0x3000

/-- the text without white space at its ends -/
def strip (t : Text) : Text := trimBoth isBlank t

/-- the maximal pieces whose code points are all outside a class; `word` is the piece being read, last first -/
def piecesFrom (separates : Nat → Bool) (word : Text) : Text → List Text
  | [] => if word.isEmpty then [] else [word.reverse]
  | c :: rest =>
    if separates c then
      if word.isEmpty then piecesFrom separates [] rest else word.reverse :: piecesFrom separates [] rest
    else piecesFrom separates (c :: word) rest

/-- the non-empty pieces between code points of a class -/
def pieces (separates : Nat → Bool) (t : Text) : List Text := piecesFrom separates [] t

/-- the words between runs of white space -/
def words (t : Text) : List Text := pieces isBlank t

end Text

end InterfacePages

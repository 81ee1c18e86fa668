/-
Upper and lower case of whole texts, with the mappings that change a text's length and the final sigma.

`upper` maps each code point on its own. `lower` does too, except that a capital sigma becomes a final sigma when the
nearest unskipped neighbour before it is a cased letter and the one after it is not.
-/
import InterfacePages.Text.Basic
import InterfacePages.Text.CaseTable

namespace InterfacePages

namespace Text

/-- an ASCII capital letter -/
def isCapital (c : Nat) : Bool := decide (65 ≤ c) && decide (c ≤ 90)

/-- an ASCII small letter -/
def isSmall (c : Nat) : Bool := decide (97 ≤ c) && decide (c ≤ 122)

/-- the upper-case form of one code point -/
def upperOne (c : Nat) : Text :=
  if c < 128 then if isSmall c then [c - 32] else [c]
  else
    match longUppers.lookup c with
    | some t => t
    | none => [(CaseRun.find? upperRuns c).getD c]

/-- the lower-case form of one code point that has no neighbours -/
def lowerOne (c : Nat) : Text :=
  if c < 128 then if isCapital c then [c + 32] else [c]
  else
    match longLowers.lookup c with
    | some t => t
    | none => [(CaseRun.find? lowerRuns c).getD c]

def upper (t : Text) : Text := t.flatMap upperOne

/-- a cased letter that ends the search beside a capital sigma -/
def isCased (c : Nat) : Bool := if c < 128 then isCapital c || isSmall c else inRanges casedRanges c

/-- a mark that the search beside a capital sigma skips -/
def isCaselessMark (c : Nat) : Bool := inRanges caselessMarkRanges c

/-- whether the nearest code point that is not skipped is a cased letter -/
def meetsCased (t : Text) : Bool :=
  match t.dropWhile isCaselessMark with
  | [] => false
  | c :: _ => isCased c

def capitalSigma : Nat := 0x3A3

/-- lower case of what follows the code points in `before`, nearest first -/
def lowerAfter (before : Text) : Text → Text
  | [] => []
  | c :: rest =>
    (if c = capitalSigma then (if meetsCased before && !meetsCased rest then [0x3C2] else [0x3C3]) else lowerOne c) ++
      lowerAfter (c :: before) rest

def lower (t : Text) : Text := lowerAfter [] t

end Text

end InterfacePages

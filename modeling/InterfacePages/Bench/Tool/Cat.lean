/-
`cat` copies files, or the input, one after the other.

Lines can be numbered, their ends and what is not printable can be shown, and of empty lines in a row all but one can
be left out. Where a line has got to carries over from one file to the next.
-/
import InterfacePages.Bench.Tool.Quoting

namespace InterfacePages

namespace Bench

namespace Cat

open Shell

structure Options where
  numbers : Bool
  skipsEmpty : Bool
  ends : Bool
  squeezes : Bool
  tabs : Bool
  visible : Bool
  deriving DecidableEq, Repr, Inhabited

def known : Tool.Known where
  letters := "benstuvAET"
  names := [
    ("number-nonblank", 98), ("number", 110), ("squeeze-blank", 115), ("show-nonprinting", 118), ("show-ends", 69),
    ("show-tabs", 84), ("show-all", 65)]

def Options.ofLetters (letters : Octets) : Options :=
  let any (of : Octets) : Bool := letters.any of.contains
  ⟨any "bn", any "b", any "eAE", any "s", any "tAT", any "etvA"⟩

/-- nothing is done to lines -/
def Options.isPlain (o : Options) : Bool := o == ⟨false, false, false, false, false, false⟩

/-- how far the lines are: their number, how many line feeds stand in a row, if the last octet was one, and whether a
carriage return has been held back -/
structure Progress where
  line : Nat
  newlines : Option Nat
  held : Bool
  deriving DecidableEq, Repr, Inhabited

/-- nothing has been copied -/
def Progress.start : Progress := ⟨0, some 0, false⟩

def lineNumber (n : Nat) : Octets :=
  let digits := Octets.decimal n
  List.replicate (6 - digits.length) 32 ++ digits ++ [9]

def visibleForm (tabs : Bool) (c : UInt8) : Octets :=
  let low (c : UInt8) : Octets := if c < 32 then [94, c + 64] else if c = 127 then [94, 63] else [c]
  if c = 9 && !tabs then [c] else if c < 128 then low c else 77 :: 45 :: low (c - 128)

/-- what an octet other than a line feed becomes -/
def form (o : Options) (c : UInt8) : Octets :=
  if o.visible then visibleForm o.tabs c else if c = 9 && o.tabs then [94, 73] else [c]

/-- what an octet adds to the output, last octet first -/
def step (o : Options) (s : Progress × Octets) (c : UInt8) : Progress × Octets :=
  let (p, out) := s
  if c = 10 then
    let count := match p.newlines with
      | none => 0
      | some n => min (n + 1) 2
    if o.squeezes && count == 2 then ({ p with newlines := some count }, out)
    else
      let numbered := o.numbers && !o.skipsEmpty && decide (0 < count)
      let line := if numbered then p.line + 1 else p.line
      let out := if numbered then (lineNumber line).reverse ++ out else out
      let out := if p.held then (if o.ends then [77, 94] else [13]) ++ out else out
      let out := if o.ends then 36 :: out else out
      (⟨line, some count, false⟩, 10 :: out)
  else
    let out := if p.held then 13 :: out else out
    let numbered := o.numbers && p.newlines.isSome
    let line := if numbered then p.line + 1 else p.line
    let out := if numbered then (lineNumber line).reverse ++ out else out
    if c = 13 && o.ends && !o.visible then (⟨line, none, true⟩, out)
    else (⟨line, none, false⟩, (form o c).reverse ++ out)

/-- what octets become, and how far the lines are then -/
def copied (o : Options) (p : Progress) (os : Octets) : Progress × Octets :=
  if o.isPlain then (p, os)
  else
    let (p, out) := os.foldl (step o) (p, [])
    (p, out.reverse)

def copiesItself (source : Stream) : Run Bool := do
  match source, ← Run.stream? 1 with
  | .file place offset _ _ _, some (_, .file target _ _ _ _) =>
    return place == target && decide (offset < (← Run.fileAt place).length)
  | _, _ => return false

/-- copies what is left of a descriptor or stream -/
def copyFrom (called name : Octets) (o : Options) (p : Progress) (number : Nat) (source : Stream) :
    Run (Progress × Bool) := do
  if ← copiesItself source then
    Tool.complain called (Quoting.name name ++ ": input file is output file")
    return (p, false)
  match ← Run.readStream (← Run.left source) number source with
  | .error cause =>
    Tool.complain called (Quoting.name name ++ ": " ++ Tool.causeWords cause)
    return (p, false)
  | .ok os =>
    let (p, out) := copied o p os
    return (p, ← Tool.output called out)

/-- copies one file, or the input -/
def copyOne (called : Octets) (o : Options) (p : Progress) (name : Octets) : Run (Progress × Bool) := do
  let complain (cause : OsCause) : Run (Progress × Bool) := do
    Tool.complain called (Quoting.name name ++ ": " ++ Tool.causeWords cause)
    return (p, false)
  if name = [45] then
    match ← Run.stream? 0 with
    | none => complain .badDescriptor
    | some (number, source) => copyFrom called name o p number source
  else
    match ← Run.openInput name with
    | .error cause => complain cause
    | .ok number =>
      match (← get).streams[number]? with
      | none => complain .badDescriptor
      | some source => copyFrom called name o p number source

/-- copies files one after the other -/
def copyAll (called : Octets) (o : Options) : List Octets → Progress → Bool → Run (Progress × Bool)
  | [], p, fine => return (p, fine)
  | name :: names, p, fine => do
    let (p, ok) ← copyOne called o p name
    copyAll called o names p (fine && ok)

/-- copies files, or the input -/
def run : Tool := fun called args => do
  let parsed := Tool.parse known true args
  match parsed.complaint with
  | some words => Tool.misused called words
  | none =>
    if (← Run.stream? 1).isNone then
      Tool.complain called ("standard output: " ++ Tool.causeWords .badDescriptor)
      return 1
    let names := if parsed.operands.isEmpty then [[45]] else parsed.operands
    let (p, fine) ← copyAll called (.ofLetters parsed.letters) names .start true
    let fine ← if p.held then do
        let ok ← Tool.output called [13]
        pure (fine && ok)
      else pure fine
    if names.contains [45] && (← Run.stream? 0).isNone then
      Tool.complain called ("closing standard input: " ++ Tool.causeWords .badDescriptor)
      return 1
    return if fine then 0 else 1

end Cat

end Bench

end InterfacePages

/-
Templates: text with places for parts.

`$` and a key, or `$` and a key in braces, stands for the part with that key; `$$` is a dollar. A key consists of
letters, digits and underscores. Any other dollar is an error at its line and column. A template is read once from
left to right, so a dollar inside a part has no meaning; the first dollar that stands for no part decides the outcome.

`Template.fill` does this for texts, `Template.compose` for fragments, whose imports are merged whether or not the
template uses them.
-/
import InterfacePages.Fragment.Basic

namespace InterfacePages

namespace Template

/-- letters are the ASCII ones and those four that differ from an ASCII letter by case alone -/
def isLetter (c : Nat) : Bool :=
  (decide (97 ≤ c) && decide (c ≤ 122)) || (decide (65 ≤ c) && decide (c ≤ 90)) ||
  c == 0x130 || c == 0x131 || c == 0x17F || c == 0x212A

def isKeyLetter (c : Nat) : Bool := isLetter c || Number.isDigit c || c == 95

def endsLine (c : Nat) : Bool :=
  (decide (10 ≤ c) && decide (c ≤ 13)) || (decide (28 ≤ c) && decide (c ≤ 30)) || c == 0x85 ||
    c == 0x2028 || c == 0x2029

/-- the line and column reached after some text -/
def position : Nat × Nat → Text → Nat × Nat
  | place, [] => place
  | place, 13 :: 10 :: rest => position (place.1 + 1, 0) rest
  | place, c :: rest => position (if endsLine c then (place.1 + 1, 0) else (place.1, place.2 + 1)) rest

/-- what a dollar introduces -/
inductive Mark where
  | dollar
  | key (name : Text) (width : Nat)
  | invalid
  deriving DecidableEq, Repr

/-- what a dollar before some text introduces -/
def Mark.of : Text → Mark
  | [] => .invalid
  | c :: rest =>
    if c = 36 then .dollar
    else if c = 123 then
      let name := rest.takeWhile isKeyLetter
      if !name.isEmpty && (rest.dropWhile isKeyLetter).head? == some 125 then .key name (name.length + 2) else .invalid
    else
      let name := (c :: rest).takeWhile isKeyLetter
      if name.isEmpty then .invalid else .key name name.length

/-- puts parts into what is left of a template; `before` has been read, last code point first, and the next `skip` code
points belong to the last mark -/
def fillFrom (part : Text → Option Text) (before : Text) : Nat → Text → Except Fault Text
  | _, [] => .ok []
  | skip + 1, c :: rest => fillFrom part (c :: before) skip rest
  | 0, c :: rest =>
    if c ≠ 36 then do return c :: (← fillFrom part (c :: before) 0 rest)
    else
      match Mark.of rest with
      | .dollar => do return 36 :: (← fillFrom part (c :: before) 1 rest)
      | .key name width =>
        match part name with
        | some t => do return t ++ (← fillFrom part (c :: before) width rest)
        | none => .error (.missingKey name)
      | .invalid =>
        let place := position (1, 0) (c :: before).reverse
        .error (.invalidPlaceholder place.1 place.2)

def fill (template : Text) (part : Text → Option Text) : Except Fault Text := fillFrom part [] 0 template

inductive Part where
  | text (t : Text)
  | fragment (f : Fragment)

def Part.content : Part → Text
  | .text t => t
  | .fragment f => f.content

def Part.imports? : Part → Option ImportTable
  | .text _ => none
  | .fragment f => some f.imports

/-- the one key that cannot be given -/
def reserved : Text := "template"

/-- parts by key: those without a name under their number, then the named ones -/
def partsByKey (parts : List Part) (named : List (Text × Part)) : OrderedMap Text Part :=
  OrderedMap.ofList (parts.zipIdx.map (fun p => (Number.decimal p.2, p.1)) ++ named)

def compose (template : Text) (parts : List Part) (named : List (Text × Part)) : Except Fault Fragment := do
  if named.any (·.1 == reserved) then throw .wrongType
  let byKey := partsByKey parts named
  let content ← fill template fun key => (byKey.get? key).map Part.content
  return ⟨content, ImportTable.merge (byKey.entries.filterMap fun e => e.2.imports?)⟩

end Template

end InterfacePages

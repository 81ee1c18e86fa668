/-
Paths: a root and the names that lead from it.

A path is relative or starts at one of two roots, `/` and `//`. Empty names and points are dropped, so two spellings
can be one path; `..` is a name like any other. The text of a path without root and names is a point.

`Path.inside` accepts the texts that stay below the folder they are joined to.
-/
import InterfacePages.Fault

namespace InterfacePages

namespace Files

/-- where a path starts -/
inductive Root where
  | relative
  | single
  | double
  deriving DecidableEq, Repr

def Root.text : Root → Text
  | .relative => []
  | .single => "/"
  | .double => "//"

/-- a root and the names that lead from it -/
structure Path where
  root : Root
  parts : List Text
  deriving DecidableEq, Repr

namespace Path

/-- how many slashes a text starts with decides its root -/
def rootOf : Text → Root
  | 47 :: 47 :: 47 :: _ => .single
  | 47 :: 47 :: _ => .double
  | 47 :: _ => .single
  | _ => .relative

def partsOf (t : Text) : List Text := (Text.splitOn 47 t).filter fun part => !part.isEmpty && part != [46]

def ofText (t : Text) : Path := ⟨rootOf t, partsOf t⟩

def text (p : Path) : Text :=
  let t := p.root.text ++ Text.joinWith "/" p.parts
  if t.isEmpty then "." else t

/-- the path that further names lead to -/
def join (p : Path) (parts : List Text) : Path := { p with parts := p.parts ++ parts }

/-- the path without its last name -/
def parent (p : Path) : Path := { p with parts := p.parts.dropLast }

/-- the names that lead on from another path, if it is a beginning of this one -/
def below? (p base : Path) : Option (List Text) :=
  if p.root = base.root ∧ base.parts.isPrefixOf p.parts then some (p.parts.drop base.parts.length) else none

/-- the names that lead on from another path -/
def below (p base : Path) : Except Fault (List Text) :=
  match p.below? base with
  | some parts => .ok parts
  | none => .error (.notBelow p.text base.text)

/-- whether a path leads below the folder it is joined to -/
def isInside (p : Path) : Bool := p.root == .relative && !p.parts.contains (Text.ofString "..") && !p.parts.isEmpty

/-- the path that a text writes, if it leads below the folder it is joined to -/
def inside (what whereTo t : Text) : Except Fault Path :=
  let p := ofText t
  if p.isInside then .ok p else .error (.unsafePath what whereTo t)

def ofPage (t : Text) : Except Fault Path := inside "Render map path" "the output dir" t

def generatedFolder (package : Path) (folder : Text) : Except Fault Path := do
  return package.join (← inside "Generated folder" "the package folder" folder).parts

end Path

end Files

end InterfacePages

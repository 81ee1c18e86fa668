/-
Nodes from JSON.

An object becomes the node its `kind` names. Its other keys are read in order and in snake case; a key that names no
attribute of the kind is passed over without looking at its value, and of two keys for one attribute the later counts.
Attributes left out get their defaults. An object of another kind is kept as it is.

`Node.ofJson` reads any node, `Node.rootOfJson` and `Node.rootOfText` a whole tree.
-/
import InterfacePages.Name.Case
import InterfacePages.Node.Basic

namespace InterfacePages

/-- an underscore before every ASCII capital but one at the start -/
def Attr.separated : Text → Text
  | [] => []
  | c :: rest => c :: rest.flatMap fun d => if Text.isCapital d then [95, d] else [d]

def Attr.ofKey? (key : Text) : Option Attr := Attr.ofLabel? (Text.lower (Attr.separated key))

namespace Node

/-- the name a node keeps: a text in camel case; a value that is not given stays as it is -/
def storedName (kind : Kind) (v : Value) : Except Fault Value :=
  if !v.isGiven then .ok v
  else
    match v with
    | .text t => .ok (.text (Name.camelCase t))
    | other => .error (.invalidNode (.nameNotText kind.tag other.typeName))

def missingLabels (slots : List Slot) (given : List (Attr × Value)) : List Text :=
  slots.filterMap fun
    | .required a => if given.any (·.1 == a) then none else some a.label
    | .optional _ _ => none

/-- one value for every slot: the last one given or else the default -/
def fillSlots (slots : List Slot) (given : List (Attr × Value)) : List (Attr × Value) :=
  slots.map fun slot =>
    match OrderedMap.lookupIn slot.attr given with
    | some v => (slot.attr, v)
    | none =>
      match slot with
      | .required a => (a, .absent)
      | .optional a default => (a, default)

def storeName (kind : Kind) : List (Attr × Value) → Except Fault (List (Attr × Value))
  | [] => .ok []
  | (.name, v) :: rest => do return (.name, ← storedName kind v) :: (← storeName kind rest)
  | (a, v) :: rest => do return (a, v) :: (← storeName kind rest)

/-- the node of a kind with the attributes that were given, at most one value each -/
def make (kind : Kind) (given : List (Attr × Value)) : Except Fault Node :=
  match missingLabels kind.slots given with
  | [] => do return .known kind (← storeName kind (fillSlots kind.slots given))
  | labels => .error (.invalidNode (.missing kind.tag kind.className labels))

def admits (kind : Kind) (a : Attr) : Bool := kind.slots.any (·.attr == a)

mutual

/-- the node an object stands for -/
def ofJson : Json → Except Fault Node
  | .object fields =>
    match OrderedMap.lookupIn (Text.ofString "kind") fields with
    | none => .error (.invalidNode (.notAnObject (.object fields)))
    | some (.array _) => .error .wrongType
    | some (.object _) => .error .wrongType
    | some (.text tag) =>
      match Kind.ofTag? tag with
      | some kind => do make kind (← givenOf kind fields [])
      | none => .ok (.unknown (.text tag) fields)
    | some scalar => .ok (.unknown scalar fields)
  | other => .error (.invalidNode (.notAnObject other))

/-- the attributes that some fields give to a node of a kind, after those in `done` -/
def givenOf (kind : Kind) : List (Text × Json) → List (Attr × Value) → Except Fault (List (Attr × Value))
  | [], done => .ok done
  | (key, data) :: rest, done =>
    if key = Text.ofString "kind" then givenOf kind rest done
    else
      match Attr.ofKey? key with
      | none => givenOf kind rest done
      | some a =>
        if admits kind a then do
          let v ← valueOf data
          givenOf kind rest (OrderedMap.upsertIn a (fun _ => v) done)
        else givenOf kind rest done

/-- the value that data stands for: an object is a node, an array a tuple -/
def valueOf : Json → Except Fault Value
  | .null => .ok .absent
  | .bool b => .ok (.bool b)
  | .int n => .ok (.int n)
  | .float x => .ok (.float x)
  | .text t => .ok (.text t)
  | .array items => do return .tuple (← valuesOf items)
  | .object fields => do return .node (← ofJson (.object fields))

/-- the values that some data stand for -/
def valuesOf : List Json → Except Fault (List Value)
  | [] => .ok []
  | data :: rest => do return (← valueOf data) :: (← valuesOf rest)

end

def rootOf (program : Node) : Node := .known .root (fillSlots Kind.root.slots [(.program, .node program)])

/-- the root a node is, or that of the program it is -/
def asRoot (n : Node) : Except Fault Node :=
  if n.isKind .program then .ok (rootOf n)
  else if n.isKind .root then .ok n
  else .error (.invalidNode (.notARoot n.kindText))

/-- the interface tree that data stands for -/
def rootOfJson (data : Json) : Except Fault Node := do asRoot (← ofJson data)

/-- the interface tree in a JSON text -/
def rootOfText (t : Text) : Except Fault Node :=
  match Json.read t with
  | .ok data => rootOfJson data
  | .error (.at cause place line column) => .error (.invalidNode (.notJson cause place line column))
  | .error (.tooManyDigits count) => .error (.tooManyDigits count)
  | .error (.tooDeep container) => .error (.tooDeep container)

def textSeed (encoding value : Text) : Node :=
  .known .constantPdaSeed [
    (.type, .node (.known .stringType [(.encoding, .text encoding)])),
    (.value, .node (.known .stringValue [(.string, .text value)]))]

end Node

end InterfacePages

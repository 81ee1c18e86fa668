/-
What a pattern can reach from a text, one member or item at a time.

A member is looked for among the members of the object's class, then among those of the class of all objects. A
function or an operation found there is bound to the object; a computed or stored member is its value. A class is an
object too: its own members come bare, and those of the class of classes are bound to it.
-/
import InterfacePages.Fault
import InterfacePages.Reflection.Member

namespace InterfacePages

namespace Reflection

namespace Member

def name : Member → Text
  | .maker => "__new__"
  | .slot name => name
  | .method name _ _ => name
  | .ofClass name _ _ => name
  | .static name _ _ => name
  | .computed name _ => name
  | .stored name => name
  | .constant name _ => name

def signature : Member → Text
  | .maker => "($type, *args, **kwargs)"
  | .slot name => ((slotTable.lookup name).map (·.1)).getD []
  | .method _ signature _ => signature
  | .ofClass _ signature _ => signature
  | .static _ signature _ => signature
  | _ => []

/-- what a member says about itself -/
def description : Member → Text
  | .maker => "Create and return a new object.  See help(type) for accurate signature."
  | .slot name => ((slotTable.lookup name).map (·.2)).getD []
  | .method _ _ description => description
  | .ofClass _ _ description => description
  | .static _ _ description => description
  | .computed _ description => description
  | _ => []

def bareClass : Member → Class
  | .slot _ => .slot
  | .method _ _ _ => .method
  | .ofClass _ _ _ => .classMethod
  | .computed _ _ => .computed
  | .stored _ => .stored
  | _ => .builtin

/-- how a member that is not bound is introduced -/
def bareLabel : Member → Text
  | .slot _ => "slot wrapper"
  | .computed _ _ => "attribute"
  | .stored _ => "member"
  | _ => "method"

end Member

namespace Class

def label : Class → Text
  | .text => "str"
  | .object => "object"
  | .type => "type"
  | .builtin => "builtin_function_or_method"
  | .boundSlot => "method-wrapper"
  | .method => "method_descriptor"
  | .slot => "wrapper_descriptor"
  | .computed => "getset_descriptor"
  | .stored => "member_descriptor"
  | .classMethod => "classmethod_descriptor"
  | .whole => "int"
  | .nothing => "NoneType"
  | .tuple => "tuple"
  | .table => "mappingproxy"

/-- the class that comes before all others but the class of all objects -/
def bases (c : Class) : List Class := if c = .object then [] else [.object]

/-- a class and its ancestors in the order in which members are looked for -/
def ancestors (c : Class) : List Class := c :: c.bases

def members (c : Class) : List Member := c.slots.map Member.slot ++ c.others

def find? (c : Class) (name : Text) : Option (Class × Member) :=
  c.ancestors.findSome? fun a => (a.members.find? (·.name == name)).map fun m => (a, m)

/-- the octets of an object, those of one of its items, and the marks of its class -/
def sizes : Class → Nat × Nat × Nat
  | .text => (80, 0, 273159424)
  | .object => (16, 0, 529664)
  | .type => (904, 40, 2148031744)
  | .builtin => (56, 0, 547200)
  | .boundSlot => (32, 0, 545152)
  | .method => (56, 0, 678272)
  | .slot => (56, 0, 676224)
  | .computed => (48, 0, 545152)
  | .stored => (48, 0, 545152)
  | .classMethod => (56, 0, 545152)
  | .whole => (24, 4, 21501184)
  | .nothing => (16, 0, 528640)
  | .tuple => (24, 8, 71849248)
  | .table => (24, 0, 545088)

def ownMembersPlace (c : Class) : Nat := if c = .type then 264 else 0

def weakReferencesPlace (c : Class) : Nat := if c = .type then 368 else if c = .builtin then 40 else 0

def signature (c : Class) : Text := if c = .object then "()" else if c = .tuple then "(iterable=(), /)" else []

end Class

/-- what stands in square brackets: a place or a key -/
inductive Index where
  | place (n : Nat)
  | key (t : Text)
  deriving DecidableEq, Repr

/-- what a pattern can reach -/
inductive Object where
  | text (t : Text)
  | whole (n : Nat)
  | nothing
  | classes (items : List Class)
  | type (c : Class)
  | builtin (m : Member) (self : Object)
  | boundSlot (owner : Class) (m : Member) (self : Object)
  | bare (owner : Class) (m : Member)
  | table (c : Class)
  | generic (c : Class) (index : Index)
  deriving DecidableEq, Repr

namespace Object

def classOf : Object → Class
  | .text _ => .text
  | .whole _ => .whole
  | .nothing => .nothing
  | .classes _ => .tuple
  | .type _ => .type
  | .builtin _ _ => .builtin
  | .boundSlot _ _ _ => .boundSlot
  | .bare _ m => m.bareClass
  | .table _ => .table
  | .generic _ _ => .type

/-- a text, or nothing when it is empty -/
def ofText (t : Text) : Object := if t.isEmpty then .nothing else .text t

/-- what a class says about itself -/
def classDescription (c : Class) : Object :=
  if c = .type then .text "type(object) -> the object's type\ntype(name, bases, dict, **kwds) -> a new type"
  else
    match c.members.find? (·.name == Text.ofString "__doc__") with
    | some (.constant _ content) => ofText content
    | some m => .bare c m
    | none => .nothing

/-- the name of a function, preceded by the name of the class that it is bound to or whose object it is bound to -/
def qualifiedName (m : Member) (self : Object) : Text :=
  match self with
  | .type c => c.label ++ "." ++ m.name
  | other => other.classOf.label ++ "." ++ m.name

/-- what a function says it is bound to; one that comes with a class itself is bound to nothing -/
def boundTo (m : Member) (self : Object) : Object :=
  match m with
  | .static _ _ _ => .nothing
  | _ => self

/-- a computed or stored member of a class -/
def classValue? (c : Class) (name : Text) : Option Object :=
  [ (Text.ofString "__name__", Object.text c.label),
    ("__qualname__", .text c.label),
    ("__module__", .text "builtins"),
    ("__bases__", .classes c.bases),
    ("__mro__", .classes c.ancestors),
    ("__base__", (c.bases.head?.map Object.type).getD .nothing),
    ("__dict__", .table c),
    ("__doc__", classDescription c),
    ("__text_signature__", ofText c.signature),
    ("__basicsize__", .whole c.sizes.1),
    ("__itemsize__", .whole c.sizes.2.1),
    ("__flags__", .whole c.sizes.2.2),
    ("__dictoffset__", .whole c.ownMembersPlace),
    ("__weakrefoffset__", .whole c.weakReferencesPlace)].lookup name

/-- a computed or stored member of a function or an operation -/
def memberValue? (m : Member) (own : List (Text × Object)) (name : Text) : Option Object :=
  ([(Text.ofString "__name__", Object.text m.name), ("__doc__", ofText m.description),
    ("__text_signature__", ofText m.signature)] ++ own).lookup name

/-- a computed or stored member of an object -/
def value? (name : Text) (o : Object) : Option Object :=
  if name = Text.ofString "__class__" then some (.type o.classOf)
  else
    match o with
    | .type c => classValue? c name
    | .generic c _ => classValue? c name
    | .builtin m self =>
      memberValue? m
        [("__qualname__", .text (qualifiedName m self)), ("__self__", boundTo m self), ("__module__", .nothing)] name
    | .boundSlot owner m self =>
      memberValue? m
        [("__qualname__", .text (owner.label ++ "." ++ m.name)), ("__self__", self), ("__objclass__", .type owner)] name
    | .bare owner m =>
      memberValue? m [("__qualname__", .text (owner.label ++ "." ++ m.name)), ("__objclass__", .type owner)] name
    | .whole n =>
      [(Text.ofString "real", Object.whole n), ("imag", .whole 0), ("numerator", .whole n), ("denominator", .whole 1)]
        |>.lookup name
    | _ => none

def missing (name : Text) : Object → Fault
  | .generic c _ => .missingMember (.ofType c.label) name
  | .type c =>
    .missingMember (if name = Text.ofString "__abstractmethods__" then .unnamed else .ofType c.label) name
  | o => .missingMember (.ofObject o.classOf.label) name

def bound (owner : Class) (m : Member) (o : Object) : Except Fault Object :=
  match m with
  | .maker => .ok (.builtin m (.type owner))
  | .slot _ => .ok (.boundSlot owner m o)
  | .method _ _ _ => .ok (.builtin m o)
  | .ofClass _ _ _ => .ok (.builtin m (.type o.classOf))
  | .static _ _ _ => .ok (.builtin m (.type owner))
  | .constant _ content => .ok (ofText content)
  | .computed name _ =>
    match o.value? name with
    | some v => .ok v
    | none => .error (o.missing name)
  | .stored name =>
    match o.value? name with
    | some v => .ok v
    | none => .error (o.missing name)

def unbound (owner : Class) (m : Member) (c : Class) : Object :=
  match m with
  | .maker => .builtin m (.type owner)
  | .ofClass _ _ _ => .builtin m (.type c)
  | .static _ _ _ => .builtin m (.type owner)
  | .constant _ content => ofText content
  | _ => .bare owner m

/-- whether a member of the class of classes comes before the members of a class -/
def comesFirst : Member → Bool
  | .computed _ _ => true
  | .stored _ => true
  | _ => false

def member (name : Text) (o : Object) : Except Fault Object :=
  let own := o.classOf.find? name
  let ownClass : Option Class := match o with
    | .type c => some c
    | .generic c _ => some c
    | _ => none
  match ownClass with
  | some c =>
    match own.filter (fun found => comesFirst found.2) with
    | some (owner, m) => bound owner m o
    | none =>
      match c.find? name with
      | some (owner, m) => .ok (unbound owner m c)
      | none =>
        match own with
        | some (owner, m) => bound owner m o
        | none => .error (o.missing name)
  | none =>
    match own with
    | some (owner, m) => bound owner m o
    | none => .error (o.missing name)

/-- the item of an object; of the classes, three have generic forms -/
def item (index : Index) (o : Object) : Except Fault Object :=
  match o, index with
  | .text t, .place n =>
    match t[n]? with
    | some c => .ok (.text [c])
    | none => .error (.index .textIndex)
  | .classes items, .place n =>
    match items[n]? with
    | some c => .ok (.type c)
    | none => .error (.index .tupleIndex)
  | .table c, .key name =>
    match c.members.find? (·.name == name) with
    | some (.ofClass name signature description) => .ok (.bare c (.ofClass name signature description))
    | some m => .ok (unbound c m c)
    | none => .error (.missingKey name)
  | .table _, .place n => .error (.missingKey (Number.decimal n))
  | .type .type, index => .ok (.generic .type index)
  | .type .tuple, index => .ok (.generic .tuple index)
  | .type .table, index => .ok (.generic .table index)
  | _, _ => .error .wrongType

def classText (c : Class) : Text := "<class '" ++ (c.label ++ "'>")

def bareText (owner : Class) (m : Member) : Text :=
  "<" ++ m.bareLabel ++ " '" ++ m.name ++ "' of '" ++ owner.label ++ "' objects>"

def entryText (c : Class) (m : Member) : Text :=
  let content := match m with
    | .constant _ content => if content.isEmpty then "None" else Text.quoted content
    | m => bareText c m
  Text.quoted m.name ++ ": " ++ content

def indexText : Index → Text
  | .place n => Number.decimal n
  | .key t => Text.quoted t

def display : Object → Text
  | .text t => t
  | .whole n => Number.decimal n
  | .nothing => "None"
  | .classes [c] => "(" ++ (classText c ++ ",)")
  | .classes items => "(" ++ (Text.joinWith ", " (items.map classText) ++ ")")
  | .type c => classText c
  | .builtin m self => "<built-in method " ++ m.name ++ " of " ++ self.classOf.label ++ " object>"
  | .boundSlot _ m self => "<method-wrapper '" ++ m.name ++ "' of " ++ self.classOf.label ++ " object>"
  | .bare owner m => bareText owner m
  | .table c => "\x7b" ++ Text.joinWith ", " (c.members.map (entryText c)) ++ "\x7d"
  | .generic c index => c.label ++ "[" ++ indexText index ++ "]"

def quoted : Object → Text
  | .text t => Text.quoted t
  | .table c => "mappingproxy(" ++ (Object.table c).display ++ ")"
  | other => other.display

end Object

end Reflection

end InterfacePages

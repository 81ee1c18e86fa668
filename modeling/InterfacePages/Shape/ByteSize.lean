/-
How many octets a type takes, when that does not depend on the data.

The size is a value, `absent` when it varies. A link to a defined type has the size of that type; one that is not
resolved, or whose name is being resolved already, varies. The names being resolved are the state of the visits, and a
name leaves it again however the visit of its type ends.
-/
import InterfacePages.Link
import InterfacePages.Shape.Quantity
import InterfacePages.Visit.Visitor

namespace InterfacePages

namespace ByteSize

/-- the names of the defined types being resolved, innermost first -/
abbrev Resolving := List NameKey

/-- an action that finds a size -/
abbrev Sizing := Act Resolving Value

def formatSizes : List (Text × Int) := [
  ("u8", 1), ("i8", 1), ("u16", 2), ("i16", 2), ("u32", 4), ("i32", 4), ("f32", 4), ("u64", 8), ("i64", 8), ("f64", 8),
  ("u128", 16), ("i128", 16)]

def fixed (size : Int) : Handler Sizing := fun _ _ => return .int size

/-- the size of the type that an attribute holds -/
def through (a : Attr) : Handler Sizing := fun n visit => do visit (← Act.ofExcept (n.child a))

/-- the size of an item as many times as a fixed count says -/
def counted (count : Value) (itemSize : Value) : Except Fault Value := do
  let count ← count.asNode
  if !count.isKind .fixedCount || itemSize.isAbsent then return .absent
  (← count.get .value).times itemSize

/-- the sum of the sizes of some nodes; the first one that varies ends it -/
def sumOf (visit : Node → Sizing) : Value → List Value → Sizing
  | total, [] => return total
  | total, v :: rest => do
    let size ← visit (← Act.ofExcept v.asNode)
    if size.isAbsent then return .absent
    sumOf visit (← Act.ofExcept (total.add size)) rest

def sum (a : Attr) : Handler Sizing := fun n visit => do
  sumOf visit (.int 0) (← Act.ofExcept (n.items a))

def repetition : Handler Sizing := fun n visit => do
  let count ← Act.ofExcept (n.get .count)
  let itemSize ← visit (← Act.ofExcept (n.child .item))
  Act.ofExcept (counted count itemSize)

def mapping : Handler Sizing := fun n visit => do
  let count ← Act.ofExcept (n.get .count)
  let key ← visit (← Act.ofExcept (n.child .key))
  let value ← visit (← Act.ofExcept (n.child .value))
  Act.ofExcept (do counted count (← Value.sumKnown (.int 0) [.ok key, .ok value]))

def number : Handler Sizing := fun n _ => do
  let format ← Act.ofExcept (n.get .format)
  if !format.isKey then throw .wrongType
  match format with
  | .text t =>
    match formatSizes.lookup t with
    | some size => return .int size
    | none => return .absent
  | _ => return .absent

/-- an option, which is fixed when it keeps the place of what it may hold -/
def option : Handler Sizing := fun n visit => do
  if !(← Act.ofExcept (n.get .fixed)).isGiven then return .absent
  let lead ← visit (← Act.ofExcept (n.child .lead))
  let item ← visit (← Act.ofExcept (n.child .item))
  Act.ofExcept (Value.sumKnown (.int 0) [.ok lead, .ok item])

/-- an offset, which takes place when it is padded -/
def offset : Handler Sizing := fun n visit => do
  let size ← visit (← Act.ofExcept (n.child .type))
  if size.isAbsent || !(← Act.ofExcept (n.get .strategy)).same (.text "padded") then return size
  Act.ofExcept (do size.add (← n.get .offset))

/-- the different sizes of some variants in order of first appearance -/
def distinctSizes (visit : Node → Sizing) : List Value → List Value → Act Resolving (List Value)
  | found, [] => return found
  | found, v :: rest => do
    let size ← visit (← Act.ofExcept v.asNode)
    if !size.isKey then throw .wrongType
    distinctSizes visit (if found.any (·.same size) then found else found ++ [size]) rest

/-- an enumeration: its number and, when all variants take the same, what they take -/
def enumeration : Handler Sizing := fun n visit => do
  let lead ← visit (← Act.ofExcept (n.child .size))
  if ← Act.ofExcept n.isScalarEnum then return lead
  let sizes ← distinctSizes visit [] (← Act.ofExcept (n.items .variants))
  match sizes with
  | [size] =>
    if lead.isAbsent || size.isAbsent then return .absent
    Act.ofExcept (lead.add size)
  | _ => return .absent

/-- a link: the size of the type it leads to -/
def link (links : LinkTable) (path : List Node) : Handler Sizing := fun n visit => do
  let name := (← Act.ofExcept (n.get .name)).nameKey
  if (← get).contains name then return .absent
  match ← Act.ofExcept (links.resolve path n) with
  | none => return .absent
  | some target =>
    Act.change (name :: ·)
    Act.ensuring (do visit (← Act.ofExcept (target.child .type))) (·.erase name)

def handlers (links : LinkTable) (path : List Node) : List (Kind × Handler Sizing) := [
  (.amountType, through .number),
  (.arrayType, repetition),
  (.booleanType, through .size),
  (.dateTimeType, through .number),
  (.definedTypeLink, link links path),
  (.enumEmptyVariantType, fixed 0),
  (.enumStructVariantType, through .struct),
  (.enumTupleVariantType, through .tuple),
  (.enumType, enumeration),
  (.fixedSizeType, fun n _ => Act.ofExcept (n.get .size)),
  (.mapType, mapping),
  (.numberType, number),
  (.optionType, option),
  (.postOffsetType, offset),
  (.preOffsetType, offset),
  (.publicKeyType, fixed 32),
  (.setType, repetition),
  (.solAmountType, through .number),
  (.structFieldType, through .type),
  (.structType, sum .fields),
  (.tupleType, sum .items),
  (.zeroableOptionType, through .item)]

/-- the visitor that finds sizes, with the links that a path sees -/
def visitor (links : LinkTable) (path : List Node) : Visitor Sizing :=
  (Visitor.constant (fun _ => return .absent) []).extend ((handlers links path).map fun h => (.known h.1, h.2))

/-- a depth that no visit exceeds: as many types in a row as there are entries, each as high as the highest -/
def depthFor (links : LinkTable) (n : Node) : Nat :=
  (links.size + 1) * (links.entries.foldl (fun h e => max h e.2.height) n.height + 1) + 1

end ByteSize

/-- visits a type to find its size -/
def Node.sizing (links : LinkTable) (path : List Node) (n : Node) : ByteSize.Sizing :=
  (ByteSize.visitor links path).visit (throw .nestingTooDeep) (ByteSize.depthFor links n) n

/-- the size of a type, `absent` when it varies -/
def Node.byteSize (links : LinkTable) (path : List Node) (n : Node) : Except Fault Value :=
  ((n.sizing links path).perform []).1

end InterfacePages

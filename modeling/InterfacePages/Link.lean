/-
The table that links are looked up in.

An entry is filed under the name of its program, its kind and its own name; the first one recorded under a key stays.
A link to an address or a defined type is looked up in the program it names, or else in the innermost program of the
path it stands on. A link without an entry is unresolved.
-/
import InterfacePages.Act
import InterfacePages.Node.Tree

namespace InterfacePages

/-- a name as it is compared: zero, false and `0.0` are one name -/
inductive NameKey where
  | text (t : Text)
  | absent
  | zero
  | other (shown : Text)
  deriving DecidableEq, Repr

def Value.nameKey : Value → NameKey
  | .text t => .text t
  | .absent => .absent
  | v => if v.isGiven then .other v.quoted else if v.same (.int 0) then .zero else .other v.quoted

/-- what an entry is filed under -/
structure LinkKey where
  program : NameKey
  kind : Kind
  name : NameKey
  deriving DecidableEq, Repr

/-- the entries by key, in the order they were recorded -/
abbrev LinkTable := OrderedMap LinkKey Node

namespace LinkTable

/-- files a node under a program's name, unless its key is taken -/
def record (programName : Value) (n : Node) (table : LinkTable) : Except Fault LinkTable :=
  match n with
  | .known kind _ => do
    let name ← n.get .name
    return table.insertNew ⟨programName.nameKey, kind, name.nameKey⟩ n
  | .unknown _ _ => .error .missingAttribute

def recordAct (programName : Value) (n : Node) : Act LinkTable Unit :=
  Act.ofOutcome fun table =>
    match record programName n table with
    | .ok table => (.ok (), table)
    | .error fault => (.error fault, table)

/-- files a program and then its addresses, accounts, defined types and instructions -/
def recordProgram (p : Node) : Act LinkTable Unit := do
  recordAct (← Act.ofExcept (p.get .name)) p
  let pdas ← Act.ofExcept p.pdas
  let accounts ← Act.ofExcept p.accounts
  let types ← Act.ofExcept p.definedTypes
  let instructions ← Act.ofExcept p.instructions
  (pdas ++ accounts ++ types ++ instructions).forM fun member => do
    recordAct (← Act.ofExcept (p.get .name)) member

/-- files all programs of a tree with their members -/
def recordTree (n : Node) : Act LinkTable Unit := do
  (← Act.ofExcept n.programs).forM recordProgram

/-- the innermost program of a path, outermost node first -/
def programOf? (path : List Node) : Option Node := path.reverse.find? (·.isKind .program)

def target? : Kind → Option Kind
  | .pdaLink => some .pda
  | .definedTypeLink => some .definedType
  | .programLink => some .program
  | _ => none

def resolve (table : LinkTable) (path : List Node) (link : Node) : Except Fault (Option Node) :=
  match link.kind?.bind target? with
  | none => .ok none
  | some .program => do
    let name := (← link.get .name).nameKey
    return table.get? ⟨name, .program, name⟩
  | some kind => do
    let program ← link.get .program
    if program.isAbsent then
      match programOf? path with
      | none => return none
      | some p => return table.get? ⟨(← p.get .name).nameKey, kind, (← link.get .name).nameKey⟩
    else
      let p ← program.asNode
      return table.get? ⟨(← p.get .name).nameKey, kind, (← link.get .name).nameKey⟩

end LinkTable

end InterfacePages

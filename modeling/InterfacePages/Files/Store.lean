/-
Folders and files, and what the operating system answers.

A store has an entry for every folder and file under the names that lead to it from the root, and a working folder
that relative paths start from. A path is followed name by name: each name but the last has to lead to a folder, `..`
leads back, and a name longer than 255 octets or a path of 4096 or more is refused. Before that, a path with a code
point that has no octets, or with a zero octet, is refused without asking the system.

An operation that fails leaves what it did before.
-/
import InterfacePages.Act
import InterfacePages.Files.Path
import InterfacePages.OrderedMap

namespace InterfacePages

namespace Files

inductive Entry where
  | folder
  | file (octets : List UInt8)
  deriving DecidableEq, Repr

/-- the names that lead from the root to a place -/
abbrev Place := List Text

/-- entries by place, and the working folder -/
structure Store where
  entries : OrderedMap Place Entry
  work : Place
  deriving Repr

namespace Store

/-- the folders of a system, from the root -/
def systemFolders : List Place :=
  [[], ["bin"], ["dev"], ["etc"], ["tmp"], ["usr"], ["usr", "bin"], ["work"]].map (·.map Text.ofString)

/-- a system whose working folder has nothing in it -/
def fresh : Store := ⟨OrderedMap.ofList (systemFolders.map fun place => (place, .folder)), [Text.ofString "work"]⟩

/-- the most octets a name may have -/
def maxName : Nat := 255

/-- the first number of octets that is too many for a path -/
def pathLimit : Nat := 4096

/-- the octets of a name that has been accepted -/
def octetCount (t : Text) : Nat :=
  match Text.encodeStray t with
  | .ok octets => octets.length
  | .error _ => 0

/-- the place of a folder's member, unless the name is too long -/
def member (folder : Place) (name : Text) : Except OsCause Place :=
  if name = Text.ofString ".." then .ok folder.dropLast
  else if maxName < octetCount name then .error .nameTooLong
  else .ok (folder ++ [name])

/-- the folder that names lead to -/
def followFolders (s : Store) : Place → List Text → Except OsCause Place
  | folder, [] => .ok folder
  | folder, name :: rest => do
    let place ← member folder name
    match s.entries.get? place with
    | none => .error .notFound
    | some (.file _) => .error .notADirectory
    | some .folder => followFolders s place rest

def start (s : Store) (p : Path) : Place :=
  match p.root with
  | .relative => s.work
  | _ => []

/-- the place that names lead to from a folder; what stands there may be missing -/
def follow (s : Store) (from_ : Place) (parts : List Text) : Except OsCause Place :=
  match s.entries.get? from_ with
  | some .folder =>
    match parts.getLast? with
    | none => .ok from_
    | some name => do member (← followFolders s from_ parts.dropLast) name
  | _ => .error .notFound

/-- refuses a path that cannot be handed to the system -/
def checkText (t : Text) : Except Fault Nat :=
  match Text.encodeStray t with
  | .error cause => .error (.unencodable cause)
  | .ok octets => if t.contains 0 then .error .embeddedNull else .ok octets.length

def reach (s : Store) (p : Path) : Except Fault Place := do
  let count ← checkText p.text
  if pathLimit ≤ count then throw (.os .nameTooLong p.text .plain)
  match s.follow (s.start p) p.parts with
  | .ok place => return place
  | .error cause => throw (.os cause p.text .plain)

/-- what stands at a path, if anything; of the faults only a name that is too long counts -/
def look (s : Store) (p : Path) : Except Fault (Option Entry) :=
  match s.reach p with
  | .ok place => .ok (s.entries.get? place)
  | .error (.os .nameTooLong path form) => .error (.os .nameTooLong path form)
  | .error _ => .ok none

def isThere (s : Store) (p : Path) : Except Fault Bool := do return (← s.look p).isSome

def isFile (s : Store) (p : Path) : Except Fault Bool := do
  match ← s.look p with
  | some (.file _) => return true
  | _ => return false

def isFolder (s : Store) (p : Path) : Except Fault Bool := do return (← s.look p) == some .folder

/-- the octets of the file at a path -/
def read (s : Store) (p : Path) : Except Fault (List UInt8) := do
  match s.entries.get? (← s.reach p) with
  | some (.file octets) => return octets
  | some .folder => throw (.os .isADirectory p.text .plain)
  | none => throw (.os .notFound p.text .plain)

def put (s : Store) (place : Place) (entry : Entry) : Store := { s with entries := s.entries.insert place entry }

def isBelow (folder place : Place) : Bool := folder.isPrefixOf place && decide (folder.length < place.length)

/-- removes what lies below a place -/
def clear (s : Store) (folder : Place) : Store :=
  { s with entries := s.entries.filterKeys fun place => !isBelow folder place }

def remove (s : Store) (place : Place) : Store := { s with entries := s.entries.filterKeys (· != place) }

/-- the files below the working folder, by the text of their paths from there -/
def files (s : Store) : List (Text × List UInt8) :=
  s.entries.entries.filterMap fun e =>
    match e.2 with
    | .file octets =>
      if isBelow s.work e.1 then some (Text.joinWith "/" (e.1.drop s.work.length), octets) else none
    | .folder => none

end Store

/-- makes a folder where nothing stands -/
def makeFolder (p : Path) : Act Store Unit :=
  Act.ofOutcome fun s =>
    match s.reach p with
    | .error fault => (.error fault, s)
    | .ok place =>
      if (s.entries.get? place).isSome then (.error (.os .exists p.text .plain), s) else (.ok (), s.put place .folder)

/-- accepts a failure of the system if a folder stands at the path all the same -/
def unlessFolder (p : Path) (fault : Fault) : Act Store Unit := do
  match fault with
  | .os _ _ _ => if !(← Act.ofExcept ((← get).isFolder p)) then throw fault
  | _ => throw fault

/-- makes a folder unless it is there, and the folders above it, at most `fuel` of them -/
def makeFoldersUpTo : Nat → Path → Act Store Unit
  | 0, p => throw (.os .notFound p.text .plain)
  | fuel + 1, p =>
    tryCatch (makeFolder p) fun fault =>
      match fault with
      | .os .notFound _ _ =>
        if p.parts.isEmpty then throw fault
        else do
          makeFoldersUpTo fuel p.parent
          tryCatch (makeFolder p) fun fault =>
            match fault with
            | .os .notFound _ _ => throw fault
            | _ => unlessFolder p fault
      | _ => unlessFolder p fault

/-- makes a folder unless it is there, and the folders above it -/
def makeFolders (p : Path) : Act Store Unit := makeFoldersUpTo (p.parts.length + 1) p

/-- writes a file, whether it is there or not -/
def writeFile (p : Path) (octets : List UInt8) : Act Store Unit :=
  Act.ofOutcome fun s =>
    match s.reach p with
    | .error fault => (.error fault, s)
    | .ok place =>
      match s.entries.get? place with
      | some .folder => (.error (.os .isADirectory p.text .plain), s)
      | _ => (.ok (), s.put place (.file octets))

/-- removes a folder that has been cleared; the root is always in use, and the working folder has to be named -/
def removeFolder (p : Path) : Act Store Unit :=
  Act.ofOutcome fun s =>
    match p.parts.getLast? with
    | none => (.error (.os (if p.root = .relative then .invalidArgument else .busy) p.text .plain), s)
    | some name =>
      match s.reach p with
      | .error fault => (.error fault, s)
      | .ok place =>
        if name = Text.ofString ".." then (.error (.os .notEmpty p.text .plain), s)
        else if (s.entries.get? place).isSome then (.ok (), s.remove place)
        else (.error (.os .notFound p.text .plain), s)

/-- removes the folder at a path and everything below it; nothing at all may stand there -/
def deleteFolder (p : Path) : Act Store Unit := do
  match ← Act.ofExcept ((← get).look p) with
  | none => return
  | some (.file _) => throw (.os .notADirectory p.text .object)
  | some .folder =>
    let place ← Act.ofExcept ((← get).reach p)
    Act.change (·.clear place)
    removeFolder p

end Files

end InterfacePages

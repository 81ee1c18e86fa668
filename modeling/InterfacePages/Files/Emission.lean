/-
Pages into files.

Emission goes through four stages: formatting, checking all paths, clearing the folder and writing. The first two
leave the store alone unless the formatter itself changes files, so a fault found there has no effect. Pages are written
in the order of their paths, and what was written before a fault stays.
-/
import InterfacePages.Formatter.Run

namespace InterfacePages

namespace Files

/-- a written page: its path, how many line feeds it has and how many octets -/
structure Written where
  name : Text
  lines : Nat
  octets : Nat
  deriving DecidableEq, Repr

/-- the pages written to a folder, in the order of their paths -/
structure Emitted where
  folder : Path
  files : List Written
  deriving DecidableEq, Repr

namespace Emitted

/-- how many line feeds all pages have -/
def totalLines (e : Emitted) : Nat := (e.files.map (·.lines)).foldr (· + ·) 0

/-- how many octets all pages have -/
def totalOctets (e : Emitted) : Nat := (e.files.map (·.octets)).foldr (· + ·) 0

end Emitted

/-- how pages are emitted: whether the folder is cleared first, and through which formatter -/
structure EmitOptions where
  clear : Bool
  formatter : Option Text
  deriving DecidableEq, Repr

def writePage (folder : Path) (name content : Text) : Act Store Written := do
  let path := folder.join (← Act.ofExcept (Path.ofPage name)).parts
  makeFolders path.parent
  let octets ← Act.ofExcept (Formatter.encoded content)
  writeFile path octets
  return ⟨name, content.count 10, octets.length⟩

/-- every path leads below the folder that the pages are written to -/
def checkPaths : List Text → Except Fault Unit
  | [] => .ok ()
  | path :: rest => do
    let _ ← Path.ofPage path
    checkPaths rest

def writeEach (folder : Path) : List (Text × Text) → Act Store (List Written)
  | [] => return []
  | (name, content) :: rest => do
    let written ← writePage folder name content
    return written :: (← writeEach folder rest)

def inOrder (pages : PageMap) : List (Text × Text) :=
  (Text.sorted pages.keys).filterMap fun path => (pages.get? path).map fun f => (path, f.content)

def writePages (folder : Path) (pages : PageMap) : Act Store Emitted := do
  Act.ofExcept (checkPaths pages.keys)
  return ⟨folder, ← writeEach folder (inOrder pages)⟩

/-- the pages after the formatter, if there is one -/
def formatted (programs : Formatter.Programs) (formatter : Option Text) (pages : PageMap) : Act Store PageMap := do
  match formatter with
  | none => return pages
  | some command => if command.isEmpty then return pages else Formatter.formatPages programs command pages

/-- formats pages, clears the folder if asked to, and writes them -/
def emit (programs : Formatter.Programs) (options : EmitOptions) (folder : Path) (pages : PageMap) :
    Act Store Emitted := do
  let pages ← formatted programs options.formatter pages
  Act.ofExcept (checkPaths pages.keys)
  if options.clear then deleteFolder folder
  writePages folder pages

end Files

end InterfacePages

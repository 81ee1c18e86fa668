/-
The command line program.

It sees the working folder: all files below it are read into a store, the run is performed on the store, and what the
run changed is written back. Formatters are handed to the programs of the bench.

Left out are the words that explain the command line, of which only the status counts, the absolute paths of written
files, and of the file system its links, permissions and whatever changes it at the same time.
-/
import InterfacePages.Bench.Programs
import InterfacePages.Command.Run

namespace InterfacePages

def Text.toChars (t : Text) : String := String.ofList (t.map Char.ofNat)

/-- reads the members of a folder and all that is below them -/
partial def loadMembers (place : Files.Place) (store : Files.Store) (members : Array IO.FS.DirEntry) :
    IO Files.Store := do
  let mut store := store
  for entry in members do
    let here := place ++ [Text.ofString entry.fileName]
    if ← entry.path.isDir then
      store ← loadMembers here (store.put here .folder) (← entry.path.readDir)
    else
      store := store.put here (.file (← IO.FS.readBinFile entry.path).toList)
  return store

def workPath (store : Files.Store) (place : Files.Place) : String :=
  (Text.joinWith "/" (place.drop store.work.length)).toChars

/-- removes the files and folders that a run has removed, the innermost first -/
def saveRemovals (before after : Files.Store) : IO Unit := do
  let gone := before.entries.entries.filter fun e => (after.entries.get? e.1).isNone
  for (place, entry) in gone.mergeSort fun a b => decide (b.1.length ≤ a.1.length) do
    match entry with
    | .file _ => IO.FS.removeFile (workPath before place)
    | .folder => IO.FS.removeDir (workPath before place)

/-- writes the files and folders that a run has written -/
def saveAdditions (before after : Files.Store) : IO Unit := do
  for (place, entry) in after.entries.entries do
    if before.entries.get? place ≠ some entry then
      match entry with
      | .folder => IO.FS.createDirAll (workPath after place)
      | .file octets => IO.FS.writeBinFile (workPath after place) (ByteArray.mk octets.toArray)

end InterfacePages

open InterfacePages in
def main (arguments : List String) : IO UInt32 := do
  let fresh := Files.Store.fresh
  let before ← loadMembers fresh.work fresh (← (← IO.currentDir).readDir)
  let (ending, after, console) := Command.runOn Bench.programs before (arguments.map Text.ofString)
  saveRemovals before after
  saveAdditions before after
  IO.print console.toChars
  match ending with
  | .done => return 0
  | .exit status => return status.toUInt32
  | .escaped fault =>
    IO.eprintln fault.message.toChars
    return 1

/-
Formatters: pages piped through a command.

The command is split into words for each page, with the path of the page put in. The words are handed to a program as
octets, and then the page. What the program writes is the new page; a status other than zero refuses the page.

Which programs there are and what they do is not known here: `Programs` stands for them, and everything about formatting
and emission is said for all its values. A program may change files, and such changes stay even if the page is refused.
-/
import InterfacePages.Files.Store
import InterfacePages.Formatter.Words
import InterfacePages.PageMap
import InterfacePages.Text.Octets

namespace InterfacePages

namespace Formatter

/-- what a program comes to: a status, which is below zero if a signal ended it, its output and its complaints -/
structure Answer where
  status : Int
  output : Octets
  complaint : Octets
  deriving DecidableEq, Repr

/-- the programs of a system -/
structure Programs where
  /-- why the program that some words name cannot be started with them, if it cannot -/
  refusal : Files.Store → List Octets → Option OsCause
  /-- what the program does with its words and its input; without an input it is ended before it has read any -/
  run : List Octets → Option Octets → Files.Store → Answer × Files.Store

/-- the octets of a word, which have to be fit for the system -/
def argument (word : Text) : Except Fault Octets := do
  let _ ← Files.Store.checkText word
  match Text.encodeStray word with
  | .ok os => return os
  | .error cause => throw (.unencodable cause)

def encoded (t : Text) : Except Fault Octets :=
  match Text.encode t with
  | .ok os => .ok os
  | .error cause => .error (.unencodable cause)

/-- the text of octets that were written, with plain line feeds -/
def decoded (os : Octets) : Except Fault Text :=
  match Text.decode os with
  | .ok t => .ok (Text.unixLines t)
  | .error cause => .error (.undecodable cause)

section

variable (programs : Programs)

/-- starts what some words name on a content; that the content has no octets is found once the program is running -/
def start (words : List Text) (content : Text) : Act Files.Store Answer := do
  match words with
  | [] => throw (.index .listIndex)
  | name :: _ =>
    let octets ← Act.ofExcept (words.mapM argument)
    match programs.refusal (← get) octets with
    | some cause => throw (.os cause name .plain)
    | none =>
      let input := encoded content
      let answer ← Act.ofOutcome fun store => (programs.run octets input.toOption store).map .ok id
      let _ ← Act.ofExcept input
      return answer

def formatPage (command path content : Text) : Act Files.Store Text := do
  let answer ← start programs (← Act.ofExcept (wordsFor command path)) content
  let output ← Act.ofExcept (decoded answer.output)
  let complaint ← Act.ofExcept (decoded answer.complaint)
  if answer.status ≠ 0 then throw (.formatter path answer.status complaint)
  return output

/-- pages with their paths after a formatter, one after the other -/
def formatEach (command : Text) : List (Text × Fragment) → Act Files.Store (List (Text × Fragment))
  | [] => return []
  | (path, f) :: rest => do
    let content ← formatPage programs command path f.content
    return (path, { f with content := content }) :: (← formatEach command rest)

def formatPages (command : Text) (pages : PageMap) : Act Files.Store PageMap := do
  return OrderedMap.ofList (← formatEach programs command pages.entries)

end

end Formatter

end InterfacePages

/-
What is left of a script while it is read.

Beside the octets that are left, a source keeps the line, the last token with its word or redirection, and the
documents that still have to be read. A backslash before a line feed joins two lines wherever `nextJoined` reads.
-/
import InterfacePages.Bench.Shell.Syntax

namespace InterfacePages

namespace Bench

namespace Shell

/-- what the next token may be: line feeds may go before it, keywords count, or it is the mark that ends a document -/
structure Expectation where
  skipsLines : Bool
  keywords : Bool
  isMark : Bool
  aliases : Bool
  deriving DecidableEq, Repr, Inhabited

namespace Expectation

/-- nothing in particular -/
def none : Expectation := ⟨false, false, false, false⟩

/-- a command, perhaps on a later line -/
def command : Expectation := ⟨true, true, false, true⟩

def commandHere : Expectation := ⟨false, true, false, true⟩

def pattern : Expectation := ⟨true, true, false, false⟩

/-- a further word of a command that has none yet -/
def firstWord : Expectation := ⟨false, false, false, true⟩

/-- the mark that ends a document -/
def mark : Expectation := ⟨false, false, true, false⟩

end Expectation

/-- a document whose lines have not been reached: its number, the line that ends it, whether tabs before its lines are
dropped, and whether it is expanded -/
structure Awaited where
  number : Nat
  mark : Octets
  dropsTabs : Bool
  expands : Bool
  deriving DecidableEq, Repr, Inhabited

/-- a redirection without its target -/
inductive OpenRedirect where
  | named (descriptor : Nat) (kind : RedirectKind)
  | document (descriptor : Nat) (dropsTabs : Bool)
  deriving DecidableEq, Repr, Inhabited

/-- a script that is being read -/
structure Source where
  rest : Octets
  line : Nat
  returned : Bool
  last : Token
  quoted : Bool
  word : Word
  redirect : OpenRedirect
  expectation : Expectation
  awaited : List Awaited
  documents : List Document
  nextDocument : Nat
  aliases : List (Octets × Octets)
  deriving Inhabited

namespace Source

/-- the start of a script; its documents get numbers from `nextDocument` on -/
def start (script : Octets) (line nextDocument : Nat) (aliases : List (Octets × Octets)) : Source where
  rest := script
  line := line
  returned := false
  last := .newline
  quoted := false
  word := []
  redirect := default
  expectation := .none
  awaited := []
  documents := []
  nextDocument := nextDocument
  aliases := aliases

end Source

/-- a step in reading a script -/
abbrev Reader (ρ : Type) := ExceptT SyntaxFault (StateM Source) ρ

namespace Reader

def next : Reader (Option UInt8) := do
  let s ← get
  match s.rest with
  | [] => return none
  | c :: rest =>
    set { s with rest := rest }
    return some c

/-- drops joined line ends from the beginning -/
def joinLines : Octets → Nat → Octets × Nat
  | 92 :: 10 :: rest, line => joinLines rest (line + 1)
  | rest, line => (rest, line)

def nextJoined : Reader (Option UInt8) := do
  modify fun s =>
    let (rest, line) := joinLines s.rest s.line
    { s with rest := rest, line := line }
  next

/-- puts an octet back -/
def unread : Option UInt8 → Reader Unit
  | none => return
  | some c => modify fun s => { s with rest := c :: s.rest }

def countLine : Reader Unit := modify fun s => { s with line := s.line + 1 }

/-- makes the last token the next one again -/
def return_ : Reader Unit := modify fun s => { s with returned := true }

/-- says what the next token may be -/
def expect (e : Expectation) : Reader Unit := modify fun s => { s with expectation := e }

/-- fails because of the last token, perhaps where another one should be -/
def unexpected {ρ : Type} (expected : Option Token) : Reader ρ := do
  throw (.unexpected (← get).last expected)

/-- a bound for the steps that what is left allows -/
def bound : Reader Nat := do return (← get).rest.length + 2

end Reader

end Shell

end Bench

end InterfacePages

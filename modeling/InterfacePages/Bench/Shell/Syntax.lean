/-
Scripts as the shell understands them.

A word is a list of pieces: octets that are quoted or not, marks where quotes open and close, parameters, commands that
stand for their output, and sums. A command is a tree. `Token` is what a script is cut into before.
-/
import InterfacePages.Text.Octets

namespace InterfacePages

namespace Bench

namespace Shell

/-- the words with a meaning of their own where a command may start -/
inductive Keyword where
  | notWord
  | caseWord
  | doWord
  | doneWord
  | elifWord
  | elseWord
  | esacWord
  | fiWord
  | forWord
  | ifWord
  | inWord
  | thenWord
  | untilWord
  | whileWord
  | openBrace
  | closeBrace
  deriving DecidableEq, Repr, Inhabited

namespace Keyword

def spellings : List (Octets × Keyword) := [
  ("!", notWord), ("case", caseWord), ("do", doWord), ("done", doneWord), ("elif", elifWord), ("else", elseWord),
  ("esac", esacWord), ("fi", fiWord), ("for", forWord), ("if", ifWord), ("in", inWord), ("then", thenWord),
  ("until", untilWord), ("while", whileWord), ("\x7b", openBrace), ("\x7d", closeBrace)]

def ofOctets? (os : Octets) : Option Keyword := spellings.lookup os

def spelling (k : Keyword) : Octets := ((spellings.find? fun e => e.2 == k).map Prod.fst).getD []

end Keyword

/-- the builtin commands that stay what they are whatever functions are defined -/
def specialNames : List Octets := List.map (fun s => Octets.ofText (Text.ofString s)) [
  ".", ":", "break", "continue", "eval", "exec", "exit", "export", "local", "readonly", "return", "set", "shift",
  "times", "trap", "unset"]

inductive Token where
  | endOfFile
  | newline
  | semicolon
  | ampersand
  | both
  | either
  | pipe
  | openParenthesis
  | closeParenthesis
  | endOfCase
  | redirection
  | word
  | keyword (k : Keyword)
  deriving DecidableEq, Repr, Inhabited

namespace Token

def name : Token → Octets
  | endOfFile => "end of file"
  | newline => "newline"
  | semicolon => "\";\""
  | ampersand => "\"&\""
  | both => "\"&&\""
  | either => "\"||\""
  | pipe => "\"|\""
  | openParenthesis => "\"(\""
  | closeParenthesis => "\")\""
  | endOfCase => "\";;\""
  | redirection => "redirection"
  | word => "word"
  | keyword k => [34] ++ k.spelling ++ [34]

def endsList : Token → Bool
  | endOfFile => true
  | closeParenthesis => true
  | endOfCase => true
  | keyword k =>
    match k with
    | .doWord => true
    | .doneWord => true
    | .elifWord => true
    | .elseWord => true
    | .esacWord => true
    | .fiWord => true
    | .thenWord => true
    | .closeBrace => true
    | _ => false
  | _ => false

end Token

/-- what becomes of the value of a parameter -/
inductive Rule where
  | value
  | length
  | orElse
  | ifPresent
  | assign
  | demand
  | dropStart (longest : Bool)
  | dropEnd (longest : Bool)
  | unknown
  deriving DecidableEq, Repr, Inhabited

/-- how a redirection opens what it names -/
inductive RedirectKind where
  | input
  | both
  | output
  | clobber
  | append
  | copy
  deriving DecidableEq, Repr, Inhabited

mutual

inductive Piece where
  | octet (o : UInt8) (quoted : Bool)
  | mark
  | parameter (name : Octets) (rule : Rule) (orEmpty : Bool) (word : List Piece)
  | output (command : Command)
  | sum (expression : List Piece)

/-- a redirection of a descriptor: to what a word names, or to a document by its number -/
inductive Redirect where
  | named (descriptor : Nat) (kind : RedirectKind) (target : List Piece)
  | document (descriptor : Nat) (number : Nat)

/-- a command; lines are those it starts at -/
inductive Command where
  | nothing
  | simple (line : Nat) (assignments words : List (List Piece)) (redirects : List Redirect)
  | pipeline (commands : List Command) (inBackground : Bool)
  | redirected (line : Nat) (body : Command) (redirects : List Redirect)
  | subshell (line : Nat) (body : Command) (redirects : List Redirect)
  | background (line : Nat) (body : Command) (redirects : List Redirect)
  | negated (body : Command)
  | both (first second : Command)
  | either (first second : Command)
  | sequence (first second : Command)
  | branch (test yes no : Command)
  | repeated (untilTrue : Bool) (test body : Command)
  | each (line : Nat) (name : Octets) (words : List (List Piece)) (body : Command)
  | choice (line : Nat) (word : List Piece) (cases : List (List (List Piece) × Command))
  | define (line : Nat) (name : Octets) (body : Command)

end

abbrev Word := List Piece

instance : Inhabited Piece := ⟨.mark⟩

instance : Inhabited Redirect := ⟨.document 0 0⟩

instance : Inhabited Command := ⟨.nothing⟩

/-- the word that octets make when nothing in them is quoted -/
def Word.plain (os : Octets) : Word := os.map (Piece.octet · false)

/-- the octets of a word that consists of nothing else, none of them quoted -/
def Word.plain? : Word → Option Octets
  | [] => some []
  | .octet o false :: rest => (Word.plain? rest).map (o :: ·)
  | _ => none

/-- the octets of a word without its quotes; nothing else of it counts -/
def Word.octets (w : Word) : Octets :=
  w.filterMap fun piece =>
    match piece with
    | .octet o _ => some o
    | _ => none

/-- a document that stands in the script: its number and what it holds -/
structure Document where
  number : Nat
  body : Word

/-- why a script cannot be read -/
inductive SyntaxFault where
  | unexpected (found : Token) (expected : Option Token)
  | loopName
  | functionName
  | openQuote
  | openBrace
  | openParentheses
  | openBackquote
  | descriptor
  deriving DecidableEq, Repr

namespace SyntaxFault

/-- the words for a fault in a script -/
def message : SyntaxFault → Octets
  | unexpected found none => found.name ++ " unexpected"
  | unexpected found (some expected) => found.name ++ " unexpected (expecting " ++ expected.name ++ ")"
  | loopName => "Bad for loop variable"
  | functionName => "Bad function name"
  | openQuote => "Unterminated quoted string"
  | openBrace => "Missing '\x7d'"
  | openParentheses => "Missing '))'"
  | openBackquote => "EOF in backquote substitution"
  | descriptor => "Bad fd number"

end SyntaxFault

end Shell

end Bench

end InterfacePages

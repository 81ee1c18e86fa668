/-
Commands of a script.

Tokens are read one ahead at most; which words are keywords depends on what may come next. A list of commands, an
and-or list, a pipeline and a command each have a reader, and lists read commands that hold lists: `listOf` closes the
circle, with what is left of the script as a bound for the depth.

`Script.next` reads one complete command, up to the end of its line.
-/
import InterfacePages.Bench.Shell.Word

namespace InterfacePages

namespace Bench

namespace Shell

/-- where a list of commands stands: on its own, inside a command, or up to a token that ends lists -/
inductive ListPlace where
  | top
  | inside
  | closed
  deriving DecidableEq, Repr, Inhabited

structure Inner where
  token : Reader Token
  list : ListPlace → Reader Command
  command : Reader Command

namespace Reader

/-- the commands between parentheses after a dollar -/
def substitution (inner : Inner) : Reader Command :=
  apart do
    let command ← inner.list .closed
    if (← inner.token) ≠ .closeParenthesis then unexpected (some .closeParenthesis)
    return command

def skipComment : Reader Unit := modify fun s => { s with rest := s.rest.dropWhile (· != 10) }

/-- reads a token whose first octet may be doubled -/
def doubled (c : UInt8) (one two : Token) : Reader Token := do
  let d ← nextJoined
  if d = some c then return two
  unread d
  return one

def rawToken (inner : Inner) : Nat → Reader Token
  | 0 => return .endOfFile
  | fuel + 1 => do
    match ← nextJoined with
    | none => return .endOfFile
    | some c =>
      match Char.ofUInt8 c with
      | ' ' => rawToken inner fuel
      | '\t' => rawToken inner fuel
      | '#' =>
        skipComment
        rawToken inner fuel
      | '\n' =>
        countLine
        return .newline
      | '&' => doubled c .ampersand .both
      | '|' => doubled c .pipe .either
      | ';' => doubled c .semicolon .endOfCase
      | '(' => return .openParenthesis
      | ')' => return .closeParenthesis
      | _ =>
        let mode := if (← get).expectation.isMark then Mode.mark else Mode.word
        wordToken (inner.list .closed) (substitution inner) mode (some c)

/-- the next token, the last one again if it was returned -/
def nextToken (inner : Inner) : Reader Token := do
  let s ← get
  if s.returned then
    set { s with returned := false }
    return s.last
  let t ← rawToken inner (← bound)
  modify fun s => { s with last := t }
  return t

/-- reads tokens until one is no line feed; the documents of each line are read at its end -/
def skipLines (inner : Inner) : Nat → Token → Reader Token
  | 0, t => return t
  | fuel + 1, t => do
    if t ≠ .newline then return t
    documents (inner.list .closed) (substitution inner)
    expect .none
    skipLines inner fuel (← nextToken inner)

def keyword? (s : Source) : Option Keyword := if s.quoted then none else (Word.plain? s.word).bind Keyword.ofOctets?

def token (inner : Inner) : Reader Token := do
  let e := (← get).expectation
  let t ← nextToken inner
  let t ← if e.skipsLines then skipLines inner (← bound) t else pure t
  let s ← get
  let t := match t, e.keywords, keyword? s with
    | .word, true, some k => .keyword k
    | t, _, _ => t
  set { s with last := t, expectation := .none }
  return t

/-- reads a token and fails unless it is the one that is needed -/
def need (inner : Inner) (t : Token) : Reader Unit := do
  if (← token inner) ≠ t then unexpected (some t)

def needKeyword (inner : Inner) (k : Keyword) : Reader Unit := need inner (.keyword k)

/-! ## Redirections -/

/-- awaits a document whose mark is the last word -/
def await (descriptor : Nat) (dropsTabs : Bool) : Reader Redirect := do
  let number := (← get).nextDocument
  modify fun s =>
    let awaited : Awaited := ⟨number, s.word.octets, dropsTabs, !s.quoted⟩
    { s with nextDocument := number + 1, awaited := s.awaited ++ [awaited] }
  return .document descriptor number

def redirectTarget (inner : Inner) : Reader Redirect := do
  let redirect := (← get).redirect
  match redirect with
  | .document _ _ => expect .mark
  | .named _ _ => pure ()
  if (← token inner) ≠ .word then unexpected none
  match redirect with
  | .document descriptor dropsTabs => await descriptor dropsTabs
  | .named descriptor kind => return .named descriptor kind (← get).word

def redirects (inner : Inner) : Nat → Reader (List Redirect)
  | 0 => return []
  | fuel + 1 => do
    if (← token inner) = .redirection then
      let first ← redirectTarget inner
      return first :: (← redirects inner fuel)
    else
      return_
      return []

/-! ## Simple commands -/

/-- a word that assigns: a name and an equals sign, nothing of it quoted -/
def isAssignment (w : Word) : Bool :=
  let isPart (p : UInt8 → Bool) : Piece → Bool
    | .octet o false => p o
    | _ => false
  match w with
  | [] => false
  | first :: rest =>
    isPart Octet.isNameStart first &&
      match rest.dropWhile (isPart Octet.isNamePart) with
      | .octet 61 false :: _ => true
      | _ => false

/-- the parts of a simple command, each last first -/
structure SimpleParts where
  assignments : List Word
  words : List Word
  redirects : List Redirect
  deriving Inhabited

def function (inner : Inner) (name : Word) : Reader Command := do
  need inner .closeParenthesis
  match Word.plain? name with
  | some name =>
    if !name.isName || specialNames.contains name then throw .functionName
    expect .command
    let line := (← get).line
    return .define line name (← inner.command)
  | none => throw .functionName

def simpleFrom (inner : Inner) (line : Nat) : Nat → SimpleParts → Reader Command
  | 0, _ => return .nothing
  | fuel + 1, parts => do
    if parts.words.isEmpty then expect .firstWord else expect .none
    match ← token inner with
    | .word =>
      let word := (← get).word
      if parts.words.isEmpty && isAssignment word then
        simpleFrom inner line fuel { parts with assignments := word :: parts.assignments }
      else simpleFrom inner line fuel { parts with words := word :: parts.words }
    | .redirection =>
      let redirect ← redirectTarget inner
      simpleFrom inner line fuel { parts with redirects := redirect :: parts.redirects }
    | .openParenthesis =>
      match parts with
      | ⟨[], [name], []⟩ => function inner name
      | _ => finish parts
    | _ => finish parts
where
  /-- the command that the parts make -/
  finish (parts : SimpleParts) : Reader Command := do
    return_
    return .simple line parts.assignments.reverse parts.words.reverse parts.redirects.reverse

/-! ## Commands -/

def branch (inner : Inner) : Nat → Reader Command
  | 0 => return .nothing
  | fuel + 1 => do
    let test ← inner.list .inside
    needKeyword inner .thenWord
    let yes ← inner.list .inside
    match ← token inner with
    | .keyword .elifWord => return .branch test yes (← branch inner fuel)
    | .keyword .elseWord => return .branch test yes (← inner.list .inside)
    | _ =>
      return_
      return .branch test yes .nothing

/-- reads the words that a loop goes through, up to a token that is none -/
def loopWords (inner : Inner) : Nat → Reader (List Word)
  | 0 => return []
  | fuel + 1 => do
    if (← token inner) = .word then
      let word := (← get).word
      return word :: (← loopWords inner fuel)
    else return []

/-- what a loop goes through when it does not say: all parameters -/
def allParameters : Word := [.mark, .parameter [64] .value false [], .mark]

/-- reads a loop through words after its first word -/
def each (inner : Inner) (line : Nat) : Reader Command := do
  let t ← token inner
  let s ← get
  match t, s.quoted, Word.plain? s.word with
  | .word, false, some name =>
    if !name.isName then throw .loopName
    expect .command
    let words ← if (← token inner) = .keyword .inWord then do
        let words ← loopWords inner (← bound)
        let last := (← get).last
        if last ≠ .newline && last ≠ .semicolon then unexpected none
        pure words
      else do
        if (← get).last ≠ .semicolon then return_
        pure [allParameters]
    expect .command
    needKeyword inner .doWord
    return .each line name words (← inner.list .inside)
  | _, _, _ => throw .loopName

/-- reads the patterns of a case, the first of which has been read -/
def patterns (inner : Inner) : Nat → Reader (List Word)
  | 0 => return []
  | fuel + 1 => do
    let word := (← get).word
    if (← token inner) = .pipe then
      let _ ← token inner
      return word :: (← patterns inner fuel)
    else return [word]

/-- reads the cases of a choice, the first token of which has been read -/
def cases (inner : Inner) : Nat → Token → Reader (List (List Word × Command))
  | 0, _ => return []
  | fuel + 1, t => do
    if t = .keyword .esacWord then return []
    if t = .openParenthesis then
      let _ ← token inner
    let words ← patterns inner (← bound)
    if (← get).last ≠ .closeParenthesis then unexpected (some .closeParenthesis)
    let body ← inner.list .closed
    expect .pattern
    let t ← token inner
    if t = .keyword .esacWord then return [(words, body)]
    if t ≠ .endOfCase then unexpected (some .endOfCase)
    expect .pattern
    return (words, body) :: (← cases inner fuel (← token inner))

def choice (inner : Inner) (line : Nat) : Reader Command := do
  need inner .word
  let word := (← get).word
  expect .command
  needKeyword inner .inWord
  expect .pattern
  let t ← token inner
  return .choice line word (← cases inner (← bound) t)

def withRedirects (line : Nat) (command : Command) (redirects : List Redirect) : Command :=
  if redirects.isEmpty then command
  else
    match command with
    | .subshell line body _ => .subshell line body redirects
    | command => .redirected line command redirects

def redirected (inner : Inner) (line : Nat) (command : Command) : Reader Command := do
  expect .commandHere
  return withRedirects line command (← redirects inner (← bound))

def closedBy (inner : Inner) (line : Nat) (t : Token) (command : Command) : Reader Command := do
  need inner t
  redirected inner line command

def command (inner : Inner) : Reader Command := do
  let t ← token inner
  let line := (← get).line
  match t with
  | .keyword .ifWord => closedBy inner line (.keyword .fiWord) (← branch inner (← bound))
  | .keyword .whileWord =>
    let test ← inner.list .inside
    needKeyword inner .doWord
    let body ← inner.list .inside
    closedBy inner line (.keyword .doneWord) (.repeated false test body)
  | .keyword .untilWord =>
    let test ← inner.list .inside
    needKeyword inner .doWord
    let body ← inner.list .inside
    closedBy inner line (.keyword .doneWord) (.repeated true test body)
  | .keyword .forWord => closedBy inner line (.keyword .doneWord) (← each inner line)
  | .keyword .caseWord => redirected inner line (← choice inner line)
  | .openParenthesis =>
    let body ← inner.list .inside
    closedBy inner line .closeParenthesis (.subshell line body [])
  | .keyword .openBrace =>
    let body ← inner.list .inside
    closedBy inner line (.keyword .closeBrace) body
  | .word =>
    return_
    simpleFrom inner line (← bound) ⟨[], [], []⟩
  | .redirection =>
    return_
    simpleFrom inner line (← bound) ⟨[], [], []⟩
  | _ => unexpected none

def piped (inner : Inner) : Nat → Reader (List Command)
  | 0 => return []
  | fuel + 1 => do
    if (← token inner) = .pipe then
      expect .command
      let first ← command inner
      return first :: (← piped inner fuel)
    else
      return_
      return []

def pipeline (inner : Inner) : Reader Command := do
  let isNegated := (← token inner) = .keyword .notWord
  if isNegated then expect .commandHere else return_
  let first ← command inner
  let rest ← piped inner (← bound)
  let whole := if rest.isEmpty then first else .pipeline (first :: rest) false
  return if isNegated then .negated whole else whole

/-- reads what an and-or list goes on with -/
def joined (inner : Inner) : Nat → Command → Reader Command
  | 0, first => return first
  | fuel + 1, first => do
    match ← token inner with
    | .both =>
      expect .command
      joined inner fuel (.both first (← pipeline inner))
    | .either =>
      expect .command
      joined inner fuel (.either first (← pipeline inner))
    | _ =>
      return_
      return first

def andOr (inner : Inner) : Reader Command := do joined inner (← bound) (← pipeline inner)

/-- a command that runs beside the others -/
def inBackground : Command → Command
  | .pipeline commands _ => .pipeline commands true
  | .redirected line body redirects => .background line body redirects
  | command => .background 0 command []

def after (before : Option Command) (command : Command) : Command :=
  match before with
  | none => command
  | some before => .sequence before command

/-- reads a list of commands from one on; `none` at the end of the script -/
def listFrom (inner : Inner) (place : ListPlace) : Nat → Bool → Option Command → Reader (Option Command)
  | 0, _, before => return before
  | fuel + 1, isFirst, before => do
    expect (if place = .top then .commandHere else .command)
    match ← token inner with
    | .newline =>
      documents (inner.list .closed) (substitution inner)
      return some (before.getD .nothing)
    | .endOfFile =>
      documents (inner.list .closed) (substitution inner)
      return_
      modify fun s => { s with last := .endOfFile }
      return if place = .top then before else some (before.getD .nothing)
    | t =>
      return_
      if place ≠ .top && (!isFirst || place = .closed) && t.endsList then return some (before.getD .nothing)
      let command ← andOr inner
      let t ← token inner
      let whole := after before (if t = .ampersand then inBackground command else command)
      match t with
      | .newline =>
        return_
        listFrom inner place fuel false (some whole)
      | .endOfFile =>
        return_
        listFrom inner place fuel false (some whole)
      | .ampersand => listFrom inner place fuel false (some whole)
      | .semicolon => listFrom inner place fuel false (some whole)
      | _ =>
        if place = .top then unexpected none
        return_
        return some whole

def list (inner : Inner) (place : ListPlace) : Reader Command := do
  return (← listFrom inner place (← bound) true none).getD .nothing

/-- the readers of what commands hold, to a depth -/
def innerTo : Nat → Inner
  | 0 => ⟨return .endOfFile, fun _ => return .nothing, return .nothing⟩
  | depth + 1 => {
      token := fun s => (token (innerTo depth)).run s
      list := fun place s => (list (innerTo depth) place).run s
      command := fun s => (command (innerTo depth)).run s }

end Reader

/-- reads the next complete command; `none` at the end of the script -/
def Source.nextCommand (s : Source) : Except SyntaxFault (Option Command) × Source :=
  let s := { s with returned := false, expectation := .none, awaited := [] }
  let inner := Reader.innerTo (s.rest.length + 2)
  let act := Reader.listFrom inner .top (s.rest.length + 2) true none
  act.run s

end Shell

end Bench

end InterfacePages

/-
What words become.

A word is expanded to items: octets, marks of quotes, and the cuts between parameters. An item knows whether it was
quoted and whether separators in it split the word. `fields` splits items into words, `Expander.words` looks their
patterns up among the paths, and `Expander.text` only drops the quotes.
-/
import InterfacePages.Bench.Shell.Sum
import InterfacePages.Bench.Shell.Wildcard

namespace InterfacePages

namespace Bench

namespace Shell

/-- what a word is expanded to: octets, marks of quotes, cuts between parameters that keep or drop empty ones, and the
ends of what was put in -/
inductive Item where
  | octet (o : UInt8) (quoted splits : Bool)
  | mark
  | cut (keepsEmpty : Bool)
  | ending (keepsEmpty : Bool)
  deriving DecidableEq, Repr, Inhabited

namespace Item

def octets (items : List Item) : Octets :=
  items.filterMap fun item =>
    match item with
    | .octet o _ _ => some o
    | _ => none

/-- the pattern that some items make, where a backslash goes before what is quoted; `escaped` says that a backslash
that was not quoted stands before -/
def patternFrom (escaped inQuotes : Bool) : List Item → Octets
  | [] => []
  | .octet o false _ :: rest =>
    if o = 92 then o :: patternFrom (!escaped) false rest else o :: patternFrom false inQuotes rest
  | .octet o true _ :: rest =>
    let before : Octets := if !escaped then [92] else if inQuotes then [92, 92] else []
    before ++ o :: patternFrom false inQuotes rest
  | .mark :: rest => patternFrom escaped (!inQuotes) rest
  | _ :: rest => patternFrom escaped inQuotes rest

def pattern (items : List Item) : Octets := patternFrom false false items

def ofOctets (quoted : Bool) (os : Octets) : List Item := os.map fun o => .octet o quoted false

def splitting (items : List Item) : List Item :=
  (items.map fun item =>
    match item with
    | .octet o quoted _ => .octet o quoted true
    | item => item) ++ [.ending false]

end Item

/-! ## Splitting -/

def isWhite (c : UInt8) : Bool := Session.usualSeparators.contains c

/-- drops the separators after one, up to the end of what was put in; one that is no white space goes as well if the
first one was white space -/
def afterSeparator (separators : Octets) : Bool → List Item → List Item
  | wasWhite, .octet o quoted true :: rest =>
    if !separators.contains o then .octet o quoted true :: rest
    else if isWhite o then afterSeparator separators wasWhite rest
    else if wasWhite then afterSeparator separators false rest
    else .octet o quoted true :: rest
  | wasWhite, .cut false :: rest => afterSeparator separators wasWhite rest
  | _, rest => rest

/-- splits items; `field` is the field being read, last item first, and `keeps` says that the last one counts even if
it is empty -/
def fieldsFrom (separators : Octets) : Nat → Bool → List Item → List Item → List (List Item)
  | 0, _, _, _ => []
  | fuel + 1, keeps, field, items =>
    match items with
    | [] => if field.isEmpty && !keeps then [] else [field.reverse]
    | .octet o quoted true :: rest =>
      if !separators.contains o then fieldsFrom separators fuel keeps (.octet o quoted true :: field) rest
      else if field.isEmpty && isWhite o then fieldsFrom separators fuel keeps [] rest
      else field.reverse :: fieldsFrom separators fuel keeps [] (afterSeparator separators (isWhite o) rest)
    | .cut true :: rest => field.reverse :: fieldsFrom separators fuel keeps [] rest
    | .cut false :: rest =>
      if field.isEmpty then fieldsFrom separators fuel keeps [] rest
      else field.reverse :: fieldsFrom separators fuel keeps [] (afterSeparator separators true rest)
    | .ending keeps :: rest => fieldsFrom separators fuel keeps field rest
    | item :: rest => fieldsFrom separators fuel keeps (item :: field) rest

def fields (separators : Octets) (items : List Item) : List (List Item) :=
  fieldsFrom separators (items.length + 1) false [] items

/-! ## Expanding -/

/-- where a word stands: whether quotes are kept, whether it may become several words, whether it stands inside a
parameter, and whether a tilde counts at its beginning or also in an assignment -/
structure Setting where
  quoted : Bool
  several : Bool
  inside : Bool
  tilde : Bool
  assigns : Bool
  deriving DecidableEq, Repr, Inhabited

namespace Setting

def word : Setting := ⟨false, true, false, true, false⟩

def single : Setting := ⟨false, false, false, true, false⟩

def assignment : Setting := ⟨false, false, false, false, true⟩

def document : Setting := ⟨true, false, false, false, false⟩

end Setting

/-- expands a word to items; the word may hold others -/
abbrev Expander := Setting → Word → Run (List Item)

namespace Expansion

/-- the names of the options that are on, as `$-` gives them -/
def optionLetters : Octets := "efIimnsxvVECabu"

def joinedParameters (quoted : Bool) (separator : List Item) : List Octets → List Item
  | [] => []
  | [p] => Item.ofOctets quoted p
  | p :: ps => Item.ofOctets quoted p ++ separator ++ joinedParameters quoted separator ps

/-- all parameters; `each` says that they stay apart even between quotes -/
def allParameters (s : Session) (at_ : Setting) (each : Bool) : List Item :=
  let separator : List Item :=
    if each && at_.quoted && at_.several then [.cut true]
    else if at_.several && !at_.quoted then [.cut false]
    else
      match s.value? "IFS" with
      | none => [.octet 32 at_.quoted false]
      | some os => Item.ofOctets at_.quoted (os.take 1)
  joinedParameters at_.quoted separator s.parameters

/-- the value of a parameter, if it is set -/
def parameter? (s : Session) (at_ : Setting) (name : Octets) : Option (List Item) :=
  let items (os : Octets) := Item.ofOctets at_.quoted os
  match name with
  | [] => none
  | c :: _ =>
    match Char.ofUInt8 c with
    | '$' => some (items (Octets.decimal s.process))
    | '?' => some (items (Octets.decimal s.status))
    | '#' => some (items (Octets.decimal s.parameters.length))
    | '!' => if s.lastBackground = 0 then none else some (items (Octets.decimal s.lastBackground))
    | '-' => some (items ((optionLetters.filter s.options.contains).reverse))
    | '@' => some (allParameters s at_ true)
    | '*' => some (allParameters s at_ false)
    | _ =>
      if Octet.isDigit c then
        let n := Octets.valueIn 10 name
        if n = 0 then some (items s.title) else (s.parameters[n - 1]?).map items
      else (s.value? name).map items

/-- items with the end of what was put in, which separators split unless it is quoted -/
def placed (s : Session) (at_ : Setting) (name : Octets) (items : List Item) : List Item :=
  if at_.quoted then
    if name = [64] ∧ !s.parameters.isEmpty then items ++ [.ending true] else items
  else Item.splitting items

/-- the words for a parameter that is not set -/
def demandWords (orEmpty : Bool) (given : Octets) (isGiven : Bool) : Octets :=
  if isGiven then given else if orEmpty then "parameter not set or null" else "parameter not set"

/-- all ways to cut octets in two, the shortest beginning first -/
def cuts : Octets → List (Octets × Octets)
  | [] => [([], [])]
  | c :: rest => ([], c :: rest) :: (cuts rest).map fun (a, b) => (c :: a, b)

def startLength? (longest : Bool) (pattern os : Octets) : Option Nat :=
  let ways := if longest then (cuts os).reverse else cuts os
  (ways.find? fun (a, _) => Wildcard.agrees pattern a).map fun (a, _) => a.length

/-- how many octets are left when a pattern has been taken from the end -/
def endLength? (longest : Bool) (pattern os : Octets) : Option Nat :=
  let ways := if longest then cuts os else (cuts os).reverse
  (ways.find? fun (_, b) => Wildcard.agrees pattern b).map fun (a, _) => a.length

def dropOctets : Nat → List Item → List Item
  | 0, items => items
  | _, [] => []
  | n + 1, .octet _ _ _ :: rest => dropOctets n rest
  | n + 1, _ :: rest => dropOctets (n + 1) rest

def takeOctets : Nat → List Item → List Item
  | 0, _ => []
  | _, [] => []
  | n + 1, .octet o q s :: rest => .octet o q s :: takeOctets n rest
  | n + 1, item :: rest => item :: takeOctets (n + 1) rest

/-- how long a value is, cuts included -/
def lengthOf (items : List Item) : Nat :=
  (items.filter fun item =>
    match item with
    | .octet _ _ _ => true
    | .cut _ => true
    | _ => false).length

def parameter (expand : Expander) (at_ : Setting) (name : Octets) (rule : Rule) (orEmpty : Bool) (word : Word) :
    Run (List Item) := do
  let s ← Run.shell
  if rule = .unknown then Run.fail .badSubstitution
  let value := parameter? s at_ name
  let present := value.filter fun items => !orEmpty || lengthOf items > 0
  let inner := { at_ with inside := true, tilde := true, assigns := false }
  let plain : Setting := { Setting.single with quoted := at_.quoted }
  let wanted : Run (List Item) := do
    if present.isNone && s.options.contains 117 then Run.fail (.notSet name (demandWords false [] false))
    return value.getD []
  match rule with
  | .value =>
    let items ← wanted
    if present.isNone then return []
    return placed s at_ name items
  | .length =>
    let items ← wanted
    return placed s at_ [] (Item.ofOctets at_.quoted (Octets.decimal (lengthOf items)))
  | .orElse =>
    match present with
    | some items => return placed s at_ name items
    | none => expand inner word
  | .ifPresent => if present.isSome then expand inner word else return placed s at_ name []
  | .assign =>
    match present with
    | some items => return placed s at_ name items
    | none =>
      let given := Item.octets (← expand plain word)
      if !name.isName then Run.fail (.badName name)
      Run.assign name given
      let s ← Run.shell
      return placed s at_ name ((parameter? s at_ name).getD [])
  | .demand =>
    match present with
    | some items => return placed s at_ name items
    | none =>
      let given := Item.octets (← expand plain word)
      Run.fail (.notSet name (demandWords orEmpty given !word.isEmpty))
  | .dropStart longest =>
    let items ← wanted
    if present.isNone then return []
    let pattern := Item.pattern (← expand Setting.single word)
    match startLength? longest pattern (Item.octets items) with
    | some n => return placed s at_ name (dropOctets n items)
    | none => return placed s at_ name items
  | .dropEnd longest =>
    let items ← wanted
    if present.isNone then return []
    let pattern := Item.pattern (← expand Setting.single word)
    match endLength? longest pattern (Item.octets items) with
    | some n => return placed s at_ name (takeOctets n items)
    | none => return placed s at_ name items
  | .unknown => return []

/-- drops the line feeds at the end, and zero octets -/
def trimmedOutput (os : Octets) : Octets := ((os.reverse.dropWhile (· == 10)).reverse).filter (· != 0)

/-- what a tilde and the name after it stand for, and the pieces after them -/
def tilde (at_ : Setting) (w : Word) : Run (List Item × Word) := do
  match w with
  | .octet 126 false :: rest =>
    let isEnd (p : Piece) : Bool :=
      match p with
      | .octet o false => o == 47 || (o == 58 && at_.assigns)
      | _ => false
    let name := rest.takeWhile fun p => !isEnd p
    match name, (← Run.value? "HOME") with
    | [], some home =>
      if home.isEmpty then return ([], w)
      return (Item.ofOctets true home, rest)
    | _, _ => return ([], w)
  | w => return ([], w)

/-- expands the pieces of a word; `inQuotes` says that quotes are open, `sawEquals` that an equals sign went before, and
`atStart` that a tilde counts here -/
def piecesFrom (capture : Command → Run Octets) (expand : Expander) (at_ : Setting) :
    Nat → Bool → Bool → Bool → Word → Run (List Item)
  | 0, _, _, _, _ => return []
  | fuel + 1, inQuotes, sawEquals, atStart, w => do
    let here := { at_ with quoted := at_.quoted || inQuotes }
    let (home, w) ← if atStart then tilde at_ w else pure ([], w)
    let rest (inQuotes sawEquals atStart : Bool) (w : Word) : Run (List Item) :=
      piecesFrom capture expand at_ fuel inQuotes sawEquals atStart w
    let tail ← match w with
      | [] => return home
      | .mark :: .parameter [64] .value false [] :: .mark :: w =>
        if inQuotes then
          let items ← rest (!inQuotes) sawEquals false (.parameter [64] .value false [] :: .mark :: w)
          pure (Item.mark :: items)
        else do
          let items ← parameter expand { at_ with quoted := true } [64] .value false []
          pure (items ++ (← rest inQuotes sawEquals false w))
      | .mark :: w => pure (Item.mark :: (← rest (!inQuotes) sawEquals false w))
      | .octet o quoted :: w =>
        let first := o == 61 && !quoted && at_.assigns && !sawEquals
        let startsHome := !quoted && at_.assigns && (first || (sawEquals && o == 58))
        let splits := at_.inside && !at_.quoted && !inQuotes && !quoted
        pure (Item.octet o (quoted || here.quoted) splits :: (← rest inQuotes (sawEquals || first) startsHome w))
      | .parameter name rule orEmpty word :: w =>
        let items ← parameter expand { here with tilde := false, assigns := false } name rule orEmpty word
        pure (items ++ (← rest inQuotes sawEquals false w))
      | .output command :: w =>
        let items := Item.ofOctets here.quoted (trimmedOutput (← capture command))
        let items := if here.quoted then items else Item.splitting items
        pure (items ++ (← rest inQuotes sawEquals false w))
      | .sum expression :: w =>
        let n ← Sum.value (Item.octets (← expand { Setting.single with quoted := true, tilde := false } expression))
        let items := Item.ofOctets here.quoted (Octets.integer n)
        let items := if here.quoted then items else Item.splitting items
        pure (items ++ (← rest inQuotes sawEquals false w))
    return home ++ tail

/-- expands a word, to a depth -/
def expandTo (capture : Command → Run Octets) : Nat → Expander
  | 0, _, _ => Run.exhausted
  | depth + 1, at_, w => piecesFrom capture (expandTo capture depth) at_ (w.length + 1) false false at_.tilde w

/-- how deep words may stand inside words -/
def deepest : Nat := 1000

def expand (capture : Command → Run Octets) : Expander := expandTo capture deepest

/-- the words that a field becomes -/
def pathsOf (field : List Item) : Run (List Octets) := do
  let plain := Item.octets field
  if (← Run.option 102) || !plain.any (fun c => c == 42 || c == 63 || c == 91) then return [plain]
  let found ← Wildcard.paths (Item.pattern field)
  return if found.isEmpty then [plain] else found

def words (capture : Command → Run Octets) (w : Word) : Run (List Octets) := do
  let items ← expand capture .word w
  let found ← (fields (← Run.shell).separators items).mapM pathsOf
  return found.flatten

def allWords (capture : Command → Run Octets) (ws : List Word) : Run (List Octets) := do
  let found ← ws.mapM (words capture)
  return found.flatten

def text (capture : Command → Run Octets) (at_ : Setting) (w : Word) : Run Octets := do
  return Item.octets (← expand capture at_ w)

def pattern (capture : Command → Run Octets) (w : Word) : Run Octets := do
  return Item.pattern (← expand capture .single w)

end Expansion

end Shell

end Bench

end InterfacePages

/-
Words of a script.

A word is read octet by octet. What an octet means depends on the innermost layer: plain text, text between quotation
marks or apostrophes, or a sum. Braces open further layers when they change what octets mean; what is open and not yet
closed is kept beside the layers, so the pieces of a parameter's word end up inside it. The same reader goes through
the lines of a document, which ends at its mark.
-/
import InterfacePages.Bench.Shell.Source

namespace InterfacePages

namespace Bench

namespace Shell

inductive Table where
  | plain
  | quotes
  | apostrophes
  | arithmetic
  deriving DecidableEq, Repr, Inhabited

/-- a layer: its table, the parentheses open in a sum, whether a brace opened it, the braces open in it, those of them
between quotes, and whether quotes are open inside braces or at all -/
structure Layer where
  table : Table
  parentheses : Nat
  pushed : Bool
  braces : Nat
  quotedBraces : Nat
  innerQuotes : Bool
  inQuotes : Bool
  deriving DecidableEq, Repr, Inhabited

def Layer.start (table : Table) : Layer := ⟨table, 0, false, 0, 0, false, table == .quotes⟩

/-- what is open and not yet closed -/
inductive Opener where
  | parameter (name : Octets) (rule : Rule) (orEmpty : Bool)
  | sum
  deriving DecidableEq, Repr, Inhabited

/-- how far a word has been read; pieces stand last first, those before each opener with it -/
structure Reading where
  layer : Layer
  outer : List Layer
  opened : List (Opener × List Piece)
  pieces : List Piece
  quoted : Bool
  deriving Inhabited

namespace Reading

/-- nothing has been read -/
def start (table : Table) : Reading := ⟨.start table, [], [], [], false⟩

def add (r : Reading) (piece : Piece) : Reading := { r with pieces := piece :: r.pieces }

/-- adds an octet, quoted or not -/
def octet (r : Reading) (o : UInt8) (quoted : Bool) : Reading := r.add (.octet o quoted)

/-- starts what will become the word of a parameter or a sum -/
def openPiece (r : Reading) (opener : Opener) : Reading :=
  { r with opened := (opener, r.pieces) :: r.opened, pieces := [] }

/-- closes what was opened last -/
def closePiece (r : Reading) : Reading :=
  match r.opened with
  | [] => r
  | (.parameter name rule orEmpty, before) :: opened =>
    { r with opened := opened, pieces := .parameter name rule orEmpty r.pieces.reverse :: before }
  | (.sum, before) :: opened => { r with opened := opened, pieces := .sum r.pieces.reverse :: before }

def push (r : Reading) (layer : Layer) : Reading := { r with layer := layer, outer := r.layer :: r.outer }

/-- closes the innermost layer -/
def pop (r : Reading) : Reading :=
  match r.outer with
  | [] => r
  | layer :: outer => { r with layer := layer, outer := outer }

/-- changes the innermost layer -/
def onLayer (r : Reading) (f : Layer → Layer) : Reading := { r with layer := f r.layer }

end Reading

/-- what is being read: a word, the mark of a document, or a document up to a line -/
inductive Mode where
  | word
  | mark
  | document (endLine : Octets) (dropsTabs : Bool)
  deriving DecidableEq, Repr, Inhabited

/-- a document is being read -/
def Mode.isDocument : Mode → Bool
  | .document _ _ => true
  | _ => false

def endsWord (c : UInt8) : Bool := ("<>();&| \t" : Octets).contains c

/-- a parameter that is named by a sign -/
def isSpecialName (c : UInt8) : Bool := ("!#$*-?@" : Octets).contains c || Octet.isDigit c

/-- whether an octet after a dollar names a parameter or opens something -/
def mayFollowDollar (c : UInt8) : Bool := c == 40 || c == 123 || Octet.isNameStart c || isSpecialName c

/-- what is read where commands stand inside a word -/
abbrev ReadList := Reader Command

namespace Reader

/-- the next octet in a layer; between apostrophes lines are not joined -/
def nextIn (layer : Layer) : Reader (Option UInt8) := if layer.table = .apostrophes then next else nextJoined

/-- reads octets of a class, joined lines left out; what is read stands last first -/
def takeWhile (p : UInt8 → Bool) : Nat → Option UInt8 → Octets → Reader (Octets × Option UInt8)
  | 0, c, taken => return (taken, c)
  | fuel + 1, c, taken =>
    match c with
    | none => return (taken, none)
    | some o => if p o then do takeWhile p fuel (← nextJoined) (o :: taken) else return (taken, c)

/-! ## Parameters -/

/-- the rule that an octet after the name of a parameter stands for -/
def ruleOf? (c : UInt8) : Option Rule :=
  match Char.ofUInt8 c with
  | '\x7d' => some .value
  | '-' => some .orElse
  | '+' => some .ifPresent
  | '?' => some .demand
  | '=' => some .assign
  | _ => none

/-- the head of a parameter: its name, its rule, whether an empty value counts as none, whether a brace is open, and
whether patterns follow -/
structure Head where
  name : Octets
  rule : Rule
  orEmpty : Bool
  isOpen : Bool
  isPattern : Bool
  deriving Inhabited

/-- reads the rule of a parameter in braces, starting at the octet after the name -/
def ruleAfter (name : Octets) (c : Option UInt8) : Reader Head := do
  let plain (c : Option UInt8) (orEmpty : Bool) : Head :=
    let rule := (c.bind ruleOf?).getD .unknown
    ⟨name, rule, orEmpty, rule != .value || orEmpty, false⟩
  match c with
  | some 58 => return plain (← nextJoined) true
  | some 37 =>
    let d ← nextJoined
    if d = some 37 then return ⟨name, .dropEnd true, false, true, true⟩
    unread d
    return ⟨name, .dropEnd false, false, true, true⟩
  | some 35 =>
    let d ← nextJoined
    if d = some 35 then return ⟨name, .dropStart true, false, true, true⟩
    unread d
    return ⟨name, .dropStart false, false, true, true⟩
  | c => return plain c false

/-- a parameter that cannot be understood -/
def badHead (name : Octets) (c : Option UInt8) : Reader Head := do
  unread c
  return ⟨name, .unknown, false, true, false⟩

def lengthAfter (name : Octets) (c : Option UInt8) : Reader Head := do
  unread c
  return ⟨name, if c = some 125 then .length else .unknown, false, true, false⟩

def bracedHead (c : Option UInt8) : Reader Head := do
  let fuel ← bound
  match c with
  | none => badHead [] none
  | some o =>
    if Octet.isNameStart o then
      let (name, c) ← takeWhile Octet.isNamePart fuel (some o) []
      ruleAfter name.reverse c
    else if Octet.isDigit o then
      let (name, c) ← takeWhile Octet.isDigit fuel (some o) []
      ruleAfter name.reverse c
    else if o = 125 then badHead [] c
    else
      let c ← nextJoined
      if o = 35 then
        match c with
        | some d =>
          if Octet.isNameStart d then
            let (name, c) ← takeWhile Octet.isNamePart fuel (some d) []
            lengthAfter name.reverse c
          else if Octet.isDigit d then
            let (name, c) ← takeWhile Octet.isDigit fuel (some d) []
            lengthAfter name.reverse c
          else
            let after ← nextJoined
            if d = 125 || after != some 125 then
              unread after
              ruleAfter [35] (some d)
            else if isSpecialName d then lengthAfter [d] after
            else badHead [] after
        | none => ruleAfter [35] none
      else if isSpecialName o then ruleAfter [o] c
      else badHead [] c

/-- reads a parameter without braces from its first octet on -/
def bareHead (o : UInt8) : Reader Head := do
  if Octet.isNameStart o then
    let (name, c) ← takeWhile Octet.isNamePart (← bound) (some o) []
    unread c
    return ⟨name.reverse, .value, false, false, false⟩
  else return ⟨[o], .value, false, false, false⟩

def addParameter (r : Reading) (head : Head) : Reading :=
  if !head.isOpen then r.add (.parameter head.name head.rule head.orEmpty [])
  else
    let table := if head.isPattern then .plain else if r.layer.table = .arithmetic then .quotes else r.layer.table
    let opened := r.openPiece (.parameter head.name head.rule head.orEmpty)
    let layered :=
      if table ≠ r.layer.table || r.layer.innerQuotes then
        opened.push { Layer.start table with pushed := true, inQuotes := table != .plain }
      else opened
    layered.onLayer fun l =>
      { l with braces := l.braces + 1, quotedBraces := l.quotedBraces + if l.inQuotes then 1 else 0 }

/-! ## Commands inside words -/

/-- the script between backquotes, with the backslashes that only kept it together taken out -/
def backquoted (inQuotes : Bool) : Nat → Octets → Reader Octets
  | 0, _ => throw .openBackquote
  | fuel + 1, taken => do
    match ← nextJoined with
    | none => throw .openBackquote
    | some 96 => return taken.reverse
    | some 92 =>
      match ← next with
      | none => throw .openBackquote
      | some c =>
        let dropped := c == 92 || c == 96 || c == 36 || (inQuotes && c == 34)
        backquoted inQuotes fuel (c :: if dropped then taken else 92 :: taken)
    | some 10 =>
      countLine
      backquoted inQuotes fuel (10 :: taken)
    | some c => backquoted inQuotes fuel (c :: taken)

def apart (act : Reader Command) : Reader Command := do
  let awaited := (← get).awaited
  modify fun s => { s with awaited := [] }
  let command ← act
  modify fun s =>
    let missed := s.awaited.map fun a => ⟨a.number, []⟩
    { s with awaited := awaited, documents := s.documents ++ missed }
  return command

/-- reads the commands between backquotes, as a script of their own -/
def oldSubstitution (list : ReadList) (inQuotes : Bool) : Reader Command := do
  let script ← backquoted inQuotes (← bound) []
  let s ← get
  if script.isEmpty then
    let command ← apart list
    modify fun s => { s with returned := false }
    return command
  set { s with rest := script, line := 1, returned := false }
  let command ← apart list
  modify fun after => { after with rest := s.rest, line := s.line, returned := false }
  return command

/-! ## Octet by octet -/

/-- what an octet in a document or word leads to: the end, or how far the word is read then -/
inductive Step where
  | done
  | goOn (r : Reading)
  | lineEnd (r : Reading)

/-- reads what a dollar introduces; `list` reads commands up to a token, `closing` the parenthesis after them -/
def dollar (mode : Mode) (substitution : Reader Command) (r : Reading) : Reader Reading := do
  let c ← nextJoined
  match c with
  | none => return r.octet 36 false
  | some o =>
    if mode == .mark || !mayFollowDollar o then
      unread c
      return r.octet 36 false
    else if o = 40 then
      let d ← nextJoined
      if d = some 40 then
        return (r.openPiece .sum).push { Layer.start .arithmetic with inQuotes := true }
      unread d
      return r.add (.output (← substitution))
    else if o = 123 then return addParameter r (← bracedHead (← nextJoined))
    else return addParameter r (← bareHead o)

/-- a mark where quotes open or close, which documents do not have -/
def addMark (mode : Mode) (r : Reading) : Reading := if mode.isDocument then r else r.add .mark

/-- quotation marks open or close inside braces -/
def toggleInner (r : Reading) : Reading :=
  r.onLayer fun l => { l with innerQuotes := if l.braces > 0 then !l.innerQuotes else l.innerQuotes }

def backslash (mode : Mode) (r : Reading) : Reader Reading := do
  match ← next with
  | none => return r.octet 92 true
  | some c =>
    let l := r.layer
    let kept := l.inQuotes && c != 92 && c != 96 && c != 36 &&
      (c != 34 || (mode.isDocument && l.braces == 0)) && (c != 125 || l.braces == 0)
    let r := if kept then r.octet 92 true else r
    return { r.octet c true with quoted := true }

def closeQuote (mode : Mode) (r : Reading) (c : UInt8) : Reading :=
  if mode.isDocument && r.layer.braces == 0 then r.octet c true
  else
    let r := if r.layer.quotedBraces == 0 then r.onLayer fun l => { l with table := .plain, inQuotes := false } else r
    let r := { r with quoted := true }
    addMark mode (if c = 34 then toggleInner r else r)

def closeBrace (r : Reading) : Reading :=
  let l := r.layer
  if !l.innerQuotes && l.braces > 0 then
    let closed := r.closePiece
    if l.braces == 1 && l.pushed then closed.pop
    else
      closed.onLayer fun l => { l with braces := l.braces - 1, quotedBraces := l.quotedBraces - 1 }
  else r.octet 125 l.inQuotes

def closeParenthesis (r : Reading) : Reader Reading := do
  if r.layer.parentheses > 0 then
    return (r.octet 41 false).onLayer fun l => { l with parentheses := l.parentheses - 1 }
  let d ← nextJoined
  if d = some 41 then return r.closePiece.pop
  unread d
  return r.octet 41 false

def step (list substitution : ReadList) (mode : Mode) (r : Reading) (c : UInt8) : Reader Step := do
  let table := r.layer.table
  if c = 10 then
    if table = .plain && r.layer.braces == 0 then return .done
    countLine
    return .lineEnd (r.octet 10 (r.layer.inQuotes || table == .apostrophes))
  match table, Char.ofUInt8 c with
  | .apostrophes, '\x27' => return .goOn (closeQuote mode r c)
  | .apostrophes, _ => return .goOn (r.octet c true)
  | .plain, '\x27' => return .goOn (addMark mode (r.onLayer fun l => { l with table := .apostrophes }))
  | .plain, '\x22' =>
    return .goOn (addMark mode (toggleInner (r.onLayer fun l => { l with table := .quotes, inQuotes := true })))
  | .quotes, '\x22' => return .goOn (closeQuote mode r c)
  | .arithmetic, '(' =>
    return .goOn ((r.octet c false).onLayer fun l => { l with parentheses := l.parentheses + 1 })
  | .arithmetic, ')' => return .goOn (← closeParenthesis r)
  | _, '\\' => return .goOn (← backslash mode r)
  | _, '$' => return .goOn (← dollar mode substitution r)
  | _, '\x7d' => return .goOn (closeBrace r)
  | _, '\x60' =>
    if mode = .mark then return .goOn (r.octet c false)
    return .goOn (r.add (.output (← oldSubstitution list r.layer.inQuotes)))
  | .plain, _ =>
    if endsWord c && r.layer.braces == 0 then return .done
    return .goOn (r.octet c false)
  | _, _ => return .goOn (r.octet c true)

def dropTabs : Nat → Option UInt8 → Reader (Option UInt8)
  | 0, c => return c
  | fuel + 1, c => if c = some 9 then do dropTabs fuel (← nextJoined) else return c

/-- whether the octets of a line agree with the mark, starting at the octet already read -/
def matchesMark (layer : Layer) : Octets → Option UInt8 → Reader Bool
  | [], c => return c == none || c == some 10
  | m :: mark, c =>
    if c = some m then do matchesMark layer mark (← nextIn layer) else return false

/-- at the beginning of a line: the octet to go on with, none if the document ends here -/
def lineStart (mode : Mode) (r : Reading) (c : Option UInt8) : Reader (Option UInt8) := do
  match mode with
  | .document mark tabs =>
    let c ← if tabs then dropTabs (← bound) c else pure c
    let s ← get
    if ← matchesMark r.layer mark c then
      countLine
      return none
    set s
    return c
  | _ => return c

/-- reads on from an octet to the end of the word; the octet after it comes with the answer -/
def wordFrom (list substitution : ReadList) (mode : Mode) : Nat → Reading → Option UInt8 →
    Reader (Reading × Option UInt8)
  | 0, r, c => return (r, c)
  | fuel + 1, r, c => do
    match c with
    | none => return (r, none)
    | some o =>
      match ← step list substitution mode r o with
      | .done => return (r, c)
      | .goOn r => wordFrom list substitution mode fuel r (← nextIn r.layer)
      | .lineEnd r => do wordFrom list substitution mode fuel r (← lineStart mode r (← nextIn r.layer))

/-- refuses a word in which something is still open -/
def checkClosed (mode : Mode) (r : Reading) : Reader Unit := do
  if r.layer.table = .arithmetic then throw .openParentheses
  if r.layer.table ≠ .plain && !mode.isDocument then throw .openQuote
  if r.layer.braces > 0 then throw .openBrace

def wordToken (list substitution : ReadList) (mode : Mode) (c : Option UInt8) : Reader Token := do
  let (r, c) ← wordFrom list substitution mode (← bound) (.start .plain) c
  checkClosed mode r
  let word := r.pieces.reverse
  let descriptor? : Option (Option Nat) :=
    match word with
    | [] => some none
    | [.octet d false] => if Octet.isDigit d then some (some (d.toNat - 48)) else none
    | _ => none
  match descriptor?, c with
  | some given, some 62 =>
    let d ← nextJoined
    let kind ← match d with
      | some 62 => pure RedirectKind.append
      | some 124 => pure RedirectKind.clobber
      | some 38 => pure RedirectKind.copy
      | d => do
        unread d
        pure RedirectKind.output
    modify fun s => { s with redirect := .named (given.getD 1) kind }
    return .redirection
  | some given, some 60 =>
    let d ← nextJoined
    let redirect ← match d with
      | some 60 => do
        let e ← nextJoined
        if e = some 45 then pure (OpenRedirect.document (given.getD 0) true)
        else do
          unread e
          pure (OpenRedirect.document (given.getD 0) false)
      | some 38 => pure (OpenRedirect.named (given.getD 0) .copy)
      | some 62 => pure (OpenRedirect.named (given.getD 0) .both)
      | d => do
        unread d
        pure (OpenRedirect.named (given.getD 0) .input)
    modify fun s => { s with redirect := redirect }
    return .redirection
  | _, _ =>
    unread c
    modify fun s => { s with word := word, quoted := r.quoted }
    return .word

def awaitedDocuments (list substitution : ReadList) : List Awaited → Reader Unit
  | [] => return
  | a :: rest => do
    let mode := Mode.document a.mark a.dropsTabs
    let start := Reading.start (if a.expands then .quotes else .apostrophes)
    let c ← lineStart mode start (← nextIn start.layer)
    let (r, _) ← wordFrom list substitution mode (← bound) start c
    checkClosed mode r
    modify fun s => { s with documents := s.documents ++ [⟨a.number, r.pieces.reverse⟩] }
    awaitedDocuments list substitution rest

def documents (list substitution : ReadList) : Reader Unit := do
  let awaited := (← get).awaited
  modify fun s => { s with awaited := [] }
  awaitedDocuments list substitution awaited

end Reader

end Shell

end Bench

end InterfacePages

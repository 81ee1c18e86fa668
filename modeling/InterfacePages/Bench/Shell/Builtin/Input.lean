/-
The builtin commands that take things apart: `read` lines and `getopts` options.
-/
import InterfacePages.Bench.Shell.Builtin.State
import InterfacePages.Bench.Shell.Expansion

namespace InterfacePages

namespace Bench

namespace Shell

namespace Builtin

/-! ## Lines -/

/-- reads a line: its octets, each with whether a separator in it splits, and whether the line ended -/
def readLine (raw : Bool) : Nat → Bool → List (UInt8 × Bool) → Run (List (UInt8 × Bool) × Bool)
  | 0, _, taken => return (taken.reverse, false)
  | fuel + 1, escaped, taken => do
    match ← Run.read 1 0 with
    | .error _ => return (taken.reverse, false)
    | .ok [] => return (taken.reverse, false)
    | .ok (c :: _) =>
      if c = 0 then readLine raw fuel escaped taken
      else if escaped then
        if c = 10 then readLine raw fuel false taken else readLine raw fuel false ((c, false) :: taken)
      else if !raw && c == 92 then readLine raw fuel true taken
      else if c = 10 then return (taken.reverse, true)
      else readLine raw fuel false ((c, true) :: taken)

/-- the last of the fields that are asked for, from its first separator on: separators at the end are dropped.
`kept` is where they begin, if all since then has been separators, and `afterWhite` says that the first one was white -/
def lastField (separators : Octets) : List (UInt8 × Bool) → Option Nat → Bool → Octets → Octets
  | [], kept, _, field => field.reverse.take (kept.getD field.length)
  | (c, false) :: rest, kept, afterWhite, field => lastField separators rest kept afterWhite (c :: field)
  | (c, true) :: rest, kept, afterWhite, field =>
    let isSeparator := separators.contains c
    if isSeparator && isWhite c then
      lastField separators rest (some (kept.getD field.length)) afterWhite (c :: field)
    else lastField separators rest (if isSeparator && afterWhite then kept else none) false (c :: field)

def afterFieldEnd (separators : Octets) : Bool → List (UInt8 × Bool) → List (UInt8 × Bool)
  | wasWhite, (c, true) :: rest =>
    if !separators.contains c then (c, true) :: rest
    else if isWhite c then afterFieldEnd separators wasWhite rest
    else if wasWhite then afterFieldEnd separators false rest
    else (c, true) :: rest
  | _, rest => rest

/-- the fields of a line, at most `count` of them; `field` is the one being read, last octet first -/
def lineFields (separators : Octets) : Nat → Nat → Octets → List (UInt8 × Bool) → List Octets
  | 0, _, _, _ => []
  | fuel + 1, count, field, items =>
    match items with
    | [] => if field.isEmpty then [] else [field.reverse]
    | (c, splits) :: rest =>
      if !splits || !separators.contains c then lineFields separators fuel count (c :: field) rest
      else if field.isEmpty && isWhite c then lineFields separators fuel count [] rest
      else if count ≤ 1 then [lastField separators rest (some field.length) (isWhite c) (c :: field)]
      else
        field.reverse ::
          lineFields separators fuel (count - 1) [] (afterFieldEnd separators (isWhite c) rest)

/-- gives variables the fields, and those left over nothing -/
def assignFields : List Octets → List Octets → Run Unit
  | [], _ => return
  | name :: names, fields => do
    checkName name
    Run.assign name (fields.headD [])
    assignFields names fields.tail

/-- reads a line into variables -/
def read : Operation := fun args => do
  let (found, names) ← options "p:r" args
  if names.isEmpty then Run.fail .lacksNames
  let raw := found.any fun e => e.1 = 114
  let left ← match ← Run.stream? 0 with
    | some (_, stream) => Run.left stream
    | none => pure 0
  let (items, ended) ← readLine raw (left + 1) false []
  let separators := (← Run.shell).separators
  assignFields names (lineFields separators (items.length + 1) names.length [] items)
  return if ended then 0 else 1

/-! ## Options -/

/-- what the next option is: its letter or a sign, its argument if it has one, how many words are used then, and how
far the last of them is -/
structure OptionFound where
  letter : UInt8
  argument : Option Octets
  word : Nat
  offset : Nat
  done : Bool
  complaint : Octets
  deriving Inhabited

/-- finds the next option at a letter of a word; `word` words are used, `rest` are those after -/
def optionAt (known : Octets) (word offset : Nat) (letters : Octets) (rest : List Octets) : OptionFound :=
  match letters with
  | [] => ⟨63, none, word, 0, true, []⟩
  | c :: letters =>
    let quiet := known.head? == some 58
    let next := if letters.isEmpty then 0 else offset + 1
    let after := known.dropWhile (· != c)
    if c = 58 || after.isEmpty then
      if quiet then ⟨63, some [c], word, next, false, []⟩
      else ⟨63, none, word, next, false, "Illegal option -" ++ [c] ++ "\n"⟩
    else if (after.drop 1).head? ≠ some 58 then ⟨c, some [], word, next, false, []⟩
    else if !letters.isEmpty then ⟨c, some letters, word, 0, false, []⟩
    else
      match rest with
      | given :: _ => ⟨c, some given, word + 1, 0, false, []⟩
      | [] =>
        if quiet then ⟨58, some [c], word, next, false, []⟩
        else ⟨63, none, word, next, false, "No arg for -" ++ [c] ++ " option\n"⟩

def findOption (known : Octets) (words : List Octets) (word offset : Nat) : OptionFound :=
  let current := (words[word - 1]?).getD []
  let inWord := if 0 < word ∧ 0 < offset then current.drop offset else []
  if !inWord.isEmpty then optionAt known word offset inWord (words.drop word)
  else
    match words.drop word with
    | [45, 45] :: _ => ⟨63, none, word + 1, 0, true, []⟩
    | (45 :: c :: letters) :: rest => optionAt known (word + 1) 1 (c :: letters) rest
    | _ => ⟨63, none, word, 0, true, []⟩

/-- reads the next option of the parameters, or of further arguments -/
def getopts : Operation := fun args => do
  match args with
  | known :: name :: given =>
    let s ← Run.shell
    let words := if given.isEmpty then s.parameters else given
    let (index, offset) := if words.length + 1 < s.nextOption.1 then (1, 0) else s.nextOption
    let found := findOption known words (index - 1) offset
    let _ ← Run.write 2 found.complaint
    match found.argument with
    | some value => Run.assign "OPTARG" value
    | none => if !found.done then Run.unset "OPTARG"
    Run.assign "OPTIND" (Octets.decimal (found.word + 1))
    checkName name
    Run.assign name [found.letter]
    Run.onShell fun s => { s with nextOption := (found.word + 1, found.offset) }
    return if found.done then 1 else 0
  | _ => Run.fail (.usage "Usage: getopts optstring var [arg...]")

end Builtin

end Shell

end Bench

end InterfacePages

/-
How tools show what they were given.

`Quoting.name` puts a name between quotes only if a shell would read it as something else. `Quoting.word` puts anything
between curved quotes and shows what is not printable by escapes. `Tool` is what a tool does with its arguments.
-/
import InterfacePages.Bench.Shell.Machine
import InterfacePages.Text.Printable

namespace InterfacePages

namespace Bench

/-- a tool: what the name it is called by and its arguments come to as a status -/
abbrev Tool := Octets → List Octets → Shell.Run Nat

namespace Quoting

def escapeLetter? (c : Nat) : Option UInt8 :=
  match c with
  | 7 => some 97
  | 8 => some 98
  | 9 => some 116
  | 10 => some 110
  | 11 => some 118
  | 12 => some 102
  | 13 => some 114
  | _ => none

/-- an octet as three octal digits after a backslash -/
def octal (o : UInt8) : Octets :=
  [92, (o.toNat / 64 + 48).toUInt8, (o.toNat / 8 % 8 + 48).toUInt8, (o.toNat % 8 + 48).toUInt8]

/-- a code point that is shown as it is -/
def isShown (c : Nat) : Bool := !Text.isSurrogate c && Text.isPrintable c

/-- a code point by its escape -/
def escaped (c : Nat) : Octets :=
  match escapeLetter? c with
  | some letter => [92, letter]
  | none => (Text.strayOctetsOf c).flatMap octal

/-- octets between curved quotes -/
def word (os : Octets) : Octets :=
  let inner (c : Nat) : Octets := if c = 92 then [92, 92] else if isShown c then Text.strayOctetsOf c else escaped c
  "‘" ++ os.text.flatMap inner ++ "’"

/-- octets with escapes for those that are not printable -/
def visible (os : Octets) : Octets :=
  os.flatMap fun o => if o = 92 then [92, 92] else if Octet.isPrintable o then [o] else escaped o.toNat

/-- the octets that have a meaning for a shell wherever they stand -/
def special : Octets := " !\"$&'()*;<=>[\\^\x60|:"

/-- a code point that can stand between quotation marks with an apostrophe -/
def isPlain (c : Nat) : Bool :=
  if c < 128 then
    c == 32 || c == 37 || c == 39 || c == 93 || c == 95 || (decide (43 ≤ c) && decide (c ≤ 58)) ||
      (decide (64 ≤ c) && decide (c ≤ 90)) || (decide (97 ≤ c) && decide (c ≤ 122))
  else isShown c

/-- a text that can stand between quotation marks; some signs can only at its beginning -/
def isPlainText : Text → Bool
  | [] => true
  | c :: rest => (isPlain c || c == 35 || c == 126) && rest.all isPlain

def needsQuotes (os : Octets) : Bool :=
  os.isEmpty || os.any special.contains || os.head? == some 35 || os.head? == some 126 || os == [123] || os == [125] ||
    os.text.any fun c => !isShown c

/-- what goes between apostrophes; escapes get quotes of their own, which `inEscape` says are open -/
def betweenApostrophes : Bool → Text → Octets
  | _, [] => []
  | inEscape, c :: rest =>
    let back : Octets := if inEscape then [39, 39] else []
    if c = 39 then
      if inEscape then 92 :: 39 :: betweenApostrophes true rest
      else 39 :: 92 :: 39 :: 39 :: betweenApostrophes false rest
    else if isShown c then back ++ Text.strayOctetsOf c ++ betweenApostrophes false rest
    else (if inEscape then [] else [39, 36, 39]) ++ escaped c ++ betweenApostrophes true rest

/-- a name, between quotes if a shell would read it as something else -/
def name (os : Octets) : Octets :=
  let t := os.text
  if !needsQuotes os then os
  else if t.contains 39 && isPlainText t then 34 :: os ++ [34]
  else 39 :: betweenApostrophes false t ++ [39]

end Quoting

namespace Tool

open Shell

def complain (called words : Octets) : Run Unit := do
  let _ ← Run.write 2 (called ++ ": " ++ words ++ "\n")

/-- complains about how a tool is used -/
def misused (called words : Octets) : Run Nat := do
  complain called words
  let _ ← Run.write 2 ("Try '" ++ called ++ " --help' for more information.\n")
  return 1

/-- writes output; a failure is complained about -/
def output (called os : Octets) : Run Bool := do
  match ← Run.write 1 os with
  | .ok () => return true
  | .error cause =>
    complain called ("write error: " ++ Octets.ofText cause.message)
    return false

/-- the words of a system answer -/
def causeWords (cause : OsCause) : Octets := Octets.ofText cause.message

/-! ## Options -/

/-- what a tool knows as options: letters, and names for them -/
structure Known where
  letters : Octets
  names : List (Octets × UInt8)

/-- what the arguments of a tool are: letters of options and the other arguments, or a complaint -/
structure Parsed where
  letters : Octets
  operands : List Octets
  complaint : Option Octets
  deriving Inhabited

/-- the letter for a name of an option, or a complaint; a beginning will do if nothing else starts with it -/
def nameLetter (known : Known) (spelled : Octets) : Except Octets UInt8 :=
  let name := spelled.takeWhile (· != 61)
  let fitting := known.names.filter fun e => name.isPrefixOf e.1
  let chosen? :=
    match known.names.find? (·.1 == name), fitting with
    | some e, _ => some e
    | none, [e] => some e
    | none, _ => none
  match chosen? with
  | some e =>
    if name.length < spelled.length then .error ("option '--" ++ e.1 ++ "' doesn't allow an argument")
    else .ok e.2
  | none =>
    if fitting.isEmpty then .error ("unrecognized option '--" ++ spelled ++ "'")
    else
      .error ("option '--" ++ spelled ++ "' is ambiguous; possibilities:" ++
        fitting.flatMap fun e => (" '--" : Octets) ++ e.1 ++ ("'" : Octets))

/-- reads the arguments of a tool; `mixes` says that options may stand after other arguments -/
def parse (known : Known) (mixes : Bool) : List Octets → Parsed
  | [] => ⟨[], [], none⟩
  | arg :: rest =>
    match arg with
    | [45, 45] => ⟨[], rest, none⟩
    | 45 :: 45 :: spelled =>
      match nameLetter known spelled with
      | .error words => ⟨[], [], some words⟩
      | .ok letter =>
        let after := parse known mixes rest
        { after with letters := letter :: after.letters }
    | 45 :: c :: more =>
      match (c :: more).find? fun o => !known.letters.contains o with
      | some o => ⟨[], [], some ("invalid option -- '" ++ [o] ++ "'")⟩
      | none =>
        let after := parse known mixes rest
        { after with letters := c :: more ++ after.letters }
    | arg =>
      if !mixes then ⟨[], arg :: rest, none⟩
      else
        let after := parse known mixes rest
        { after with operands := arg :: after.operands }

end Tool

end Bench

end InterfacePages

/-
`tr` translates, deletes or squeezes single octets.

A set is written as elements: octets, ranges, classes, equivalents and repetitions. The elements are laid out one octet
after the other, each with the element it comes from, so that the classes of small and capital letters can be matched
between two sets. `Tr.check` refuses sets that do not fit each other and makes the second one as long as the first.
-/
import InterfacePages.Bench.Tool.Quoting

namespace InterfacePages

namespace Bench

namespace Tr

open Shell

/-! ## Sets -/

/-- what a set consists of; a repetition without a count fills up -/
inductive Element where
  | octet (o : UInt8)
  | range (first last : UInt8)
  | class_ (name : Octets)
  | equivalent (o : UInt8)
  | repetition (o : UInt8) (count : Option Nat)
  deriving DecidableEq, Repr, Inhabited

/-- why a set cannot be read, or two sets do not fit -/
inductive SetFault where
  | reversed (first last : UInt8)
  | noClassName
  | noEquivalent
  | unknownClass (name : Octets)
  | longEquivalent (operand : Octets)
  | badCount (digits : Octets)
  | fillsFirst
  | fillsTwice
  | equivalentInSecond
  | classInSecond
  | misaligned
  | endsWithClass
  | emptySecond
  | notOne
  | fillsUntranslated
  deriving DecidableEq, Repr

namespace SetFault

def message : SetFault → Octets
  | reversed first last =>
    let shown (o : UInt8) : Octets := if Octet.isPrintable o then [o] else Quoting.octal o
    "range-endpoints of '" ++ shown first ++ "-" ++ shown last ++ "' are in reverse collating sequence order"
  | noClassName => "missing character class name '[::]'"
  | noEquivalent => "missing equivalence class character '[==]'"
  | unknownClass name => "invalid character class " ++ Quoting.word (Quoting.visible name)
  | longEquivalent operand => Quoting.visible operand ++ ": equivalence class operand must be a single character"
  | badCount digits => "invalid repeat count " ++ Quoting.word (Quoting.visible digits) ++ " in [c*n] construct"
  | fillsFirst => "the [c*] repeat construct may not appear in string1"
  | fillsTwice => "only one [c*] repeat construct may appear in string2"
  | equivalentInSecond => "[=c=] expressions may not appear in string2 when translating"
  | classInSecond =>
    "when translating, the only character classes that may appear in\nstring2 are 'upper' and 'lower'"
  | misaligned => "misaligned [:upper:] and/or [:lower:] construct"
  | endsWithClass =>
    "when translating with string1 longer than string2,\nthe latter string must not end with a character class"
  | emptySecond => "when not truncating set1, string2 must be non-empty"
  | notOne =>
    "when translating with complemented character classes,\nstring2 must map all characters in the domain to one"
  | fillsUntranslated => "the [c*] construct may appear in string2 only when translating"

end SetFault

/-- the octet for a letter after a backslash -/
def letterEscape (c : UInt8) : UInt8 :=
  match Char.ofUInt8 c with
  | 'a' => 7
  | 'b' => 8
  | 'f' => 12
  | 'n' => 10
  | 'r' => 13
  | 't' => 9
  | 'v' => 11
  | _ => c

def octalDigits (os : Octets) : Octets :=
  let three := (os.take 3).takeWhile Octet.isOctal
  if 255 < Octets.valueIn 8 three then three.take 2 else three

/-- an octet of a set, and whether a backslash took its meaning away -/
abbrev Marked := UInt8 × Bool

/-- resolves the escapes of a set; `skip` octets belong to the last one -/
def unescape : Nat → Octets → List Marked
  | _, [] => []
  | skip + 1, _ :: rest => unescape skip rest
  | 0, c :: rest =>
    if c ≠ 92 then (c, false) :: unescape 0 rest
    else
      let digits := octalDigits rest
      if !digits.isEmpty then ((Octets.valueIn 8 digits).toUInt8, true) :: unescape digits.length rest
      else
        match rest.head? with
        | none => [(92, false)]
        | some d => (letterEscape d, true) :: unescape 1 rest

/-- the warnings about escapes of a set; `skip` octets belong to the last one -/
def warnings : Nat → Octets → List Octets
  | _, [] => []
  | skip + 1, _ :: rest => warnings skip rest
  | 0, c :: rest =>
    if c ≠ 92 then warnings 0 rest
    else
      let digits := octalDigits rest
      let three := (rest.take 3).takeWhile Octet.isOctal
      if digits.length < three.length then
        ("warning: the ambiguous octal escape \\" ++ three ++ " is being\n\tinterpreted as the 2-byte sequence \\0" ++
          digits ++ ", " ++ three.drop 2) :: warnings digits.length rest
      else if !digits.isEmpty then warnings digits.length rest
      else if rest.isEmpty then ["warning: an unescaped backslash at end of string is not portable"]
      else warnings 1 rest

/-- an octet that has kept its meaning -/
def isPlain (o : UInt8) : Marked → Bool
  | (c, escaped) => c == o && !escaped

/-- what stands between two signs and what follows the second one and a bracket -/
def enclosed? (sign : UInt8) : List Marked → Option (List Marked × List Marked)
  | [] => none
  | m :: rest =>
    if isPlain sign m && (rest.head?.map (isPlain 93)).getD false then some ([], rest.tail)
    else (enclosed? sign rest).map fun (inside, after) => (m :: inside, after)

/-- the octets of a part of a set -/
def plain (ms : List Marked) : Octets := ms.map Prod.fst

/-- a star, digits and a bracket at the beginning, as in a repetition -/
def looksRepeated : List Marked → Bool
  | m :: rest =>
    isPlain 42 m &&
      match rest.dropWhile fun m => Octet.isDigit m.1 && !m.2 with
      | m :: _ => isPlain 93 m
      | [] => false
  | [] => false

def count? (digits : Octets) : Option (Option Nat) :=
  if digits.isEmpty then some none
  else
    let base := if digits.head? = some 48 then 8 else 10
    let fits := if base = 8 then digits.all Octet.isOctal else digits.all Octet.isDigit
    let n := Octets.valueIn base digits
    if !fits || 18446744073709551615 ≤ n then none else some (if n = 0 then none else some n)

/-- a repetition after its opening bracket: its element and what follows, if it is one -/
def repetition? (ms : List Marked) : Except SetFault (Option (Element × List Marked)) :=
  match ms with
  | c :: star :: rest =>
    if !isPlain 42 star then .ok none
    else
      let digits := rest.takeWhile fun m => !m.2 && m.1 != 93
      match rest.drop digits.length with
      | m :: after =>
        if !isPlain 93 m then .ok none
        else
          match count? (plain digits) with
          | none => .error (.badCount (plain digits))
          | some count => .ok (some (.repetition c.1 count, after))
      | [] => .ok none
  | _ => .ok none

/-- a class or an equivalent after its opening bracket: its element and what follows, if it is one -/
def bracketed? (sign : UInt8) (ms : List Marked) : Except SetFault (Option (Element × List Marked)) :=
  match enclosed? sign ms with
  | none => .ok none
  | some (inside, after) =>
    let name := plain inside
    if name.isEmpty then .error (if sign = 58 then .noClassName else .noEquivalent)
    else if sign = 58 then
      if (Octet.class? name).isSome then .ok (some (.class_ name, after))
      else if looksRepeated ms then .ok none
      else .error (.unknownClass name)
    else
      match name with
      | [o] => .ok (some (.equivalent o, after))
      | _ => if looksRepeated ms then .ok none else .error (.longEquivalent name)

/-- an element that opens with a bracket, and what follows it, if it is one -/
def bracket? (ms : List Marked) : Except SetFault (Option (Element × List Marked)) := do
  match ms with
  | m :: rest =>
    let found ← if isPlain 58 m then bracketed? 58 rest else if isPlain 61 m then bracketed? 61 rest else pure none
    match found with
    | some found => return some found
    | none => repetition? ms
  | [] => return none

def elementsUpTo : Nat → List Marked → Except SetFault (List Element)
  | 0, _ => .ok []
  | fuel + 1, ms => do
    match ms with
    | a :: b :: c :: rest =>
      let found ← if isPlain 91 a then bracket? (b :: c :: rest) else pure none
      match found with
      | some (element, after) => return element :: (← elementsUpTo fuel after)
      | none =>
        if isPlain 45 b then
          if c.1 < a.1 then throw (.reversed a.1 c.1)
          return .range a.1 c.1 :: (← elementsUpTo fuel rest)
        else return .octet a.1 :: (← elementsUpTo fuel (b :: c :: rest))
    | ms => return ms.map fun m => .octet m.1

def elements (set : Octets) : Except SetFault (List Element) :=
  elementsUpTo (set.length + 1) (unescape 0 set)

/-! ## Layout -/

/-- whether an element is one of the two classes of letters that translate into each other -/
inductive LetterCase where
  | none
  | small
  | capital
  deriving DecidableEq, Repr, Inhabited

/-- an octet of a set, the letter case of its element, and whether the element starts with it -/
structure Cell where
  octet : UInt8
  letterCase : LetterCase
  isFirst : Bool
  deriving DecidableEq, Repr, Inhabited

def between (first last : UInt8) : Octets :=
  (List.range (last.toNat - first.toNat + 1)).map fun i => (first.toNat + i).toUInt8

/-- the most octets of a repetition that can make a difference -/
def mostRepeated : Nat := 70000

def Element.octets : Element → Octets
  | .octet o => [o]
  | .range first last => between first last
  | .class_ name => Octet.all.filter ((Octet.class? name).getD fun _ => false)
  | .equivalent o => [o]
  | .repetition o count => List.replicate (min (count.getD 0) mostRepeated) o

def Element.letterCase : Element → LetterCase
  | .class_ name =>
    if name = ("lower" : Octets) then .small else if name = ("upper" : Octets) then .capital else .none
  | _ => .none

def Element.cells (e : Element) : List Cell :=
  match e.octets with
  | [] => []
  | o :: rest => ⟨o, e.letterCase, true⟩ :: rest.map fun o => ⟨o, e.letterCase, false⟩

def cells (es : List Element) : List Cell := es.flatMap Element.cells

def octetsOf (es : List Element) : Octets := es.flatMap Element.octets

def Element.isClass : Element → Bool
  | .class_ _ => true
  | _ => false

def Element.isEquivalent : Element → Bool
  | .equivalent _ => true
  | _ => false

def Element.fills : Element → Bool
  | .repetition _ none => true
  | _ => false

/-- the second set with what fills up as long as it has to be -/
def filled (length : Nat) (es : List Element) : List Element :=
  let own := (octetsOf es).length
  es.map fun e =>
    match e with
    | .repetition o none => .repetition o (some (length - own))
    | e => e

/-! ## Checking -/

def skipElement (cs : List Cell) : List Cell := cs.dropWhile fun c => !c.isFirst

/-- walks through two sets side by side: whether the classes of letters stand at the same places, and how many octets
of each set such classes take beyond one -/
def alignedFrom : Nat → List Cell → List Cell → Nat → Option Nat
  | 0, _, _, n => some n
  | fuel + 1, a :: as, b :: bs, n =>
    if b.isFirst && b.letterCase != .none && !(a.isFirst && a.letterCase != .none) then none
    else if b.letterCase != .none then alignedFrom fuel (skipElement as) (skipElement bs) (n + 25)
    else alignedFrom fuel as bs n
  | _ + 1, [], b :: _, n => if b.isFirst && b.letterCase != .none then none else some n
  | _, _, _, n => some n

/-- how a set of options is used -/
structure Options where
  complement : Bool
  deletes : Bool
  squeezes : Bool
  truncates : Bool
  deriving DecidableEq, Repr, Inhabited

/-- the octet that stands for the rest when the second set is shorter -/
def lastOctet (es : List Element) : Except SetFault UInt8 :=
  match es.getLast? with
  | some (.class_ _) => .error .endsWithClass
  | some (.repetition o _) => .ok o
  | some e => .ok (e.octets.getLastD 0)
  | none => .error .emptySecond

/-- checks the second set of a translation and makes it as long as the first, which has `length` octets -/
def checkSecond (o : Options) (first second : List Element) (length : Nat) : Except SetFault (List Element) := do
  if second.any Element.isEquivalent then throw .equivalentInSecond
  if second.any fun e => e.isClass && e.letterCase == .none then throw .classInSecond
  let taken ← if o.complement || !second.any Element.isClass then pure 0
    else
      match alignedFrom (length + (octetsOf second).length + 2) (cells first) (cells second) 0 with
      | none => throw .misaligned
      | some n => pure n
  let own := (octetsOf second).length - taken
  let wanted := length - taken
  let extended ← if own < wanted && !o.truncates then do
      if own = 0 then throw .emptySecond
      pure (second ++ [.repetition (← lastOctet second) (some (wanted - own))])
    else pure second
  let target := octetsOf extended
  let homogeneous := target.all fun c => some c == target.head?
  if o.complement && first.any Element.isClass && !((octetsOf extended).length - taken = wanted && homogeneous) then
    throw .notOne
  return extended

def complementOf (es : List Element) : Octets :=
  let own := octetsOf es
  Octet.all.filter fun c => !own.contains c

/-- checks two sets, the second of which becomes as long as the first if it translates -/
def check (o : Options) (first : List Element) (second : Option (List Element)) :
    Except SetFault (Option (List Element)) := do
  if first.any Element.fills then throw .fillsFirst
  let length := if o.complement then (complementOf first).length else (octetsOf first).length
  match second with
  | none => return none
  | some second =>
    if 1 < (second.filter Element.fills).length then throw .fillsTwice
    if o.deletes then
      if second.any Element.fills then throw .fillsUntranslated
      return some second
    else return some (← checkSecond o first (filled length second) length)

/-! ## Working -/

/-- what an octet becomes: the last pair for it counts -/
def translationFrom : Nat → List Cell → List Cell → List (UInt8 × UInt8) → List (UInt8 × UInt8)
  | 0, _, _, pairs => pairs
  | fuel + 1, a :: as, b :: bs, pairs =>
    let letters (p : UInt8 → Bool) (f : UInt8 → UInt8) : List (UInt8 × UInt8) :=
      ((Octet.all.filter p).map fun c => (c, f c)) ++ pairs
    let pairs :=
      match a.letterCase, b.letterCase with
      | .small, .capital => letters Octet.isLower (· - 32)
      | .capital, .small => letters Octet.isUpper (· + 32)
      | _, _ => (a.octet, b.octet) :: pairs
    if b.letterCase != .none then translationFrom fuel (skipElement as) (skipElement bs) pairs
    else translationFrom fuel as bs pairs
  | _, _, _, pairs => pairs

def translation (o : Options) (first second : List Element) : List (UInt8 × UInt8) :=
  if o.complement then ((complementOf first).zip (octetsOf second)).reverse
  else
    let a := cells first
    translationFrom (a.length + 1) a (cells second) []

/-- drops an octet of a set when the one before it is the same -/
def squeeze (set : UInt8 → Bool) : Octets → Octets
  | [] => []
  | a :: rest => if set a && rest.head? == some a then squeeze set rest else a :: squeeze set rest

def transform (o : Options) (first : List Element) (second : Option (List Element)) (input : Octets) : Octets :=
  let own := octetsOf first
  let inFirst (c : UInt8) : Bool := own.contains c != o.complement
  match second with
  | none => if o.deletes then input.filter fun c => !inFirst c else squeeze inFirst input
  | some second =>
    let target := octetsOf second
    if o.deletes then squeeze target.contains (input.filter fun c => !inFirst c)
    else
      let pairs := translation o first second
      let translated := input.map fun c => (pairs.lookup c).getD c
      if o.squeezes then squeeze target.contains translated else translated

def known : Tool.Known where
  letters := "AcCdst"
  names := [("complement", 99), ("delete", 100), ("squeeze-repeats", 115), ("truncate-set1", 116)]

/-- reads the sets and translates the input -/
def work (called : Octets) (o : Options) (sets : List Octets) : Run Nat := do
  let refuse (fault : SetFault) : Run Nat := do
    Tool.complain called fault.message
    return 1
  let read (set : Octets) : Run (Except SetFault (List Element)) := do
    for words in warnings 0 set do Tool.complain called words
    return elements set
  match sets with
  | [] => return 1
  | one :: rest =>
    match ← read one with
    | .error fault => refuse fault
    | .ok first =>
      let second? : Except SetFault (Option (List Element)) ← match rest.head? with
        | none => pure (.ok none)
        | some two => do
          match ← read two with
          | .error fault => pure (.error fault)
          | .ok second => pure (.ok (some second))
      match second? with
      | .error fault => refuse fault
      | .ok second =>
        match check o first second with
        | .error fault => refuse fault
        | .ok second =>
          match ← Run.readAll 0 with
          | .error cause =>
            Tool.complain called ("read error: " ++ Tool.causeWords cause)
            return 1
          | .ok input => return if ← Tool.output called (transform o first second input) then 0 else 1

/-- translates, deletes or squeezes octets of the input -/
def run : Tool := fun called args => do
  let parsed := Tool.parse known false args
  match parsed.complaint with
  | some words => Tool.misused called words
  | none =>
    let any (of : Octets) : Bool := parsed.letters.any of.contains
    let o : Options := ⟨any "cC", any "d", any "s", any "t"⟩
    let sets := parsed.operands
    let least := if o.deletes == o.squeezes then 2 else 1
    let most := if o.deletes && !o.squeezes then 1 else 2
    let misused (words : Octets) (more : Octets) : Run Nat := do
      Tool.complain called words
      if !more.isEmpty then let _ ← Run.write 2 (more ++ "\n")
      let _ ← Run.write 2 ("Try '" ++ called ++ " --help' for more information.\n")
      return 1
    if sets.isEmpty then misused "missing operand" []
    else if sets.length < least then
      misused ("missing operand after " ++ Quoting.word (sets.getLastD []))
        (if o.squeezes then "Two strings must be given when both deleting and squeezing repeats."
          else "Two strings must be given when translating.")
    else if most < sets.length then
      misused ("extra operand " ++ Quoting.word (sets.getD most []))
        (if sets.length = 2 then "Only one string may be given when deleting without squeezing repeats." else [])
    else work called o sets

end Tr

end Bench

end InterfacePages

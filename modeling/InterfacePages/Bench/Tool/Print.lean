/-
`echo` and `printf` write their arguments.

Both resolve escapes: `echo` only if it is asked to. In a format an octal number has up to three digits and a
hexadecimal one up to two; in an argument a zero may go before octal digits, and `\c` ends all output.
-/
import InterfacePages.Bench.Tool.Directive
import InterfacePages.Bench.Tool.Quoting

namespace InterfacePages

namespace Bench

open Shell

/-! ## Arguments -/

namespace Echo

/-- an argument that consists of options -/
def isOption : Octets → Bool
  | 45 :: c :: rest => (c :: rest).all fun o => o == 110 || o == 101 || o == 69
  | _ => false

/-- the octet that a letter after a backslash stands for -/
def letterEscape? (c : UInt8) : Option UInt8 :=
  match Char.ofUInt8 c with
  | 'a' => some 7
  | 'b' => some 8
  | 'e' => some 27
  | 'f' => some 12
  | 'n' => some 10
  | 'r' => some 13
  | 't' => some 9
  | 'v' => some 11
  | '\\' => some 92
  | _ => none

/-- what follows a backslash: the octet it stands for and how many octets it has, if it is an escape -/
def escape? (os : Octets) : Option (UInt8 × Nat) :=
  match os with
  | [] => none
  | 48 :: rest =>
    let digits := (rest.take 3).takeWhile Octet.isOctal
    some ((Octets.valueIn 8 digits).toUInt8, digits.length + 1)
  | 120 :: rest =>
    let digits := (rest.take 2).takeWhile Octet.isHexadecimal
    if digits.isEmpty then none else some ((Octets.valueIn 16 digits).toUInt8, digits.length + 1)
  | c :: rest =>
    if Octet.isOctal c then
      let digits := ((c :: rest).take 3).takeWhile Octet.isOctal
      some ((Octets.valueIn 8 digits).toUInt8, digits.length)
    else (letterEscape? c).map (·, 1)

/-- octets with their escapes resolved, and whether `\c` ended them; `skip` octets belong to the last escape -/
def unescaped : Nat → Octets → Octets × Bool
  | _, [] => ([], false)
  | skip + 1, _ :: rest => unescaped skip rest
  | 0, c :: rest =>
    if c = 92 && rest.head? == some 99 then ([], true)
    else
      let (o, width) := if c = 92 then (escape? rest).getD (92, 0) else (c, 0)
      let (after, ends) := unescaped width rest
      (o :: after, ends)

def text (args : List Octets) : Octets :=
  let options := (args.takeWhile isOption).flatten
  let joined := Octets.joinWith [32] (args.dropWhile isOption)
  let resolves := (options.reverse.find? fun o => o == 101 || o == 69) == some 101
  let (os, ends) := if resolves then unescaped 0 joined else (joined, false)
  if ends || options.contains 110 then os else os ++ [10]

/-- writes the arguments; `-n` leaves out the line feed and `-e` resolves escapes -/
def run : Tool := fun called args => do return if ← Tool.output called (text args) then 0 else 1

end Echo

/-! ## Formats -/

namespace Print

/-- how far the arguments of a format have been used: those that are left, whether a value was faulty, and whether all
has ended -/
structure Filling where
  called : Octets
  args : List Octets
  status : Nat
  ended : Bool
  deriving Inhabited

/-- an action that fills a format -/
abbrev Fill (ρ : Type) := StateT Filling Run ρ

def write (os : Octets) : Fill Unit := do
  let s ← get
  if !(← liftM (Tool.output s.called os)) then set { s with status := 1, ended := true }

def complain (words : Octets) : Fill Unit := do liftM (Tool.complain (← get).called words : Run Unit)

def faulty (words : Octets) : Fill Unit := do
  complain words
  modify fun s => { s with status := 1 }

def refuse (words : Octets) : Fill Unit := do
  faulty words
  modify fun s => { s with ended := true }

def argument : Fill (Option Octets) := do
  let s ← get
  match s.args with
  | [] => return none
  | arg :: rest =>
    set { s with args := rest }
    return some arg

/-- complains unless an argument was read as a whole; `left` is what was not -/
def checkRead (given : Octets) (left : Option Octets) : Fill Unit := do
  match left with
  | none => if !given.isEmpty then faulty (Quoting.word given ++ ": expected a numeric value")
  | some [] => return
  | some _ => faulty (Quoting.word given ++ ": value not completely converted")

/-- the value of the octets after a quote, if an argument begins with one -/
def quotedValue? (given : Octets) : Option (Nat × Octets) :=
  match given with
  | q :: rest =>
    if (q = 34 ∨ q = 39) ∧ !rest.isEmpty then
      match Octets.text rest with
      | c :: more => some (if Text.isSurrogate c then c % 256 else c, more.flatMap Text.strayOctetsOf)
      | [] => none
    else none
  | [] => none

/-- the next argument by a reader of numbers; the reader says what the value is, what is left, and whether it lies
outside what can be held -/
def number {α : Type} (zero : α) (ofNat : Nat → α) (read : Octets → Option (α × Octets × Bool)) : Fill α := do
  match ← argument with
  | none => return zero
  | some given =>
    match quotedValue? given with
    | some (n, more) =>
      if !more.isEmpty then
        complain ("warning: " ++ more ++ ": character(s) following character constant have been ignored")
      return ofNat n
    | none =>
      match read given with
      | none =>
        checkRead given none
        return zero
      | some (value, left, outside) =>
        if outside then faulty (Quoting.word given ++ ": Numerical result out of range")
        else checkRead given (some left)
        return value

/-- the next argument as a number that may be negative -/
def signedArgument : Fill Int :=
  number 0 Int.ofNat fun given =>
    (wholeNumber? given).map fun (n, left) =>
      let low : Int := -9223372036854775808
      let high : Int := 9223372036854775807
      (max low (min high n), left, decide (n < low) || decide (high < n))
where
  /-- a whole number in any base at the beginning of some octets -/
  wholeNumber? (os : Octets) : Option (Int × Octets) := readWhole os
  /-- reads the sign and the digits -/
  readWhole (os : Octets) : Option (Int × Octets) :=
    let unsigned := os.dropWhile Octet.isSpace
    let (negative, rest) :=
      match unsigned with
      | 45 :: rest => (true, rest)
      | 43 :: rest => (false, rest)
      | rest => (false, rest)
    (digits? rest).map fun (n, left) => (if negative then -(n : Int) else n, left)
  /-- reads the digits -/
  digits? (rest : Octets) : Option (Nat × Octets) :=
    let hexadecimal := (rest.drop 2).takeWhile Octet.isHexadecimal
    if rest.head? = some 48 ∧ (rest.drop 1).head?.any (fun c => c == 120 || c == 88) ∧ !hexadecimal.isEmpty then
      some (Octets.valueIn 16 hexadecimal, rest.drop (hexadecimal.length + 2))
    else if rest.head? = some 48 then
      let octal := rest.takeWhile Octet.isOctal
      some (Octets.valueIn 8 octal, rest.drop octal.length)
    else
      let decimal := rest.takeWhile Octet.isDigit
      if decimal.isEmpty then none else some (Octets.valueIn 10 decimal, rest.drop decimal.length)

/-- the next argument as a number that is not negative; a negative one counts from the end -/
def unsignedArgument : Fill Nat :=
  number 0 id fun given =>
    (signedArgument.readWhole given).map fun (n, left) =>
      let high : Int := 18446744073709551615
      let outside := decide (n < -high) || decide (high < n)
      ((if outside then high else if n < 0 then n + high + 1 else n).toNat, left, outside)

def fractionArgument : Fill Fraction :=
  number .zero (fun n => .finite false n 1) fun given =>
    (Fraction.read? given).map fun (f, left) =>
      let (fitting, outside) := Precision.extended.fit f
      (fitting, left, outside)

/-- all has ended well, whatever went before -/
def finish : Fill Unit := modify fun s => { s with status := 0, ended := true }

/-- writes the code point that hexadecimal digits stand for after a letter; the answer is how many octets these are -/
def writeCodePoint (letter : UInt8) (rest : Octets) : Fill Nat := do
  let count := if letter = 117 then 4 else 8
  let digits := (rest.take count).takeWhile Octet.isHexadecimal
  let n := Octets.valueIn 16 digits
  if digits.length < count then
    refuse "missing hexadecimal number in escape"
    return 1
  if 0xD800 ≤ n ∧ n ≤ 0xDFFF then
    refuse ("invalid universal character name \\" ++ letter :: digits)
    return 1
  write (if 0x10FFFF < n then 92 :: letter :: digits else Text.octetsOf n)
  return count + 1

/-- writes the escape that follows a backslash, in an argument if `inArgument`; the answer is how many octets it has -/
def writeEscape (inArgument : Bool) (rest : Octets) : Fill Nat := do
  match rest with
  | [] =>
    write [92]
    return 0
  | 120 :: more =>
    let digits := (more.take 2).takeWhile Octet.isHexadecimal
    if digits.isEmpty then
      refuse "missing hexadecimal number in escape"
      return 1
    write [(Octets.valueIn 16 digits).toUInt8]
    return digits.length + 1
  | c :: more =>
    if Octet.isOctal c then
      let lead := if inArgument && c == 48 then 1 else 0
      let digits := (((c :: more).drop lead).take 3).takeWhile Octet.isOctal
      write [(Octets.valueIn 8 digits).toUInt8]
      return digits.length + lead
    else if c = 99 then
      finish
      return 1
    else if c = 117 ∨ c = 85 then writeCodePoint c more
    else
      write (if c = 34 then [34] else (Echo.letterEscape? c).elim [92, c] fun o => [o])
      return 1

def writeEscaped : Nat → Octets → Fill Unit
  | 0, _ => return
  | fuel + 1, os => do
    if (← get).ended then return
    match os with
    | [] => return
    | 92 :: rest => do
      let width ← writeEscape true rest
      writeEscaped fuel (rest.drop width)
    | c :: rest =>
      write [c]
      writeEscaped fuel rest

/-- signs, width and precision of a directive with what follows them, and whether the letter can go with them -/
structure Opening where
  directive : Directive
  rest : Octets
  measured : Bool
  deriving Inhabited

/-- the largest width and precision -/
def largestMeasure : Int := 2147483647

/-- the next argument as a width or a precision, which `outside` says is too large -/
def measureArgument (words : Octets) (outside : Int → Bool) : Fill Int := do
  let given := (← get).args.head?
  let n ← signedArgument
  if outside n then
    refuse ("invalid " ++ words ++ ": " ++ Quoting.word (given.getD []))
    return 0
  return n

/-- reads signs, width and precision -/
def opening (os : Octets) : Fill Opening := do
  let signs := os.takeWhile fun c => Directive.signs.contains c || c == 39 || c == 73
  let d := signs.foldl Directive.sign Directive.plain
  let rest := os.drop signs.length
  let (d, rest, wide) ← match rest with
    | 42 :: rest => do
      let n ← measureArgument "field width" fun n => n < -largestMeasure - 1 || largestMeasure < n
      pure (d.withWidth n, rest, true)
    | rest =>
      let digits := rest.takeWhile Octet.isDigit
      pure ({ d with width := Octets.valueIn 10 digits }, rest.drop digits.length, !digits.isEmpty)
  match rest with
  | 46 :: 42 :: rest =>
    return ⟨d.withPrecision (← measureArgument "precision" fun n => largestMeasure < n), rest, true⟩
  | 46 :: rest =>
    let digits := rest.takeWhile Octet.isDigit
    return ⟨{ d with precision := some (Octets.valueIn 10 digits) }, rest.drop digits.length, true⟩
  | rest => return ⟨d, rest, wide⟩

def fits (d : Directive) (signs : Octets) (letter : UInt8) : Bool :=
  let any (of : Octets) : Bool := of.contains letter
  (!signs.contains 39 || any "dfFgGiu") && (!d.alternate || any "aAeEfFgGoxX") && (!d.zero || any "aAdeEfFgGiouxX") &&
    (!signs.contains 43 || any "aAdeEfFgGi" || any "sucoxX") && (d.precision.isNone || any "aAdeEfFgGiosuxX")

/-- fills a directive whose letter has been found; `spelled` is all of it -/
def fillLetter (d : Directive) (signs : Octets) (letter : UInt8) (spelled : Octets) : Fill Unit := do
  let fraction (style : Directive.Style) (upper : Bool) : Fill Unit := do
    write (d.fraction .extended style upper (← fractionArgument))
  let bad : Fill Unit := refuse (spelled ++ ": invalid conversion specification")
  if !fits d signs letter then bad
  else if largestMeasure < max d.width (d.precision.getD 0) then refuse "write error"
  else
    match Char.ofUInt8 letter with
    | 'c' => write (d.text [((← argument).getD []).headD 0])
    | 's' => write (d.text ((← argument).getD []))
    | 'd' => write (d.whole (← signedArgument))
    | 'i' => write (d.whole (← signedArgument))
    | 'o' => write (d.digits 8 false (← unsignedArgument))
    | 'u' => write (d.digits 10 false (← unsignedArgument))
    | 'x' => write (d.digits 16 false (← unsignedArgument))
    | 'X' => write (d.digits 16 true (← unsignedArgument))
    | 'a' => fraction .hexadecimal false
    | 'A' => fraction .hexadecimal true
    | 'f' => fraction .fixed false
    | 'F' => fraction .fixed true
    | 'e' => fraction .scientific false
    | 'E' => fraction .scientific true
    | 'g' => fraction .general false
    | 'G' => fraction .general true
    | _ => bad

/-- letters that only say how long a number is -/
def isLength (c : UInt8) : Bool := ("lLhjtz" : Octets).contains c

/-- fills the directive that follows a percent sign; the answer is what follows it -/
def fillDirective (rest : Octets) : Fill Octets := do
  match rest with
  | 98 :: after =>
    match ← argument with
    | none => return after
    | some given =>
      writeEscaped (given.length + 1) given
      return after
  | 113 :: after =>
    match ← argument with
    | none => return after
    | some given =>
      write (Quoting.name given)
      return after
  | rest =>
    let o ← opening rest
    if (← get).ended then return []
    let lengths := o.rest.takeWhile isLength
    let after := o.rest.drop lengths.length
    let signs := rest.takeWhile fun c => Directive.signs.contains c || c == 39 || c == 73
    match after with
    | [] =>
      refuse (37 :: rest ++ ": invalid conversion specification")
      return []
    | letter :: after =>
      fillLetter o.directive signs letter (37 :: rest.take (rest.length - after.length))
      return after

/-- goes through a format once; the answer says whether anything in it takes an argument -/
def fillOnce : Nat → Octets → Fill Unit
  | 0, _ => return
  | fuel + 1, format => do
    if (← get).ended then return
    match format with
    | [] => return
    | 92 :: rest =>
      let width ← writeEscape false rest
      fillOnce fuel (rest.drop width)
    | 37 :: 37 :: rest =>
      write [37]
      fillOnce fuel rest
    | 37 :: rest => do fillOnce fuel (← fillDirective rest)
    | c :: rest =>
      write [c]
      fillOnce fuel rest

/-- goes through a format until all arguments are used -/
def fillAll (format : Octets) : Nat → Fill Unit
  | 0 => return
  | fuel + 1 => do
    let before := (← get).args.length
    fillOnce (format.length + 1) format
    let s ← get
    if !s.ended && !s.args.isEmpty && s.args.length < before then fillAll format fuel

/-- writes the arguments in a format -/
def run : Tool := fun called args => do
  let operands := if args.head? = some [45, 45] then args.tail else args
  match operands with
  | [] => Tool.misused called "missing operand"
  | format :: args =>
    let (_, s) ← (fillAll format (args.length + 1)).run ⟨called, args, 0, false⟩
    if !s.ended && !s.args.isEmpty then
      Tool.complain called ("warning: ignoring excess arguments, starting with " ++ Quoting.word (s.args.headD []))
    return s.status

end Print

end Bench

end InterfacePages

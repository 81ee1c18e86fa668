/-
The builtin commands that write: `echo` and `printf`.

Both know the same escapes. In a format an octal number has up to three digits; in an argument a zero may go before
them, and `\c` ends all output.
-/
import InterfacePages.Bench.Shell.Sum
import InterfacePages.Bench.Tool.Directive

namespace InterfacePages

namespace Bench

namespace Shell

namespace Builtin

/-- a builtin command: what its arguments come to as a status -/
abbrev Operation := List Octets → Run Nat

/-- the octet that a letter after a backslash stands for -/
def letterEscape? (c : UInt8) : Option UInt8 :=
  match Char.ofUInt8 c with
  | 'a' => some 7
  | 'b' => some 8
  | 'e' => some 27
  | 'f' => some 12
  | 'n' => some 10
  | 'r' => some 13
  | 't' => some 9
  | 'v' => some 11
  | '\\' => some 92
  | _ => none

/-- the octet that follows a backslash as an escape, and how many octets the escape has; without one the backslash
stands for itself -/
def escape (os : Octets) : UInt8 × Nat :=
  match os with
  | [] => (92, 0)
  | c :: _ =>
    let digits := (os.take 3).takeWhile Octet.isOctal
    if !digits.isEmpty then ((Octets.valueIn 8 digits).toUInt8, digits.length)
    else
      match letterEscape? c with
      | some o => (o, 1)
      | none => (92, 0)

/-- the escape of an argument, where a zero may go before octal digits -/
def argumentEscape (os : Octets) : UInt8 × Nat :=
  match os with
  | 48 :: d :: rest =>
    if Octet.isOctal d then
      let (o, width) := escape (d :: rest)
      (o, width + 1)
    else escape os
  | os => escape os

/-- the octets of an argument with its escapes resolved, and whether `\c` ended them; `skip` octets belong to the last
escape -/
def unescapedFrom : Nat → Octets → Octets × Bool
  | _, [] => ([], false)
  | skip + 1, _ :: rest => unescapedFrom skip rest
  | 0, c :: rest =>
    if c = 92 && rest.head? == some 99 then ([], true)
    else
      let (o, width) := if c = 92 then argumentEscape rest else (c, 0)
      let (after, ends) := unescapedFrom width rest
      (o :: after, ends)

/-- the octets of an argument with its escapes resolved -/
def unescaped (os : Octets) : Octets × Bool := unescapedFrom 0 os

/-- what `echo` writes; `noLine` leaves out the line feed -/
def echoed (noLine : Bool) : List Octets → Octets
  | [] => if noLine then [] else [10]
  | [arg] =>
    let (os, ends) := unescaped arg
    if ends || noLine then os else os ++ [10]
  | arg :: args =>
    let (os, ends) := unescaped arg
    if ends then os else os ++ 32 :: echoed noLine args

def echo : Operation := fun args => do
  match args with
  | [45, 110] :: rest => Run.emit (echoed true rest)
  | args => Run.emit (echoed false args)
  return 0

/-! ## Formats -/

/-- how far the arguments of a format have been used: those that are left, whether a value was faulty, and whether
`\c` ended all -/
structure Filling where
  args : List Octets
  faulty : Bool
  ended : Bool
  deriving Inhabited

/-- an action that fills a format -/
abbrev Fill (ρ : Type) := StateT Filling Run ρ

def argument : Fill (Option Octets) := do
  let s ← get
  match s.args with
  | [] => return none
  | arg :: rest =>
    set { s with args := rest }
    return some arg

def faulty (c : Complaint) : Fill Unit := do
  liftM (Run.complain c)
  modify fun s => { s with faulty := true }

/-- complains unless an argument was read as a whole; `left` is what was not -/
def checkRead (given : Octets) (left : Option Octets) : Fill Unit := do
  match left with
  | none => if !given.isEmpty then faulty (.notNumeric given)
  | some [] => return
  | some _ => faulty (.notWhollyNumeric given)

/-- the octet that an argument stands for when a quote goes before it -/
def quotedValue? (os : Octets) : Option Nat :=
  match os with
  | q :: rest => if q = 34 ∨ q = 39 then some (rest.headD 0).toNat else none
  | [] => none

/-- the next argument as a whole number between limits; `wraps` says that a negative one counts from the end -/
def wholeArgument (low high : Int) (wraps : Bool) : Fill Int := do
  match ← argument with
  | none => return 0
  | some given =>
    if let some n := quotedValue? given then return n
    match Sum.number? true given with
    | none =>
      checkRead given none
      return 0
    | some (n, left) =>
      let outside := n < low || high < n
      if left.isEmpty && outside then faulty (.outOfRange given) else checkRead given (some left)
      if outside then return if wraps || 0 ≤ n then high else low
      return if wraps && n < 0 then n + high + 1 else n

/-- the next argument as a number that may be negative -/
def signedArgument : Fill Int := wholeArgument Sum.smallest Sum.largest false

/-- the next argument as a number that is not negative -/
def unsignedArgument : Fill Nat := do
  return (← wholeArgument (-18446744073709551615) 18446744073709551615 true).toNat

def fractionArgument : Fill Fraction := do
  match ← argument with
  | none => return .zero
  | some given =>
    if let some n := quotedValue? given then return .finite false n 1
    match Fraction.read? given with
    | none =>
      checkRead given none
      return .zero
    | some (f, left) =>
      let (fitting, outside) := Precision.double.fit f
      if left.isEmpty && outside then faulty (.outOfRange given) else checkRead given (some left)
      return fitting

structure Opening where
  directive : Directive
  rest : Octets
  deriving Inhabited

/-- the octets that a width or a precision may be made of -/
def isMeasure (c : UInt8) : Bool := c == 42 || Octet.isDigit c

/-- the number that digits at the beginning stand for, and what follows -/
def measure (rest : Octets) : Option Nat × Octets :=
  let digits := rest.takeWhile Octet.isDigit
  (if digits.isEmpty then none else some (Octets.valueIn 10 digits), (rest.drop digits.length).dropWhile isMeasure)

/-- the next argument as a width or a precision, which has 32 bits and wraps -/
def measureArgument : Fill Int := do return (← signedArgument).bmod 4294967296

/-- reads signs, width and precision -/
def opening (os : Octets) : Fill Opening := do
  let signs := os.takeWhile Directive.signs.contains
  let d := signs.foldl Directive.sign Directive.plain
  let rest := os.drop signs.length
  let (d, rest) ← match rest with
    | 42 :: rest => do pure (d.withWidth (← measureArgument), rest)
    | rest =>
      let (width, rest) := measure rest
      pure ({ d with width := width.getD 0 }, rest)
  match rest with
  | 46 :: 42 :: rest => return ⟨d.withPrecision (← measureArgument), rest⟩
  | 46 :: rest =>
    let (precision, rest) := measure rest
    return ⟨{ d with precision := some (precision.getD 0) }, rest⟩
  | rest => return ⟨d, rest⟩

/-- writes output of a format -/
def write (os : Octets) : Fill Unit := liftM (Run.emit os)

/-- fills a directive whose letter has been found; `spelled` is all of it -/
def fillLetter (d : Directive) (letter : UInt8) (spelled : Octets) : Fill Unit := do
  let fraction (style : Directive.Style) (upper : Bool) : Fill Unit := do
    write (d.fraction .double style upper (← fractionArgument))
  if 2147483647 < max d.width (d.precision.getD 0) then liftM (Run.fail .cannotLayOut : Run Unit)
  match Char.ofUInt8 letter with
  | 'a' => fraction .hexadecimal false
  | 'A' => fraction .hexadecimal true
  | 'b' =>
    let (os, ends) := unescaped ((← argument).getD [])
    write (d.text os)
    if ends then modify fun s => { s with ended := true }
  | 'c' => write ({ d with precision := none }.text [(((← argument).getD []).headD 0)])
  | 's' => write (d.text ((← argument).getD []))
  | 'd' => write (d.whole (← signedArgument))
  | 'i' => write (d.whole (← signedArgument))
  | 'o' => write (d.digits 8 false (← unsignedArgument))
  | 'u' => write (d.digits 10 false (← unsignedArgument))
  | 'x' => write (d.digits 16 false (← unsignedArgument))
  | 'X' => write (d.digits 16 true (← unsignedArgument))
  | 'f' => fraction .fixed false
  | 'F' => fraction .fixed true
  | 'e' => fraction .scientific false
  | 'E' => fraction .scientific true
  | 'g' => fraction .general false
  | 'G' => fraction .general true
  | _ => liftM (Run.fail (.badDirective spelled) : Run Unit)

/-- goes through a format once -/
def fillOnce : Nat → Octets → Fill Unit
  | 0, _ => return
  | fuel + 1, format => do
    match format with
    | [] => return
    | 92 :: rest =>
      let (o, width) := escape rest
      write [o]
      fillOnce fuel (rest.drop width)
    | 37 :: 37 :: rest =>
      write [37]
      fillOnce fuel rest
    | 37 :: rest =>
      let o ← opening rest
      match o.rest with
      | [] => liftM (Run.fail (.usage "missing format character") : Run Unit)
      | letter :: after =>
        fillLetter o.directive letter (37 :: rest.take (rest.length - after.length))
        if (← get).ended then return
        fillOnce fuel after
    | c :: rest =>
      write [c]
      fillOnce fuel rest

/-- goes through a format until all arguments are used -/
def fillAll (format : Octets) : Nat → Fill Unit
  | 0 => return
  | fuel + 1 => do
    let before := (← get).args.length
    fillOnce (format.length + 1) format
    let s ← get
    if !s.ended && !s.args.isEmpty && s.args.length < before then fillAll format fuel

/-- writes the arguments in a format -/
def printf (format : Octets) (args : List Octets) : Run Nat := do
  let (_, s) ← (fillAll format (args.length + 1)).run ⟨args, false, false⟩
  return if s.faulty then 1 else 0

end Builtin

end Shell

end Bench

end InterfacePages

/-
Sums: the whole-number expressions of the shell.

Numbers have 64 bits and wrap. An expression is cut into tokens first; every level of precedence reads the level below
it, and what is skipped by `&&`, `||` or `?` is read without being worked out.
-/
import InterfacePages.Bench.Shell.Variables

namespace InterfacePages

namespace Bench

namespace Shell

namespace Sum

/-- the number that a result wraps around to -/
def wrap (n : Int) : Int := n.bmod 18446744073709551616

def largest : Int := 9223372036854775807

def smallest : Int := -9223372036854775808

/-! ## Numbers -/

/-- the digits of a number at the beginning, their base and what follows them -/
def digitsOf (os : Octets) : Nat × Octets × Octets :=
  let hex (rest : Octets) := rest.takeWhile Octet.isHexadecimal
  match os with
  | 48 :: 120 :: rest =>
    if (hex rest).isEmpty then (8, [48], 120 :: rest) else (16, hex rest, rest.drop (hex rest).length)
  | 48 :: 88 :: rest =>
    if (hex rest).isEmpty then (8, [48], 88 :: rest) else (16, hex rest, rest.drop (hex rest).length)
  | 48 :: rest =>
    let octal := (48 :: rest).takeWhile Octet.isOctal
    (8, octal, (48 :: rest).drop octal.length)
  | os =>
    let digits := os.takeWhile Octet.isDigit
    (10, digits, os.drop digits.length)

/-- a number at the beginning of some octets: its value without limits and what follows it, if there is one -/
def number? (anyBase : Bool) (os : Octets) : Option (Int × Octets) :=
  let unsigned := os.dropWhile Octet.isSpace
  let (negative, rest) :=
    match unsigned with
    | 45 :: rest => (true, rest)
    | 43 :: rest => (false, rest)
    | rest => (false, rest)
  let (base, digits, after) :=
    if anyBase then digitsOf rest
    else
      let digits := rest.takeWhile Octet.isDigit
      (10, digits, rest.drop digits.length)
  if digits.isEmpty then none
  else
    let value : Int := Octets.valueIn base digits
    some (if negative then -value else value, after)

/-- a value within the limits, or why octets are no number -/
def checked (given : Octets) (value : Int) (after : Octets) : Except Complaint Int :=
  if (after.dropWhile Octet.isSpace).isEmpty ∧ smallest ≤ value ∧ value ≤ largest then .ok value
  else .error (.illegalNumber given)

/-- the number that octets write in any base, zero if there is nothing -/
def ofOctets (os : Octets) : Except Complaint Int :=
  match number? true os with
  | some (value, after) => checked os value after
  | none => if (os.dropWhile Octet.isSpace).isEmpty then .ok 0 else .error (.illegalNumber os)

def ofDecimal (os : Octets) : Except Complaint Int :=
  match number? false os with
  | some (value, after) => checked os value after
  | none => .error (.illegalNumber os)

/-! ## Tokens -/

/-- an operation on two numbers -/
inductive Operator where
  | times
  | divide
  | remainder
  | plus
  | minus
  | shiftLeft
  | shiftRight
  | less
  | lessOrEqual
  | greater
  | greaterOrEqual
  | equal
  | unequal
  | bitAnd
  | bitXor
  | bitOr
  deriving DecidableEq, Repr, Inhabited

namespace Operator

/-- how loosely an operator binds -/
def level : Operator → Nat
  | times => 0
  | divide => 0
  | remainder => 0
  | plus => 1
  | minus => 1
  | shiftLeft => 2
  | shiftRight => 2
  | less => 3
  | lessOrEqual => 3
  | greater => 3
  | greaterOrEqual => 3
  | equal => 4
  | unequal => 4
  | bitAnd => 5
  | bitXor => 6
  | bitOr => 7

def truth (b : Bool) : Int := if b then 1 else 0

def bits (n : Int) : Nat := (n % 18446744073709551616).toNat

/-- what an operator makes of two numbers; nothing for a division by zero -/
def result? (o : Operator) (a b : Int) : Option Int :=
  match o with
  | times => some (wrap (a * b))
  | divide => if b = 0 then none else some (wrap (a.tdiv b))
  | remainder => if b = 0 then none else some (a.tmod b)
  | plus => some (wrap (a + b))
  | minus => some (wrap (a - b))
  | shiftLeft => some (wrap (bits a <<< (bits b % 64)))
  | shiftRight => some (a >>> (bits b % 64))
  | less => some (truth (decide (a < b)))
  | lessOrEqual => some (truth (decide (a ≤ b)))
  | greater => some (truth (decide (b < a)))
  | greaterOrEqual => some (truth (decide (b ≤ a)))
  | equal => some (truth (decide (a = b)))
  | unequal => some (truth (decide (a ≠ b)))
  | bitAnd => some (wrap (bits a &&& bits b))
  | bitXor => some (wrap (bits a ^^^ bits b))
  | bitOr => some (wrap (bits a ||| bits b))

end Operator

inductive Lexeme where
  | number (n : Int)
  | name (os : Octets)
  | operator (o : Operator)
  | assign (o : Option Operator)
  | both
  | either
  | notSign
  | complement
  | openParenthesis
  | closeParenthesis
  | question
  | colon
  | unknown
  deriving DecidableEq, Repr, Inhabited

/-- an operator, an assignment with it if an equals sign follows -/
def orAssign (o : Operator) (rest : Octets) : Lexeme × Octets :=
  match rest with
  | 61 :: rest => (.assign (some o), rest)
  | rest => (.operator o, rest)

/-- the token that starts with a sign -/
def signLexeme (c : UInt8) (rest : Octets) : Lexeme × Octets :=
  match Char.ofUInt8 c, rest with
  | '=', 61 :: rest => (.operator .equal, rest)
  | '=', rest => (.assign none, rest)
  | '>', 61 :: rest => (.operator .greaterOrEqual, rest)
  | '>', 62 :: rest => orAssign .shiftRight rest
  | '>', rest => (.operator .greater, rest)
  | '<', 61 :: rest => (.operator .lessOrEqual, rest)
  | '<', 60 :: rest => orAssign .shiftLeft rest
  | '<', rest => (.operator .less, rest)
  | '|', 124 :: rest => (.either, rest)
  | '|', rest => orAssign .bitOr rest
  | '&', 38 :: rest => (.both, rest)
  | '&', rest => orAssign .bitAnd rest
  | '!', 61 :: rest => (.operator .unequal, rest)
  | '!', rest => (.notSign, rest)
  | '(', rest => (.openParenthesis, rest)
  | ')', rest => (.closeParenthesis, rest)
  | '*', rest => orAssign .times rest
  | '/', rest => orAssign .divide rest
  | '%', rest => orAssign .remainder rest
  | '+', rest => orAssign .plus rest
  | '-', rest => orAssign .minus rest
  | '~', rest => (.complement, rest)
  | '^', rest => orAssign .bitXor rest
  | '?', rest => (.question, rest)
  | ':', rest => (.colon, rest)
  | _, rest => (.unknown, rest)

/-- the tokens of an expression of a bounded length -/
def lexemesUpTo : Nat → Octets → List Lexeme
  | 0, _ => []
  | fuel + 1, os =>
    match os with
    | [] => []
    | c :: rest =>
      if c == 32 || c == 9 || c == 10 then lexemesUpTo fuel rest
      else if Octet.isDigit c then
        match number? true (c :: rest) with
        | some (value, after) => .number (min value largest) :: lexemesUpTo fuel after
        | none => [.unknown]
      else if Octet.isNameStart c then
        let name := (c :: rest).takeWhile Octet.isNamePart
        .name name :: lexemesUpTo fuel ((c :: rest).drop name.length)
      else
        let (lexeme, rest) := signLexeme c rest
        if lexeme = .unknown then [.unknown] else lexeme :: lexemesUpTo fuel rest

def lexemes (os : Octets) : List Lexeme := lexemesUpTo (os.length + 1) os

/-! ## Working out -/

/-- an action on the tokens that are left -/
abbrev Work (ρ : Type) := StateT (List Lexeme) Run ρ

/-- what is to be worked out, from the loosest to the tightest -/
inductive Level where
  | assignment
  | condition
  | disjunction
  | conjunction
  | binary (level : Nat)
  | operand
  deriving DecidableEq, Repr, Inhabited

/-- working out at each level; the flag says that the value is skipped -/
abbrev Worker := Level → Bool → Work Int

/-- fails because of a fault in the whole expression -/
def refuse {ρ : Type} (whole : Octets) (cause : SumFault) : Work ρ := liftM (Run.fail (.badSum cause whole) : Run ρ)

def variableNumber (name : Octets) : Run Int := do
  match ofOctets ((← Run.value? name).getD []) with
  | .ok n => return n
  | .error c => Run.fail c

/-- gives a variable a number -/
def setNumber (name : Octets) (n : Int) : Run Int := do
  Run.assign name (Octets.integer n)
  return n

/-- what an operator makes of two numbers -/
def applied (whole : Octets) (skips : Bool) (o : Operator) (a b : Int) : Work Int :=
  if skips then return b
  else
    match o.result? a b with
    | some n => return n
    | none => refuse whole .divisionByZero

/-- an assignment, or what binds tighter -/
def assignment (whole : Octets) (worker : Worker) (skips : Bool) : Work Int := do
  match ← get with
  | .name name :: .assign o :: rest =>
    set rest
    let value ← worker .assignment skips
    if skips then return value
    match o with
    | none => liftM (setNumber name value)
    | some o => do
      let before ← liftM (variableNumber name)
      liftM (setNumber name (← applied whole false o before value))
  | _ => worker .condition skips

/-- a choice between two values, or what binds tighter -/
def condition (whole : Octets) (worker : Worker) (skips : Bool) : Work Int := do
  let a ← worker .disjunction skips
  match ← get with
  | .question :: rest =>
    set rest
    let b ← worker .assignment (skips || a == 0)
    match ← get with
    | .colon :: rest =>
      set rest
      let c ← worker .condition (skips || a != 0)
      return if a ≠ 0 then b else c
    | _ => refuse whole .colonExpected
  | _ => return a

/-- values joined by `||` -/
def disjunction (worker : Worker) (skips : Bool) : Work Int := do
  let a ← worker .conjunction skips
  match ← get with
  | .either :: rest =>
    set rest
    let b ← worker .disjunction (skips || a != 0)
    return Operator.truth (a != 0 || b != 0)
  | _ => return a

/-- values joined by `&&` -/
def conjunction (worker : Worker) (skips : Bool) : Work Int := do
  let a ← worker (.binary 7) skips
  match ← get with
  | .both :: rest =>
    set rest
    let b ← worker .conjunction (skips || a == 0)
    return Operator.truth (a != 0 && b != 0)
  | _ => return a

def tighter : Nat → Level
  | 0 => .operand
  | n + 1 => .binary n

/-- goes on from a value with the operators of a level -/
def binaryFrom (whole : Octets) (worker : Worker) (level : Nat) (skips : Bool) : Nat → Int → Work Int
  | 0, a => return a
  | fuel + 1, a => do
    match ← get with
    | .operator o :: rest =>
      if o.level ≠ level then return a
      set rest
      let b ← worker (tighter level) skips
      binaryFrom whole worker level skips fuel (← applied whole skips o a b)
    | _ => return a

/-- a number, a variable, something in parentheses or after a sign -/
def operand (whole : Octets) (worker : Worker) (skips : Bool) : Work Int := do
  match ← get with
  | .openParenthesis :: rest =>
    set rest
    let a ← worker .assignment skips
    match ← get with
    | .closeParenthesis :: rest =>
      set rest
      return a
    | _ => refuse whole .parenthesisExpected
  | .number n :: rest =>
    set rest
    return n
  | .name name :: rest =>
    set rest
    if skips then return 0 else liftM (variableNumber name)
  | .operator .plus :: rest =>
    set rest
    worker .operand skips
  | .operator .minus :: rest =>
    set rest
    return wrap (-(← worker .operand skips))
  | .notSign :: rest =>
    set rest
    return Operator.truth ((← worker .operand skips) == 0)
  | .complement :: rest =>
    set rest
    return -1 - (← worker .operand skips)
  | _ => refuse whole .operandExpected

/-- works out a level, to a depth -/
def workTo (whole : Octets) : Nat → Worker
  | 0, _, _ => refuse whole .operandExpected
  | depth + 1, level, skips =>
    match level with
    | .assignment => assignment whole (workTo whole depth) skips
    | .condition => condition whole (workTo whole depth) skips
    | .disjunction => disjunction (workTo whole depth) skips
    | .conjunction => conjunction (workTo whole depth) skips
    | .binary n => do
      let a ← workTo whole depth (tighter n) skips
      binaryFrom whole (workTo whole depth) n skips (whole.length + 1) a
    | .operand => operand whole (workTo whole depth) skips

def value (whole : Octets) : Run Int := do
  let tokens := lexemes whole
  let (n, rest) ← (workTo whole (13 * (tokens.length + 1)) .assignment false).run tokens
  if !rest.isEmpty then Run.fail (.badSum .endExpected whole)
  return n

end Sum

end Shell

end Bench

end InterfacePages

/-
Conditions: what `test` works out.

A condition is a list of arguments. Operators bind as usual: `!` before `-a` before `-o`; an argument that could be an
operator is one unless what follows makes an operand of it. Conditions of one to four arguments have rules of their
own.
-/
import InterfacePages.Bench.Shell.Sum

namespace InterfacePages

namespace Bench

namespace Shell

namespace Condition

inductive Sign where
  | unary (letter : UInt8)
  | compare (name : Octets)
  | notSign
  | both
  | either
  | openParenthesis
  | closeParenthesis
  deriving DecidableEq, Repr, Inhabited

/-- the letters of operators on one operand -/
def unaryLetters : Octets := "rwxefdcbpugksthLOGSzn"

/-- the operators on two operands -/
def comparisons : List Octets :=
  ["=", "!=", "<", ">", "-eq", "-ne", "-ge", "-gt", "-le", "-lt", "-nt", "-ot", "-ef"]

/-- the operator that an argument may be -/
def sign? (os : Octets) : Option Sign :=
  if comparisons.contains os then some (.compare os)
  else
    match os with
    | [45, 97] => some .both
    | [45, 111] => some .either
    | [33] => some .notSign
    | [40] => some .openParenthesis
    | [41] => some .closeParenthesis
    | [45, c] => if unaryLetters.contains c then some (.unary c) else none
    | _ => none

/-- an operator compares two operands -/
def isComparison (os : Octets) : Bool :=
  match sign? os with
  | some (.compare _) => true
  | _ => false

/-- what an argument is, as far as those after it tell -/
inductive Lexeme where
  | none
  | operand
  | sign (s : Sign)
  deriving DecidableEq, Repr, Inhabited

/-- an operator on one operand that is an operand itself, because nothing follows or a comparison does -/
def isOperand : List Octets → Bool
  | [_] => true
  | [_, _] => false
  | _ :: next :: _ => isComparison next
  | [] => true

def lexeme (args : List Octets) : Lexeme :=
  match args with
  | [] => .none
  | arg :: rest =>
    match sign? arg with
    | none => .operand
    | some (.unary c) => if isOperand args then .operand else .sign (.unary c)
    | some .openParenthesis => if rest.isEmpty then .operand else .sign .openParenthesis
    | some s => .sign s

/-- an action on the arguments that are left -/
abbrev Work (ρ : Type) := StateT (List Octets) Run ρ

/-- complains and fails -/
def refuse {ρ : Type} (c : Complaint) : Work ρ := liftM (Run.fail c : Run ρ)

/-- goes on by a number of arguments -/
def skip (n : Nat) : Work Unit := modify (·.drop n)

/-- what the argument a number of places further on is -/
def lexemeAt (n : Nat) : Work Lexeme := do return lexeme ((← get).drop n)

/-- the number that an operand writes -/
def number (os : Octets) : Run Int := do
  match Sum.ofDecimal os with
  | .ok n => return n
  | .error c => Run.fail c

def fileTest (letter : UInt8) (path : Octets) : Run Bool := do
  let found ← Run.locate path
  match found with
  | .error _ => return false
  | .ok (.free _) => return false
  | .ok target =>
    let isFolder := match target with
      | .entry _ .folder => true
      | _ => false
    let isFile := match target with
      | .entry _ (.file _) => true
      | .tool _ => true
      | _ => false
    match Char.ofUInt8 letter with
    | 'e' => return true
    | 'f' => return isFile
    | 'd' => return isFolder
    | 'r' => return true
    | 'w' => return true
    | 'O' => return true
    | 'G' => return true
    | 'x' =>
      match target with
      | .tool _ => return true
      | _ => return isFolder
    | 's' =>
      match target with
      | .entry _ (.file octets) => return !octets.isEmpty
      | .tool _ => return true
      | _ => return isFolder
    | 'c' =>
      match target with
      | .device => return true
      | _ => return false
    | 'p' =>
      match target with
      | .descriptor n =>
        match ← Run.stream? n with
        | some (_, .source _) => return true
        | some (_, .sink _) => return true
        | _ => return false
      | _ => return false
    | _ => return false

def unary (letter : UInt8) (operand : Octets) : Run Bool := do
  match Char.ofUInt8 letter with
  | 'z' => return operand.isEmpty
  | 'n' => return !operand.isEmpty
  | 't' =>
    let _ ← number operand
    return false
  | _ => fileTest letter operand

def sameFile (a b : Octets) : Run Bool := do
  match ← Run.locate a, ← Run.locate b with
  | .ok (.entry p _), .ok (.entry q _) => return p == q
  | .ok .device, .ok .device => return true
  | .ok (.tool p), .ok (.tool q) => return p == q
  | _, _ => return false

/-- a comparison of two operands -/
def compare (name a b : Octets) : Run Bool := do
  let numbers (f : Int → Int → Bool) : Run Bool := do
    let x ← number a
    let y ← number b
    return f x y
  if name = ("=" : Octets) then return a == b
  else if name = ("!=" : Octets) then return a != b
  else if name = ("<" : Octets) then return Octets.le a b && a != b
  else if name = (">" : Octets) then return Octets.le b a && a != b
  else if name = ("-eq" : Octets) then numbers fun x y => x == y
  else if name = ("-ne" : Octets) then numbers fun x y => x != y
  else if name = ("-ge" : Octets) then numbers fun x y => decide (y ≤ x)
  else if name = ("-gt" : Octets) then numbers fun x y => decide (y < x)
  else if name = ("-le" : Octets) then numbers fun x y => decide (x ≤ y)
  else if name = ("-lt" : Octets) then numbers fun x y => decide (x < y)
  else if name = ("-ef" : Octets) then sameFile a b
  else return false

/-- conditions that are joined, negated or bare -/
inductive Level where
  | disjunction
  | conjunction
  | negation
  | bare
  deriving DecidableEq, Repr, Inhabited

/-- works out a level, whose first argument has been looked at -/
abbrev Worker := Level → Lexeme → Work Bool

def bare (worker : Worker) (l : Lexeme) : Work Bool := do
  match l with
  | .none => return false
  | .sign .openParenthesis =>
    skip 1
    let inner ← lexemeAt 0
    if inner = .sign .closeParenthesis then return false
    let b ← worker .disjunction inner
    skip 1
    if (← lexemeAt 0) ≠ .sign .closeParenthesis then refuse .lacksParenthesis
    return b
  | .sign (.unary letter) =>
    let args ← get
    match args with
    | name :: operand :: _ =>
      skip 1
      let _ := name
      liftM (unary letter operand)
    | name :: _ => refuse (.lacksOperand name)
    | [] => return false
  | _ =>
    match ← get, ← lexemeAt 1 with
    | a :: name :: rest, .sign (.compare _) =>
      match rest with
      | b :: _ =>
        skip 2
        liftM (compare name a b)
      | [] => refuse (.lacksOperand name)
    | a :: _, _ => return !a.isEmpty
    | [], _ => return false

/-- a condition that may be negated -/
def negation (worker : Worker) (l : Lexeme) : Work Bool := do
  if l ≠ .sign .notSign then worker .bare l
  else
    let next ← lexemeAt 1
    if next ≠ .none then skip 1
    return !(← worker .negation next)

/-- conditions joined by an operator; `join` joins two, `unit` is what nothing comes to -/
def joinedFrom (worker : Worker) (tighter : Level) (s : Sign) (join : Bool → Bool → Bool) :
    Nat → Bool → Lexeme → Work Bool
  | 0, before, _ => return before
  | fuel + 1, before, l => do
    let whole := join before (← worker tighter l)
    if (← lexemeAt 1) = .sign s then
      skip 2
      joinedFrom worker tighter s join fuel whole (← lexemeAt 0)
    else return whole

/-- works out a level of at most so many arguments, to a depth -/
def workTo (count : Nat) : Nat → Worker
  | 0, _, _ => return false
  | depth + 1, level, l =>
    match level with
    | .disjunction => joinedFrom (workTo count depth) .conjunction .either (· || ·) (count + 1) false l
    | .conjunction => joinedFrom (workTo count depth) .negation .both (· && ·) (count + 1) true l
    | .negation => negation (workTo count depth) l
    | .bare => bare (workTo count depth) l

/-- works out arguments from one on that has been looked at, and refuses what is left after them -/
def whole (args : List Octets) (l : Lexeme) : Run Bool := do
  let (b, left) ← (workTo args.length (4 * args.length + 8) .disjunction l).run args
  match left with
  | a :: _ :: _ => Run.fail (.badOperator a)
  | _ => return b

/-- the value of a condition, after a `!` if there is one -/
def valueFrom : Nat → Bool → List Octets → Run Bool
  | 0, _, _ => return false
  | fuel + 1, negated, args => do
    let decided (args : List Octets) (l : Lexeme) : Run Bool := do return (← whole args l) != negated
    match args with
    | [] => return false
    | [_, name, _] =>
      if isComparison name then decided args .operand else special fuel args decided
    | [_, _, _, _] => special fuel args decided
    | args => decided args (lexeme args)
where
  /-- a condition of three or four arguments: in parentheses, after a `!`, or any -/
  special (fuel : Nat) (args : List Octets)
      (decided : List Octets → Lexeme → Run Bool) : Run Bool := do
    if args.head? = some [40] ∧ args.getLast? = some [41] then
      let inner := args.dropLast.drop 1
      decided inner (lexeme inner)
    else if args.head? = some [33] then valueFrom fuel true args.tail
    else decided args (lexeme args)

def value (args : List Octets) : Run Bool := valueFrom (args.length + 1) false args

end Condition

end Shell

end Bench

end InterfacePages

/-
Adding and multiplying the sizes and counts that a tree gives.

They are meant to be numbers, but a tree can give anything. Truth values count as zero and one, a double makes the
result a double, texts and tuples are joined by adding and repeated by multiplying with a whole number, and everything
else is of the wrong type.
-/
import InterfacePages.Node.Basic

namespace InterfacePages

namespace Value

def whole? : Value → Option Int
  | .bool b => some (if b then 1 else 0)
  | .int n => some n
  | _ => none

def isNumber : Value → Bool
  | .float _ => true
  | .undefined => true
  | v => v.whole?.isSome

def double : Value → Except Fault Float
  | .float x => .ok x
  | .undefined => .ok (0.0 / 0.0)
  | v =>
    match v.whole? with
    | none => .error .wrongType
    | some n =>
      match Number.ofInteger? n with
      | some x => .ok x
      | none => .error .integerTooLarge

/-- a double that arithmetic gave -/
def ofResult (x : Float) : Value := if x.isNaN then .undefined else .float x

/-- applies an operation to two numbers one of which is a double -/
def onDoubles (f : Float → Float → Float) (a b : Value) : Except Fault Value := do
  if !(a.isNumber && b.isNumber) then throw .wrongType
  return ofResult (f (← a.double) (← b.double))

/-- the sum of two values -/
def add (a b : Value) : Except Fault Value :=
  match a.whole?, b.whole? with
  | some m, some n => .ok (.int (m + n))
  | _, _ =>
    match a, b with
    | .text s, .text t => .ok (.text (s ++ t))
    | .tuple xs, .tuple ys => .ok (.tuple (xs ++ ys))
    | _, _ => onDoubles (· + ·) a b

/-- the largest place in a collection -/
def maxPlace : Nat := 9223372036854775807

/-- the most items that memory holds -/
def maxItems : Nat := 10000000000

/-- how often a whole number repeats a collection: a negative number is none, one beyond all places is refused -/
def repetitions (times : Int) : Except Fault Nat :=
  if times < -(maxPlace + 1) ∨ maxPlace < times then .error .indexTooLarge else .ok times.toNat

def repeated {α : Type} (items : List α) (times : Nat) : Except Fault (List α) :=
  if items.isEmpty then .ok []
  else if maxItems < items.length * times then .error .outOfMemory
  else .ok (List.replicate times items).flatten

/-- a text several times in a row, as long as every place of it has a number -/
def repeatedText (t : Text) (times : Int) : Except Fault Value := do
  let count ← repetitions times
  if maxPlace < t.length * count then throw .repeatedTooLong
  return .text (← repeated t count)

/-- a tuple several times in a row -/
def repeatedItems (items : List Value) (times : Int) : Except Fault Value := do
  return .tuple (← repeated items (← repetitions times))

/-- the product of two values -/
def times (a b : Value) : Except Fault Value :=
  match a.whole?, b.whole? with
  | some m, some n => .ok (.int (m * n))
  | some m, none =>
    match b with
    | .text t => repeatedText t m
    | .tuple xs => repeatedItems xs m
    | _ => onDoubles (· * ·) a b
  | none, some n =>
    match a with
    | .text t => repeatedText t n
    | .tuple xs => repeatedItems xs n
    | _ => onDoubles (· * ·) a b
  | none, none => onDoubles (· * ·) a b

/-- the sum of sizes, or none when one of them is unknown; later ones are not looked at then -/
def sumKnown : Value → List (Except Fault Value) → Except Fault Value
  | total, [] => .ok total
  | total, size :: rest => do
    let size ← size
    if size.isAbsent then return .absent
    sumKnown (← total.add size) rest

/-- the most digits that a whole number is written with -/
def maxDigits : Nat := 4300

/-- a quantity as generated text shows it -/
def displayNumber (v : Value) : Except Fault Text :=
  match v with
  | .int n => if Nat.pow 10 maxDigits ≤ n.natAbs then .error .integerTextTooLong else .ok v.display
  | _ => .ok v.display

/-- a whole number in hexadecimal -/
def hexadecimal (v : Value) : Except Fault Text :=
  match v with
  | .int n => .ok (Number.hexadecimal n)
  | .bool b => .ok (if b then "1" else "0")
  | .float _ => .error (.unknownNumberCode v.typeName)
  | .undefined => .error (.unknownNumberCode v.typeName)
  | .text _ => .error (.unknownNumberCode v.typeName)
  | _ => .error .wrongType

end Value

end InterfacePages

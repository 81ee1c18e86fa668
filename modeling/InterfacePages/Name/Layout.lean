/-
Layouts: how a field of a pattern is aligned, cut and padded.

A layout is read the same way for texts and for whole numbers, but a number stands to the right unless told
otherwise, and zeros before the width then go between its sign and its digits. What does not fit the kind of value is
a fault of its own.
-/
import InterfacePages.Fault
import InterfacePages.Text.Digit

namespace InterfacePages

namespace Name

inductive Layout.Target where
  | text
  | whole
  deriving DecidableEq, Repr

structure Layout where
  fill : Nat
  alignment : Nat
  sign : Option Nat
  negativeZero : Bool
  alternate : Bool
  width : Option Nat
  separator : Option Nat
  precision : Option Nat
  code : Nat
  deriving DecidableEq, Repr

namespace Layout

/-! ## Reading -/

/-- the largest number a layout may write -/
def maxNumber : Nat := 9223372036854775807

/-- the digits at the start of a text as a number with how many there are, and the rest -/
def leadingNumber (t : Text) : Nat × Nat × Text :=
  let digits := t.takeWhile fun c => (Text.digitValue? c).isSome
  let rest := t.dropWhile fun c => (Text.digitValue? c).isSome
  (digits.foldl (fun n c => n * 10 + (Text.digitValue? c).getD 0) 0, digits.length, rest)

def isAlignment (c : Nat) : Bool := c == 60 || c == 62 || c == 61 || c == 94

/-- the fill and the alignment at the start of a layout, each when it is given -/
def readAlignment : Text → Option Nat × Option Nat × Text
  | a :: b :: rest =>
    if isAlignment b then (some a, some b, rest)
    else if isAlignment a then (none, some a, b :: rest)
    else (none, none, a :: b :: rest)
  | [a] => if isAlignment a then (none, some a, []) else (none, none, [a])
  | [] => (none, none, [])

/-- takes one of some code points off the start -/
def takeOne (p : Nat → Bool) : Text → Option Nat × Text
  | c :: rest => if p c then (some c, rest) else (none, c :: rest)
  | [] => (none, [])

/-- the separators of thousands at the start of a text: the last one given -/
def readSeparator (t : Text) : Except Fault (Option Nat × Text) :=
  let (comma, t) := takeOne (· == 44) t
  let (underscore, t) := takeOne (· == 95) t
  if comma.isSome && underscore.isSome then .error (.pattern .bothSeparators)
  else if underscore.isSome && (takeOne (· == 44) t).1.isSome then .error (.pattern .bothSeparators)
  else .ok (underscore.or comma, t)

def readPrecision (t : Text) : Except Fault (Option Nat × Text) :=
  match t with
  | 46 :: rest =>
    match leadingNumber rest with
    | (_, 0, _) => .error (.pattern .missingPrecision)
    | (n, _, rest) => if maxNumber < n then .error (.pattern .tooManyDigits) else .ok (some n, rest)
  | _ => .ok (none, t)

/-- the codes of other bases than ten -/
def isOtherBase (code : Nat) : Bool := (Text.ofString "boxX").contains code

/-- the codes that go with a separator of thousands -/
def takesSeparator (separator code : Nat) : Bool :=
  code == 0 || (Text.ofString "deEfFgG%").contains code || (separator == 95 && isOtherBase code)

/-- the code that stands for none -/
def Target.code : Target → Nat
  | .text => 115
  | .whole => 100

def Target.alignment : Target → Nat
  | .text => 60
  | .whole => 62

def Target.typeName : Target → Text
  | .text => "str"
  | .whole => "int"

def read (target : Target) (t : Text) : Except Fault Layout := do
  let (fill, alignment, left) := readAlignment t
  let (sign, left) := takeOne (fun c => c == 32 || c == 43 || c == 45) left
  let (negativeZero, left) := takeOne (· == 122) left
  let (alternate, left) := takeOne (· == 35) left
  let (zeros, left) := if fill.isSome then (none, left) else takeOne (· == 48) left
  let (width, count, left) := leadingNumber left
  if maxNumber < width then throw (.pattern .tooManyDigits)
  let (separator, left) ← readSeparator left
  let (precision, left) ← readPrecision left
  let code ← match left with
    | [] => pure target.code
    | [c] => pure c
    | _ => throw (.pattern (.invalidSpecifier t target.typeName))
  match separator with
  | some s => if !takesSeparator s code then throw (.pattern (.separatorWith s code))
  | none => pure ()
  let padded := target = .whole ∧ zeros.isSome
  return {
    fill := if zeros.isSome then 48 else fill.getD 32
    alignment := alignment.getD (if padded then 61 else target.alignment)
    sign, negativeZero := negativeZero.isSome, alternate := alternate.isSome
    width := if count = 0 then none else some width
    separator, precision, code }

/-! ## Texts -/

/-- the widest layout that memory holds -/
def maxWidth : Nat := 10000000000

/-- fills a text up to the width on both sides: `left` of what is missing goes to the left -/
def padded (l : Layout) (left : Nat → Nat) (shown : Text) : Except Fault Text :=
  let missing := l.width.getD 0 - shown.length
  if maxWidth < missing then .error .outOfMemory
  else .ok (Text.repeated (left missing) l.fill ++ shown ++ Text.repeated (missing - left missing) l.fill)

def leftPart (l : Layout) (missing : Nat) : Nat :=
  if l.alignment = 62 then missing else if l.alignment = 94 then missing / 2 else 0

def applyText (l : Layout) (t : Text) : Except Fault Text :=
  if l.code ≠ 115 then .error (.pattern (.unknownCode l.code "str"))
  else if l.sign = some 32 then .error (.pattern .spaceSign)
  else if l.sign.isSome then .error (.pattern .sign)
  else if l.negativeZero then .error (.pattern .negativeZero)
  else if l.alternate then .error (.pattern .alternate)
  else if l.alignment = 61 then .error (.pattern .equalsAlignment)
  else
    let shown := match l.precision with
      | some n => t.take n
      | none => t
    l.padded l.leftPart shown

/-! ## Whole numbers -/

/-- the digits of a number, last first, in groups with a separator between neighbours, and zeros up to a width -/
def groups (size separator : Nat) : Nat → Text → Int → Text
  | 0, digits, _ => digits
  | fuel + 1, digits, width =>
    let count := min size (max (max digits.length width.toNat) 1)
    let group := digits.take count ++ Text.repeated (count - digits.length) 48
    let left := digits.drop count
    if left.isEmpty && decide (width ≤ count) then group
    else group ++ (separator :: groups size separator fuel left (width - count - 1))

/-- digits up to a width, in groups when there is a separator -/
def digitsUpTo (l : Layout) (width : Nat) (digits : Text) : Text :=
  match l.separator with
  | none => Text.repeated (width - digits.length) 48 ++ digits
  | some s =>
    let size := if isOtherBase l.code then 4 else 3
    (groups size s (digits.length + width + 1) digits.reverse width).reverse

/-- a sign, digits and what follows them, laid out -/
def applyDigits (l : Layout) (lead digits rest : Text) : Except Fault Text :=
  let sign : Text := match l.sign with
    | some 43 => "+"
    | some 32 => " "
    | _ => []
  let width := l.width.getD 0
  if maxWidth < width then .error .outOfMemory
  else
    let used := sign.length + lead.length + rest.length
    let zeros := if l.fill = 48 ∧ l.alignment = 61 then width - used else 0
    let digits := if digits.isEmpty then [] else l.digitsUpTo zeros digits
    if l.alignment = 61 then
      .ok (sign ++ lead ++ Text.repeated (width - used - digits.length) l.fill ++ digits ++ rest)
    else l.padded l.leftPart (sign ++ lead ++ digits ++ rest)

def digitsOf (base n : Nat) : Text := (Nat.toDigits base n).map Char.toNat

/-- lays out a whole number in a base -/
def applyBase (l : Layout) (n : Nat) : Except Fault Text :=
  let lead (t : String) : Text := if l.alternate then t else []
  if l.precision.isSome then .error (.pattern .integerPrecision)
  else if l.negativeZero then .error (.pattern .integerNegativeZero)
  else if l.code = 99 then
    if l.sign.isSome then .error (.pattern .characterSign)
    else if l.alternate then .error (.pattern .characterAlternate)
    else if 0x110000 ≤ n then .error .noCharacter
    else l.applyDigits [] [] [n]
  else if l.code = 98 then l.applyDigits (lead "0b") (digitsOf 2 n) []
  else if l.code = 111 then l.applyDigits (lead "0o") (digitsOf 8 n) []
  else if l.code = 120 then l.applyDigits (lead "0x") (digitsOf 16 n) []
  else if l.code = 88 then
    l.applyDigits (lead "0X") ((digitsOf 16 n).map fun c => if 97 ≤ c then c - 32 else c) []
  else l.applyDigits [] (Number.decimal n) []

/-- a number divided by a power of ten, a half going to the even neighbour -/
def roundedDigits (n places : Nat) : Nat :=
  let unit := Nat.pow 10 places
  let q := n / unit
  let r := n % unit
  if unit < 2 * r ∨ (2 * r = unit ∧ q % 2 = 1) then q + 1 else q

/-- the first `count` digits of a number and the power of ten of the first, zeros added at the end -/
def significant (n count : Nat) : Text × Nat :=
  let digits := Number.decimal n
  if digits.length ≤ count then (digits ++ Text.repeated (count - digits.length) 48, digits.length - 1)
  else
    let shown := Number.decimal (roundedDigits n (digits.length - count))
    if shown.length = count then (shown, digits.length - 1) else (shown.take count, digits.length)

/-- a point and what follows it; the point stays when the layout asks for it -/
def fractionText (l : Layout) (digits : Text) : Text := if digits.isEmpty && !l.alternate then [] else 46 :: digits

/-- lays out a number with an exponent -/
def applyExponent (l : Layout) (mark : Nat) (trim : Bool) (n places : Nat) : Except Fault Text :=
  let (digits, exponent) := significant n (places + 1)
  let fraction := if trim then Text.dropEndWhile (· == 48) (digits.drop 1) else digits.drop 1
  let power := Number.decimal exponent
  let exponentText := mark :: 43 :: (Text.repeated (2 - power.length) 48 ++ power)
  l.applyDigits [] (digits.take 1) (l.fractionText fraction ++ exponentText)

/-- lays out a whole number the way fractions are -/
def applyFraction (l : Layout) (n : Nat) : Except Fault Text :=
  let places := l.precision.getD 6
  let upper : Bool := decide (l.code < 97)
  let mark := if upper then 69 else 101
  if maxWidth < places then .error .outOfMemory
  else if l.code = 101 ∨ l.code = 69 then l.applyExponent mark false n places
  else if l.code = 37 then l.applyDigits [] (Number.decimal (n * 100)) (l.fractionText (Text.repeated places 48) ++ [37])
  else if l.code = 102 ∨ l.code = 70 then
    l.applyDigits [] (Number.decimal n) (l.fractionText (Text.repeated places 48))
  else
    let count := max places 1
    let exponent := (significant n count).2
    if count ≤ exponent then l.applyExponent mark (!l.alternate) n (count - 1)
    else
      let zeros := if l.alternate then Text.repeated (count - 1 - exponent) 48 else []
      l.applyDigits [] (Number.decimal n) (l.fractionText zeros)

/-- lays out a whole number -/
def applyWhole (l : Layout) (n : Nat) : Except Fault Text :=
  if (Text.ofString "bcdnoxX").contains l.code then l.applyBase n
  else if (Text.ofString "eEfFgG%").contains l.code then l.applyFraction n
  else .error (.pattern (.unknownCode l.code "int"))

end Layout

end Name

end InterfacePages

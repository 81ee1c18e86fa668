/-
How values are laid out by the directives of a format.

A directive has signs, a width and a precision. `Directive.text` lays out octets, `Directive.whole` a whole number that
may be negative, `Directive.digits` one in another base, and `Directive.fraction` a fraction in one of four styles.
-/
import InterfacePages.Bench.Tool.Fraction

namespace InterfacePages

namespace Bench

/-- the signs, the width and the precision of a directive -/
structure Directive where
  left : Bool
  plus : Bool
  space : Bool
  alternate : Bool
  zero : Bool
  width : Nat
  precision : Option Nat
  deriving DecidableEq, Repr, Inhabited

namespace Directive

/-- the directive without signs, width and precision -/
def plain : Directive := ⟨false, false, false, false, false, 0, none⟩

def sign (d : Directive) (c : UInt8) : Directive :=
  match Char.ofUInt8 c with
  | '-' => { d with left := true }
  | '+' => { d with plus := true }
  | ' ' => { d with space := true }
  | '#' => { d with alternate := true }
  | '0' => { d with zero := true }
  | _ => d

def signs : Octets := "#-+ 0"

/-- gives a directive a width; a negative one goes to the left -/
def withWidth (d : Directive) (n : Int) : Directive :=
  { d with width := n.natAbs, left := d.left || decide (n < 0) }

/-- gives a directive a precision; a negative one is none -/
def withPrecision (d : Directive) (n : Int) : Directive :=
  { d with precision := if n < 0 then none else some n.natAbs }

/-- as wide as the directive asks for -/
def padded (d : Directive) (os : Octets) : Octets :=
  let blanks := List.replicate (d.width - os.length) 32
  if d.left then os ++ blanks else blanks ++ os

/-- octets, as many as the precision lets through -/
def text (d : Directive) (os : Octets) : Octets :=
  d.padded (match d.precision with
    | some n => os.take n
    | none => os)

/-- a number made of what goes before its digits and the digits; zeros fill the width if they are asked for -/
def number (d : Directive) (zeros : Bool) (before digits : Octets) : Octets :=
  if zeros && d.zero && !d.left then
    before ++ List.replicate (d.width - before.length - digits.length) 48 ++ digits
  else d.padded (before ++ digits)

/-- digits, at least as many as the precision asks for -/
def atLeast (d : Directive) (digits : Octets) : Octets :=
  match d.precision with
  | none => digits
  | some n => if n = 0 ∧ digits = [48] then [] else List.replicate (n - digits.length) 48 ++ digits

def signOf (d : Directive) (negative : Bool) : Octets :=
  if negative then "-" else if d.plus then "+" else if d.space then " " else []

/-- a whole number in decimal digits -/
def whole (d : Directive) (n : Int) : Octets :=
  d.number d.precision.isNone (d.signOf (decide (n < 0))) (d.atLeast (Octets.decimal n.natAbs))

def digitsIn (base : Nat) (upper : Bool) (n : Nat) : Octets :=
  (Nat.toDigits base n).map fun c => if upper then c.toUpper.toUInt8 else c.toUInt8

/-- a number in a base, which the alternate form shows before the digits -/
def digits (d : Directive) (base : Nat) (upper : Bool) (n : Nat) : Octets :=
  let own := d.atLeast (digitsIn base upper n)
  if base = 8 then
    d.number d.precision.isNone [] (if d.alternate && own.head? ≠ some 48 then 48 :: own else own)
  else if base = 16 && d.alternate && n ≠ 0 then
    d.number d.precision.isNone (if upper then "0X" else "0x") own
  else d.number d.precision.isNone [] own

end Directive

/-! ## Fractions -/

namespace Directive

/-- the digits of a quotient with a number of places after the point -/
def fixedDigits (d : Directive) (above below places : Nat) : Octets :=
  let scaled := Octets.decimal (Fraction.nearest (above * Fraction.power 10 places) below)
  let all := List.replicate (places + 1 - scaled.length) 48 ++ scaled
  let split := all.length - places
  all.take split ++ (if places = 0 && !d.alternate then [] else [46]) ++ all.drop split

/-- the decimal exponent of a quotient, zero for zero -/
def decimalExponent (above below : Nat) : Int :=
  if above = 0 then 0
  else
    let guess : Int := ((Octets.decimal above).length : Int) - ((Octets.decimal below).length : Int)
    let atLeast : Bool :=
      if 0 ≤ guess then decide (below * Fraction.power 10 guess.natAbs ≤ above)
      else decide (below ≤ above * Fraction.power 10 guess.natAbs)
    if atLeast then guess else guess - 1

/-- the first digits of a quotient, one more than `places`, and the exponent they are for -/
def leadingDigits (above below places : Nat) : Octets × Int :=
  let e := decimalExponent above below
  let shift : Int := (places : Int) - e
  let n :=
    if 0 ≤ shift then Fraction.nearest (above * Fraction.power 10 shift.natAbs) below
    else Fraction.nearest above (below * Fraction.power 10 shift.natAbs)
  let digits := Octets.decimal n
  if above ≠ 0 && digits.length > places + 1 then (digits.take (places + 1), e + 1)
  else (digits ++ List.replicate (places + 1 - digits.length) 48, e)

/-- an exponent with its sign and at least two digits -/
def exponentText (upper : Bool) (e : Int) : Octets :=
  let digits := Octets.decimal e.natAbs
  let letter : Octets := if upper then "E" else "e"
  let sign : Octets := if e < 0 then "-" else "+"
  letter ++ sign ++ List.replicate (2 - digits.length) 48 ++ digits

/-- digits with a point after the first one, and the exponent -/
def scientificText (d : Directive) (upper : Bool) (digits : Octets) (e : Int) : Octets :=
  let tail := digits.drop 1
  digits.take 1 ++ (if tail.isEmpty && !d.alternate then [] else 46 :: tail) ++ exponentText upper e

/-- the style of a fraction: as it is, with an exponent, the shorter of both, or in hexadecimal digits -/
inductive Style where
  | fixed
  | scientific
  | general
  | hexadecimal
  deriving DecidableEq, Repr

def dropZeros (os : Octets) : Octets := (os.reverse.dropWhile (· == 48)).reverse

/-- the hexadecimal digits of a fraction after the mark of their base, with the exponent of two -/
def hexadecimalDigits (d : Directive) (p : Precision) (upper : Bool) (above below : Nat) : Octets :=
  let lowest := p.lowest + p.bits - 1
  let e := if above = 0 then 0 else max (Fraction.highestBit above below) lowest - ((p.leading : Int) - 1)
  let most := (p.bits - p.leading) / 4
  let places := d.precision.getD most
  let n := Fraction.nearest (above * Fraction.power 2 (-e).toNat * Fraction.power 16 places)
    (below * Fraction.power 2 e.toNat)
  let carries := Fraction.power 16 (places + 1) ≤ n
  let (n, e) := if carries then (n / 16, e + 4) else (n, e)
  let whole := digitsIn 16 upper n
  let all := List.replicate (places + 1 - whole.length) 48 ++ whole
  let tail := if d.precision.isSome then all.drop 1 else dropZeros (all.drop 1)
  let letter : Octets := if upper then "P" else "p"
  let sign : Octets := if e < 0 then "-" else "+"
  all.take 1 ++ (if tail.isEmpty && !d.alternate then [] else 46 :: tail) ++ letter ++ sign ++ Octets.decimal e.natAbs

/-- the digits of a fraction in a style -/
def styled (d : Directive) (p : Precision) (style : Style) (upper : Bool) (above below : Nat) : Octets :=
  let places := d.precision.getD 6
  match style with
  | .hexadecimal => d.hexadecimalDigits p upper above below
  | .fixed => d.fixedDigits above below places
  | .scientific =>
    let (digits, e) := leadingDigits above below places
    d.scientificText upper digits e
  | .general =>
    let wanted := max places 1
    let (digits, e) := leadingDigits above below (wanted - 1)
    if e < -4 ∨ (wanted : Int) ≤ e then
      d.scientificText upper (if d.alternate then digits else digits.take 1 ++ dropZeros (digits.drop 1)) e
    else
      let fixed := d.fixedDigits above below ((wanted : Int) - 1 - e).natAbs
      if d.alternate || !fixed.contains 46 then fixed
      else
        let cut := dropZeros fixed
        if cut.getLast? = some 46 then cut.dropLast else cut

/-- a fraction in a style, as far as it can be held -/
def fraction (d : Directive) (p : Precision) (style : Style) (upper : Bool) (f : Fraction) : Octets :=
  match f with
  | .finite negative above below =>
    let mark : Octets := if style = .hexadecimal then if upper then "0X" else "0x" else []
    d.number true (d.signOf negative ++ mark) (d.styled p style upper above below)
  | .infinite negative => d.padded (d.signOf negative ++ (if upper then "INF" else "inf"))
  | .undefined negative => d.padded (d.signOf negative ++ (if upper then "NAN" else "nan"))

end Directive

end Bench

end InterfacePages

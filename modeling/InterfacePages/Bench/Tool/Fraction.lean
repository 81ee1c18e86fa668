/-
Fractions that are written in digits.

Fractions are exact: `Fraction.read?` reads one in decimal or hexadecimal digits, and `Precision.fit` gives the nearest
one that a number of bits can hold.
-/
import InterfacePages.Text.Octets

namespace InterfacePages

namespace Bench

/-- a number with a sign: a quotient, something beyond all numbers, or no number at all -/
inductive Fraction where
  | finite (negative : Bool) (above below : Nat)
  | infinite (negative : Bool)
  | undefined (negative : Bool)
  deriving DecidableEq, Repr, Inhabited

namespace Fraction

/-- zero -/
def zero : Fraction := .finite false 0 1

def power (base exponent : Nat) : Nat := Nat.pow base exponent

/-- the nearest whole number to a quotient, the even one of two -/
def nearest (above below : Nat) : Nat :=
  let q := above / below
  let twice := 2 * (above % below)
  if twice < below then q else if below < twice then q + 1 else q + q % 2

/-- the exponent of the highest bit of a quotient that is not zero -/
def highestBit (above below : Nat) : Int :=
  let guess : Int := (Nat.log2 above : Int) - (Nat.log2 below : Int)
  let atLeast : Bool :=
    if 0 ≤ guess then decide (below * power 2 guess.natAbs ≤ above) else decide (below ≤ above * power 2 guess.natAbs)
  if atLeast then guess else guess - 1

/-- whether octets begin with letters, large or small -/
def beginsWith (letters os : Octets) : Bool :=
  letters.isPrefixOf (os.map fun c => if Octet.isUpper c then c + 32 else c)

/-- the exponent after a letter, small or large, at the beginning of some octets and how many they are -/
def exponent (letter : Nat) (os : Octets) : Int × Nat :=
  let digitsAfter (sign : Int) (rest : Octets) (extra : Nat) : Int × Nat :=
    let digits := rest.takeWhile Octet.isDigit
    if digits.isEmpty then (0, 0) else (sign * Octets.valueIn 10 digits, digits.length + extra)
  match os with
  | e :: rest =>
    if e.toNat = letter ∨ e.toNat + 32 = letter then
      match rest with
      | 45 :: rest => digitsAfter (-1) rest 2
      | 43 :: rest => digitsAfter 1 rest 2
      | rest => digitsAfter 1 rest 1
    else (0, 0)
  | [] => (0, 0)

/-- the exponents that count; beyond them nothing can be held -/
def exponentLimit : Int := 20000

/-- an exponent, as far as it counts beside a number of digits -/
def bounded (e : Int) (digits : Nat) : Int := max (-exponentLimit - 4 * digits) (min (exponentLimit + 4 * digits) e)

def scaled (negative : Bool) (n base : Nat) (e : Int) : Fraction :=
  if n = 0 then .finite negative 0 1
  else if 0 ≤ e then .finite negative (n * power base e.natAbs) 1
  else .finite negative n (power base e.natAbs)

/-- the digits before and after a point at the beginning of some octets, and what follows them -/
def pointed (isDigit : UInt8 → Bool) (os : Octets) : Octets × Octets × Octets :=
  let before := os.takeWhile isDigit
  let rest := os.drop before.length
  match rest with
  | 46 :: more =>
    let after := more.takeWhile isDigit
    if before.isEmpty && after.isEmpty then ([], [], rest) else (before, after, more.drop after.length)
  | rest => (before, [], rest)

/-- a fraction in digits of a base at the beginning of some octets; `letter` introduces the exponent, which is one of
`power` -/
def digits? (negative : Bool) (base letter power : Nat) (isDigit : UInt8 → Bool) (os : Octets) :
    Option (Fraction × Octets) :=
  let (before, after, rest) := pointed isDigit os
  let count := before.length + after.length
  if count = 0 then none
  else
    let (e, width) := exponent letter rest
    let places := if base = 16 then 4 * after.length else after.length
    some (scaled negative (Octets.valueIn base (before ++ after)) power (bounded (e - places) count), rest.drop width)

/-- the fraction at the beginning of some octets and what follows it, if there is one -/
def read? (os : Octets) : Option (Fraction × Octets) :=
  let unsigned := os.dropWhile Octet.isSpace
  let (negative, rest) :=
    match unsigned with
    | 45 :: rest => (true, rest)
    | 43 :: rest => (false, rest)
    | rest => (false, rest)
  if beginsWith "infinity" rest then some (.infinite negative, rest.drop 8)
  else if beginsWith "inf" rest then some (.infinite negative, rest.drop 3)
  else if beginsWith "nan" rest then some (.undefined negative, afterUndefined (rest.drop 3))
  else
    let hexadecimal :=
      if beginsWith "0x" rest then digits? negative 16 112 2 Octet.isHexadecimal (rest.drop 2) else none
    hexadecimal.or (digits? negative 10 101 10 Octet.isDigit rest)
where
  /-- what follows the parentheses after something that is no number -/
  afterUndefined (os : Octets) : Octets :=
    match os with
    | 40 :: rest =>
      let inside := rest.takeWhile fun c => Octet.isNamePart c
      match rest.drop inside.length with
      | 41 :: after => after
      | _ => os
    | os => os

end Fraction

/-- what can be held: a number of bits, down to the exponent of the last of them and below a highest one; `leading` bits
make the first hexadecimal digit -/
structure Precision where
  bits : Nat
  lowest : Int
  highest : Int
  leading : Nat
  deriving DecidableEq, Repr

namespace Precision

def double : Precision := ⟨53, -1074, 1024, 1⟩

def extended : Precision := ⟨64, -16445, 16384, 4⟩

/-- the nearest fraction that can be held, and whether the given one lies beyond what can be -/
def fit (p : Precision) : Fraction → Fraction × Bool
  | .finite negative above below =>
    if above = 0 then (.finite negative 0 1, false)
    else
      let highest := Fraction.highestBit above below
      let shift := min ((p.bits : Int) - 1 - highest) (-p.lowest)
      let up := Fraction.power 2 shift.toNat
      let down := Fraction.power 2 (-shift).toNat
      let n := Fraction.nearest (above * up) (below * down)
      let tiny := highest < p.lowest + p.bits - 1 && n * below * down != above * up
      if Fraction.power 2 p.highest.toNat * up ≤ n * down then (.infinite negative, true)
      else (.finite negative (n * down) up, tiny)
  | f => (f, false)

end Precision

end Bench

end InterfacePages

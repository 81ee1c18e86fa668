/-
Binary floating-point numbers as the shortest decimal text that reads back as the same number.

A finite double is `m * 2 ^ q`. The reals that round to it form an interval around it, with its ends when `m` is even.
`shortestDigits` tries one digit, two digits, and so on up to seventeen: on each decimal grid only the two neighbours
of the number matter, and of two hits the nearer wins. `floatText` writes the digits: positionally when the decimal
exponent is at least -4 and below 16, otherwise with an exponent of at least two digits.
-/
import InterfacePages.Number.Digits

namespace InterfacePages

namespace Number

/-- a positive rational number -/
structure Ratio where
  num : Nat
  den : Nat
  deriving DecidableEq, Repr

/-- `m * 2 ^ q` -/
def Ratio.scale2 (m : Nat) (q : Int) : Ratio := ⟨m * Nat.pow 2 q.toNat, Nat.pow 2 (-q).toNat⟩

/-- `d * 10 ^ k` -/
def Ratio.scale10 (d : Nat) (k : Int) : Ratio := ⟨d * Nat.pow 10 k.toNat, Nat.pow 10 (-k).toNat⟩

/-- `a < b` -/
def Ratio.lt (a b : Ratio) : Bool := decide (a.num * b.den < b.num * a.den)

/-- `a ≤ b` -/
def Ratio.le (a b : Ratio) : Bool := decide (a.num * b.den ≤ b.num * a.den)

/-- the largest `k` from `start` down, at most `fuel` steps, with `10 ^ k ≤ r` -/
def exponentFrom (r : Ratio) : Nat → Int → Int
  | 0, k => k
  | fuel + 1, k => if (Ratio.scale10 1 k).le r then k else exponentFrom r fuel (k - 1)

/-- the whole part of `r / 10 ^ k` -/
def floorAt (r : Ratio) (k : Int) : Nat := (r.num * Nat.pow 10 (-k).toNat) / (r.den * Nat.pow 10 k.toNat)

/-- the number `m * 2 ^ q` together with the ends of the interval that rounds to it -/
structure Interval where
  value : Ratio
  low : Ratio
  high : Ratio
  closed : Bool

/-- whether a decimal rounds to the number -/
def Interval.holds (i : Interval) (r : Ratio) : Bool :=
  if i.closed then i.low.le r && r.le i.high else i.low.lt r && r.lt i.high

/-- the decimal `d * 10 ^ k` -/
structure Decimal where
  digits : Nat
  exponent : Int
  deriving DecidableEq, Repr

/-- twice the distance test: whether `low` is at least as near to the value as `high`, an exact tie going to the even -/
def nearerIsLow (i : Interval) (d : Nat) (k : Int) : Bool :=
  let below := Ratio.scale10 (2 * d + 1) k
  let value := Ratio.mk (2 * i.value.num) i.value.den
  if value.lt below then true else if below.lt value then false else d % 2 == 0

/-- the decimal with the grid's spacing `10 ^ k` that rounds to the number, when there is one -/
def onGrid? (i : Interval) (k : Int) : Option Decimal :=
  let d := floorAt i.value k
  match i.holds (Ratio.scale10 d k), i.holds (Ratio.scale10 (d + 1) k) with
  | true, true => some (if nearerIsLow i d k then ⟨d, k⟩ else ⟨d + 1, k⟩)
  | true, false => some ⟨d, k⟩
  | false, true => some ⟨d + 1, k⟩
  | false, false => none

/-- the first grid from spacing `10 ^ k` down, at most `fuel` of them, that has a hit -/
def shortestFrom (i : Interval) : Nat → Int → Decimal
  | 0, k => ⟨floorAt i.value k, k⟩
  | fuel + 1, k =>
    match onGrid? i k with
    | some d => d
    | none => shortestFrom i fuel (k - 1)

/-- the interval of the positive double with mantissa `m` and exponent `q`; the gap below a power of two is half as
wide -/
def intervalOf (m : Nat) (q : Int) (narrowBelow : Bool) : Interval :=
  ⟨Ratio.scale2 m q, Ratio.scale2 (4 * m - (if narrowBelow then 1 else 2)) (q - 2), Ratio.scale2 (4 * m + 2) (q - 2),
    m % 2 == 0⟩

/-- the shortest decimal that reads back as the positive double with these parts -/
def shortestDigits (m : Nat) (q : Int) (narrowBelow : Bool) : Decimal :=
  let i := intervalOf m q narrowBelow
  shortestFrom i 17 (exponentFrom i.value 640 310)

/-- digits without the zeros at their end, which move into the exponent; at most `fuel` of them -/
def Decimal.trim : Nat → Decimal → Decimal
  | 0, d => d
  | fuel + 1, d => if d.digits != 0 && d.digits % 10 == 0 then trim fuel ⟨d.digits / 10, d.exponent + 1⟩ else d

/-- the exponent as written: a sign and at least two digits -/
def exponentText (e : Int) : Text :=
  (if e < 0 then "e-" else "e+") ++ (if e.natAbs < 10 then "0" else "") ++ decimal e.natAbs

/-- a positive decimal as written -/
def Decimal.text (d : Decimal) : Text :=
  let digits := decimal d.digits
  let point : Int := d.exponent + digits.length
  if -4 < point ∧ point ≤ 16 then
    if point ≤ 0 then "0." ++ Text.repeated (-point).toNat 48 ++ digits
    else if digits.length ≤ point.toNat then digits ++ Text.repeated (point.toNat - digits.length) 48 ++ ".0"
    else digits.take point.toNat ++ "." ++ digits.drop point.toNat
  else
    (match digits with
      | [c] => [c]
      | c :: rest => c :: 46 :: rest
      | [] => []) ++ exponentText (point - 1)

def floatText (x : Float) : Text :=
  let bits := x.toBits.toNat
  let sign : Text := if bits / Nat.pow 2 63 = 1 then "-" else ""
  let biased : Nat := bits / Nat.pow 2 52 % 2048
  let fraction : Nat := bits % Nat.pow 2 52
  if biased = 2047 then if fraction = 0 then sign ++ "inf" else "nan"
  else if biased = 0 ∧ fraction = 0 then sign ++ "0.0"
  else
    let (m, q) : Nat × Int := if biased = 0 then (fraction, -1074) else (fraction + Nat.pow 2 52, (biased : Int) - 1075)
    sign ++ ((shortestDigits m q (fraction == 0 && decide (1 < biased))).trim 20).text

/-- the whole number that a double is exactly -/
def exactInteger? (x : Float) : Option Int :=
  let bits := x.toBits.toNat
  let biased : Nat := bits / Nat.pow 2 52 % 2048
  let fraction : Nat := bits % Nat.pow 2 52
  if biased = 2047 then none
  else
    let m := if biased = 0 then fraction else fraction + Nat.pow 2 52
    let magnitude : Option Nat :=
      if 1075 ≤ biased then some (m * Nat.pow 2 (biased - 1075))
      else if m % Nat.pow 2 (1075 - max biased 1) = 0 then some (m / Nat.pow 2 (1075 - max biased 1))
      else none
    magnitude.map fun n => if bits / Nat.pow 2 63 = 1 then -(n : Int) else n

/-- the double nearest to `± digits * 10 ^ exponent`; far outside the range of doubles it is infinite or zero -/
def nearestFloat (negative : Bool) (digits : Nat) (exponent : Int) : Float :=
  let point : Int := exponent + (decimal digits).length
  let x : Float :=
    if digits = 0 ∨ point < -400 then 0.0
    else if 400 < point then 1.0 / 0.0
    else Float.ofScientific digits (decide (exponent < 0)) exponent.natAbs
  if negative then -x else x

/-- the double nearest to a whole number, or nothing when it lies outside the range of doubles -/
def ofInteger? (n : Int) : Option Float :=
  let x := nearestFloat (decide (n < 0)) n.natAbs 0
  if x.isInf then none else some x

end Number

end InterfacePages

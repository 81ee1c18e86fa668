/-
Whole numbers as text: decimal, grouped by thousands, hexadecimal, and reading decimal digits back.
-/
import InterfacePages.Text.Basic
import InterfacePages.Text.Quoted

namespace InterfacePages

namespace Number

def decimal (n : Nat) : Text := (Nat.toDigits 10 n).map Char.toNat

/-- a minus sign before the digits of a negative number -/
def signed (digits : Nat → Text) : Int → Text
  | .ofNat n => digits n
  | .negSucc n => 45 :: digits (n + 1)

/-- a whole number in decimal -/
def integer (n : Int) : Text := signed decimal n

def hexadecimal (n : Int) : Text := signed (fun n => (Nat.toDigits 16 n).map Char.toNat) n

/-- commas between groups of three, counted from the end; the digits are given last first -/
def groupedReversed : Text → Text
  | a :: b :: c :: d :: rest => a :: b :: c :: 44 :: groupedReversed (d :: rest)
  | digits => digits

/-- a whole number with a comma before every group of three digits -/
def grouped (n : Int) : Text := signed (fun n => (groupedReversed (decimal n).reverse).reverse) n

/-- an ASCII decimal digit -/
def isDigit (c : Nat) : Bool := decide (48 ≤ c) && decide (c ≤ 57)

/-- the number that some ASCII digits write -/
def ofDigits (t : Text) : Nat := t.foldl (fun n c => n * 10 + (c - 48)) 0

/-- the value of a hexadecimal digit of either case -/
def hexValue? (c : Nat) : Option Nat :=
  if isDigit c then some (c - 48)
  else if 65 ≤ c ∧ c ≤ 70 then some (c - 55)
  else if 97 ≤ c ∧ c ≤ 102 then some (c - 87)
  else none

end Number

end InterfacePages

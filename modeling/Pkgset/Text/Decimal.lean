/-!
# Whole numbers in decimal digits
-/

namespace Pkgset.Decimal

/-- The digit for a number below ten. -/
def digit (n : Nat) : Char := Char.ofNat ('0'.toNat + n)

/-- The number that a digit stands for. -/
def value (c : Char) : Nat := c.toNat - '0'.toNat

/-- The digits of a number, without leading zeros. -/
def digits (n : Nat) : List Char :=
  if n < 10 then [digit n] else digits (n / 10) ++ [digit (n % 10)]

/-- The number that a list of digits stands for. -/
def ofDigits (cs : List Char) : Nat := cs.foldl (fun total c => 10 * total + value c) 0

/-- The text of an integer: its digits, after a minus sign if it is negative. -/
def ofInt : Int → List Char
  | .ofNat n => digits n
  | .negSucc n => '-' :: digits (n + 1)

/-- Reads a non-negative number below a limit: digits, with at most one plus sign before them. -/
def read? (limit : Nat) (text : String) : Option Nat :=
  let number := match text.toList with
    | '+' :: rest => rest
    | cs => cs
  if number ≠ [] ∧ number.all Char.isDigit ∧ ofDigits number < limit then some (ofDigits number) else none

end Pkgset.Decimal

import Pkgset.Text.Decimal

/-!
# Real numbers

Real numbers are fractions of whole numbers. They are read from texts, rounded to as
many binary digits as a machine keeps, and written with a number of decimal places. A
tie goes to the even neighbour.
-/

namespace Pkgset

/-- A real number, or what stands where there is none. -/
inductive Real where
  /-- A fraction, the second number of which is not zero. -/
  | finite (negative : Bool) (numerator denominator : Nat)
  | infinite (negative : Bool)
  | none (negative : Bool)
  deriving DecidableEq, Repr

namespace Real

/-- The number zero. -/
def zero : Real := .finite false 0 1

/-- A whole number. -/
def ofInt (n : Int) : Real := .finite (n < 0) n.natAbs 1

/-- The whole number nearest to a fraction. -/
def nearest (numerator denominator : Nat) : Nat :=
  let quotient := numerator / denominator
  let rest := 2 * (numerator % denominator)
  if rest < denominator then quotient
  else if denominator < rest then quotient + 1
  else quotient + quotient % 2

/-- Whether a power of a base is not above a fraction. -/
def reaches (base numerator denominator : Nat) (k : Int) : Bool :=
  if 0 ≤ k then denominator * Nat.pow base k.toNat ≤ numerator
  else denominator ≤ numerator * Nat.pow base (-k).toNat

/-- The first exponent downwards that passes a test, within a number of steps. -/
def descend (test : Int → Bool) : Nat → Int → Int
  | 0, k => k
  | bound + 1, k => if test k then k else descend test bound (k - 1)

/-- The last exponent upwards that passes a test, within a number of steps. -/
def ascend (test : Int → Bool) : Nat → Int → Int
  | 0, k => k
  | bound + 1, k => if test (k + 1) then ascend test bound (k + 1) else k

/-- The exponent of the greatest power of a base that is not above a fraction that is not
    zero. -/
def exponentOf (base numerator denominator : Nat) : Int :=
  let bits : Int := (Nat.log2 numerator : Int) - Nat.log2 denominator
  let guess := if base = 2 then bits else bits * 1233 / 4096
  let test := reaches base numerator denominator
  let bound := numerator.log2 + denominator.log2 + 8
  ascend test bound (descend test bound guess)

/-- A number times a power of a base. -/
def scaled (base numerator denominator : Nat) (k : Int) : Nat × Nat :=
  if 0 ≤ k then (numerator * Nat.pow base k.toNat, denominator)
  else (numerator, denominator * Nat.pow base (-k).toNat)

/-- A number rounded to a number of binary digits. -/
def rounded (bits : Nat) : Real → Real
  | .finite negative 0 d => .finite negative 0 d
  | .finite negative n d =>
    let k := exponentOf 2 n d - ((bits : Int) - 1)
    let (n, d) := scaled 2 n d (-k)
    let (n, d) := scaled 2 (nearest n d) 1 k
    .finite negative n d
  | other => other

/-- The digits that a text starts with, and the rest. -/
def digits (test : Char → Bool) (text : List Char) : List Char × List Char := (text.takeWhile test, text.dropWhile test)

/-- The value of a hexadecimal digit. -/
def hexValue (c : Char) : Nat :=
  if c.isDigit then c.toNat - 48 else if 'a' ≤ c ∧ c ≤ 'f' then c.toNat - 87 else c.toNat - 55

/-- Whether a character is a hexadecimal digit. -/
def isHex (c : Char) : Bool := c.isDigit || ('a' ≤ c && c ≤ 'f') || ('A' ≤ c && c ≤ 'F')

/-- The exponent behind a mark, and the rest. -/
def exponent? (marks : List Char) (text : List Char) : Int × List Char :=
  match text with
  | e :: rest =>
    if marks.contains e then
      let (sign, after) : Int × List Char := match rest with
        | '-' :: rest => (-1, rest)
        | '+' :: rest => (1, rest)
        | rest => (1, rest)
      let (found, after) := digits Char.isDigit after
      if found.isEmpty then (0, text) else (sign * Decimal.ofDigits found, after)
    else (0, text)
  | [] => (0, [])

/-- The most that an exponent counts. -/
def exponentLimit : Int := 6000

/-- The number that a text starts with, without blanks, and the rest. -/
def leading? (text : List Char) : Option (Real × List Char) :=
  let (negative, body) : Bool × List Char := match text with
    | '-' :: rest => (true, rest)
    | '+' :: rest => (false, rest)
    | rest => (false, rest)
  let starts (word : String) : Bool := (body.take word.length).map Char.toLower = word.toList
  if starts "infinity" then some (.infinite negative, body.drop 8)
  else if starts "inf" then some (.infinite negative, body.drop 3)
  else if starts "nan" then some (.none negative, body.drop 3)
  else
    let point (text : List Char) (test : Char → Bool) : List Char × List Char :=
      match text with
      | '.' :: rest => digits test rest
      | rest => ([], rest)
    let limited (k : Int) : Int := max (-exponentLimit) (min exponentLimit k)
    match body with
    | '0' :: x :: rest =>
      let (whole, after) := digits isHex rest
      let (part, last) := point after isHex
      if (x = 'x' || x = 'X') && !(whole.isEmpty && part.isEmpty) then
        let n := (whole ++ part).foldl (fun n c => 16 * n + hexValue c) 0
        let (k, last) := exponent? ['p', 'P'] last
        let (n, d) := scaled 2 n 1 (limited k - 4 * part.length)
        some (.finite negative n d, last)
      else decimal negative body point limited
    | body => decimal negative body point limited
where
  /-- The decimal number that a text starts with. -/
  decimal (negative : Bool) (body : List Char) (point : List Char → (Char → Bool) → List Char × List Char)
      (limited : Int → Int) : Option (Real × List Char) :=
    let (whole, after) := digits Char.isDigit body
    let (part, last) := point after Char.isDigit
    if whole.isEmpty && part.isEmpty then .none
    else
      let (k, last) := exponent? ['e', 'E'] last
      let (n, d) := scaled 10 (Decimal.ofDigits (whole ++ part)) 1 (limited k - part.length)
      some (.finite negative n d, last)

/-- Digits with zeros in front, to a width. -/
def padded (width : Nat) (digits : List Char) : List Char := List.replicate (width - digits.length) '0' ++ digits

/-- The digits of a fraction with a number of places behind the point. -/
def fixed (places numerator denominator : Nat) (keepPoint : Bool) : List Char :=
  let n := nearest (numerator * Nat.pow 10 places) denominator
  let all := padded (places + 1) (Decimal.digits n)
  let whole := all.take (all.length - places)
  if places = 0 then whole ++ (if keepPoint then ['.'] else [])
  else whole ++ '.' :: all.drop (all.length - places)

/-- The digits of a fraction with one place before the point and a number behind it, and
    the power of ten that belongs to them. -/
def significant (places numerator denominator : Nat) : List Char × Int :=
  if numerator = 0 then (List.replicate (places + 1) '0', 0)
  else
    let k := exponentOf 10 numerator denominator
    let (n, d) := scaled 10 numerator denominator ((places : Int) - k)
    let found := Decimal.digits (nearest n d)
    if places + 1 < found.length then (found.take (places + 1), k + 1) else (found, k)

/-- An exponent with its sign and at least two digits. -/
def exponentText (k : Int) : List Char :=
  (if k < 0 then '-' else '+') :: padded 2 (Decimal.digits k.natAbs)

/-- Digits with a point behind the first, and the power of ten. -/
def scientific (digits : List Char) (k : Int) (mark : Char) (keepPoint : Bool) : List Char :=
  let rest := digits.drop 1
  digits.take 1 ++ (if rest.isEmpty && !keepPoint then [] else ['.']) ++ rest ++ mark :: exponentText k

/-- Drops the zeros at the end of a list of digits. -/
def withoutZeros (digits : List Char) : List Char := (digits.reverse.dropWhile (· = '0')).reverse

/-- The digits of a fraction in the shorter of two ways, with a number of digits. -/
def general (precision numerator denominator : Nat) (mark : Char) (keepZeros : Bool) : List Char :=
  let precision := max 1 precision
  let (found, k) := significant (precision - 1) numerator denominator
  let trim (digits : List Char) : List Char := if keepZeros then digits else withoutZeros digits
  if k < -4 || (precision : Int) ≤ k then
    let first := found.take 1
    scientific (first ++ trim (found.drop 1)) k mark keepZeros
  else
    let places := ((precision : Int) - 1 - k).toNat
    let all := fixed places numerator denominator keepZeros
    if keepZeros || !all.contains '.' then all
    else
      let whole := all.takeWhile (· ≠ '.')
      let part := trim ((all.dropWhile (· ≠ '.')).drop 1)
      if part.isEmpty then whole else whole ++ '.' :: part

/-- The digits of a fraction in base sixteen, of which the first is one, with the power
    of two. -/
def hexadecimal (precision : Option Nat) (numerator denominator : Nat) (mark : Char) : List Char :=
  let (digits, k) : List Char × Int :=
    if numerator = 0 then (List.replicate (precision.getD 0 + 1) '0', 0)
    else
      let k := exponentOf 2 numerator denominator
      let places := precision.getD 13
      let (n, d) := scaled 2 numerator denominator (4 * (places : Int) - k)
      let found := padded (places + 1) (Nat.toDigits 16 (nearest n d))
      (if precision.isNone then found.take 1 ++ withoutZeros (found.drop 1) else found, k)
  let rest := digits.drop 1
  digits.take 1 ++ (if rest.isEmpty then [] else '.' :: rest) ++ mark :: (if k < 0 then '-' else '+') ::
    Decimal.digits k.natAbs

end Real
end Pkgset

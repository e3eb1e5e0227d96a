import Pkgset.Tool.Expression
import Pkgset.Tool.Words

/-!
# Programs that write numbers
-/

namespace Pkgset.Tool
open Kernel

/-- A decimal number: its digits as an integer, and how many of them are decimal places. -/
structure Fixed where
  mantissa : Int
  places : Nat

namespace Fixed

/-- The number of a text. -/
def ofText? (text : String) : Option Fixed :=
  let (sign, body) : Int × List Char := match text.toList with
    | '-' :: rest => (-1, rest)
    | '+' :: rest => (1, rest)
    | rest => (1, rest)
  let (body, exponent) : List Char × Option Int := match body.findIdx? fun c => c = 'e' || c = 'E' with
    | some place => (body.take place, Expression.integer? (String.ofList (body.drop (place + 1))))
    | none => (body, some 0)
  let whole := body.takeWhile Char.isDigit
  let digits? : Option (List Char) := match body.drop whole.length with
    | [] => if whole.isEmpty then none else some []
    | '.' :: places => if places.all Char.isDigit && !(whole.isEmpty && places.isEmpty) then some places else none
    | _ => none
  match digits?, exponent with
  | some places, some exponent =>
    let mantissa := sign * (Decimal.ofDigits (whole ++ places) : Int)
    let shift := (places.length : Int) - exponent
    if 0 ≤ shift then some ⟨mantissa, shift.toNat⟩ else some ⟨mantissa * (Nat.pow 10 (-shift).toNat : Nat), 0⟩
  | _, _ => none

/-- The mantissa of a number with more places. -/
def scaled (number : Fixed) (places : Nat) : Int := number.mantissa * (Nat.pow 10 (places - number.places) : Nat)

/-- The text of a mantissa with places. -/
def text (mantissa : Int) (places : Nat) : String :=
  let digits := Decimal.digits mantissa.natAbs
  let digits := List.replicate (places + 1 - digits.length) '0' ++ digits
  let whole := digits.take (digits.length - places)
  (if mantissa < 0 then "-" else "") ++ String.ofList whole ++
    (if places = 0 then "" else "." ++ String.ofList (digits.drop whole.length))

end Fixed

/-- What stands around the directive of a format, and the directive. -/
def directive? (format : List Char) : Except String (List Char × List Char × List Char) :=
  let rec front : Nat → List Char → List Char × List Char
    | 0, rest => ([], rest)
    | _, [] => ([], [])
    | bound + 1, '%' :: '%' :: rest =>
      let (text, rest) := front bound rest
      ('%' :: text, rest)
    | _, '%' :: rest => ([], '%' :: rest)
    | bound + 1, c :: rest =>
      let (text, rest) := front bound rest
      (c :: text, rest)
  let (before, rest) := front (format.length + 1) format
  match rest with
  | [] => .error " has no % directive"
  | mark :: rest =>
    let flags := rest.takeWhile fun c => "-+#0 '".toList.contains c || c.isDigit || c = '.'
    match rest.drop flags.length with
    | [] => .error " ends in %"
    | letter :: rest =>
      if !"eEfFgGaA".toList.contains letter then .error (" has unknown %" ++ letter.toString ++ " directive")
      else
        let (after, more) := front (rest.length + 1) rest
        if more.isEmpty then .ok (before, mark :: flags ++ [letter], after) else .error " has too many % directives"

/-- Writes numbers from one to another. -/
def seq (arguments : List String) : Work Nat := do
  let isNumber (text : String) : Bool := text.startsWith "-" && (Fixed.ofText? text).isSome
  let front := arguments.takeWhile fun text => text.startsWith "-" && !isNumber text
  let front := if front.getLast?.any ["-s", "-f", "--separator", "--format"].contains then
      arguments.take (front.length + 1)
    else front
  let given ← (Grammar.plain "f/format: s/separator: w/equal-width" false 1).given front
  let operands := given.operands ++ arguments.drop front.length
  let number (text : String) : Work Fixed := do
    match Fixed.ofText? text with
    | some number => return number
    | none => Work.misuse 1 ("invalid floating point argument: " ++ quoted text)
  let (first, step, last) ← match operands with
    | [] => Work.misuse 1 "missing operand"
    | [last] => pure ("1", "1", last)
    | [first, last] => pure (first, "1", last)
    | [first, step, last] => pure (first, step, last)
    | _ :: _ :: _ :: extra :: _ => Work.misuse 1 ("extra operand " ++ quoted extra)
  let start ← number first
  let by_ ← number step
  if by_.mantissa = 0 then Work.misuse 1 ("invalid Zero increment value: " ++ quoted step)
  let limit ← number last
  let shown := max start.places by_.places
  let places := max shown limit.places
  let a := start.scaled places
  let b := by_.scaled places
  let c := limit.scaled places
  let count : Nat := if 0 < b then (if c < a then 0 else (Int.tdiv (c - a) b).toNat + 1)
    else if a < c then 0 else (Int.tdiv (a - c) (-b)).toNat + 1
  let separator := (given.last? "s").getD "\n"
  let valueAt (n : Nat) : Int := a + b * n
  let plain (n : Nat) : String :=
    Fixed.text (Int.tdiv (valueAt n) (Nat.pow 10 (places - shown) : Nat)) shown
  let write ← match given.last? "f" with
    | some format =>
      match directive? format.toList with
      | .error message => Work.fail 1 ("format " ++ quoted format ++ message)
      | .ok (before, directive, after) =>
        pure fun n =>
          let (printed, _) := Format.print formatStyle (String.ofList directive) [Fixed.text (valueAt n) places]
          String.ofList (before ++ printed.output ++ after)
    | none =>
      if given.has "w" then
        let width := max (plain 0).length (max (plain (count - 1)).length
          (Fixed.text (Int.tdiv c (Nat.pow 10 (places - shown) : Nat)) shown).length)
        pure fun n =>
          let text := plain n
          let (sign, digits) := if text.startsWith "-" then ("-", (text.drop 1).toString) else ("", text)
          sign ++ String.ofList (List.replicate (width - digits.length - sign.length) '0') ++ digits
      else pure plain
  for n in List.range count do
    Work.put (write n ++ (if n + 1 = count then "\n" else separator))
  return 0

/-- The prime factors of a number, from a divisor on. -/
def factors : Nat → Nat → Nat → List Nat
  | 0, _, n => [n]
  | bound + 1, divisor, n =>
    if n ≤ 1 then []
    else if n < divisor * divisor then [n]
    else if n % divisor = 0 then divisor :: factors bound divisor (n / divisor)
    else factors bound (divisor + 1) n

/-- Writes the prime factors of numbers. -/
def factor (arguments : List String) : Work Nat := do
  let mut status := 0
  for text in arguments do
    match natural? text with
    | some n =>
      Work.put (digits n ++ ":" ++ String.join ((factors 10000000 2 n).map fun p => " " ++ digits p) ++ "\n")
    | none =>
      Work.warn (quoted text ++ " is not a valid positive integer")
      status := 1
  return status

end Pkgset.Tool

import Pkgset.Text.Real

/-!
# Formats

A format is a text with directives, each of which is replaced by an argument in some
form. A format is used again as long as arguments are left. Programs differ in the
escapes that they know and in what they say of arguments that are no numbers.
-/

namespace Pkgset

/-- The form of one directive. -/
structure Form where
  left : Bool
  plus : Bool
  space : Bool
  alternate : Bool
  zero : Bool
  width : Nat
  precision : Option Nat
  deriving DecidableEq, Repr

namespace Form

/-- The form without any wishes. -/
def plain : Form := ⟨false, false, false, false, false, 0, none⟩

/-- A text brought to the width. A sign or a mark in front comes before zeros. -/
def padded (form : Form) (front body : List Char) (zeros : Bool) : List Char :=
  let missing := form.width - front.length - body.length
  if form.left then front ++ body ++ List.replicate missing ' '
  else if zeros then front ++ List.replicate missing '0' ++ body
  else List.replicate missing ' ' ++ front ++ body

/-- A text, cut to the precision. -/
def text (form : Form) (body : List Char) : List Char :=
  form.padded [] (form.precision.elim body body.take) false

/-- The sign of a number. -/
def sign (form : Form) (negative : Bool) : List Char :=
  if negative then ['-'] else if form.plus then ['+'] else if form.space then [' '] else []

/-- Digits of a number with a mark in front. -/
def digits (form : Form) (front body : List Char) : List Char :=
  let body := match form.precision with
    | none => body
    | some precision => if precision = 0 && body = ['0'] then [] else Real.padded precision body
  form.padded front body (form.zero && form.precision.isNone)

/-- A signed number. -/
def integer (form : Form) (n : Int) : List Char := form.digits (form.sign (n < 0)) (Decimal.digits n.natAbs)

/-- A number without a sign, as a letter says. -/
def unsigned (form : Form) (letter : Char) (n : Nat) : List Char :=
  match letter with
  | 'o' =>
    let body := Nat.toDigits 8 n
    let form' := if form.alternate && body.head? != some '0' && form.precision.getD 0 ≤ body.length then
      { form with precision := some (body.length + 1) } else form
    form'.padded [] (form'.precision.elim body fun precision =>
      if precision = 0 && n = 0 then (if form.alternate then ['0'] else []) else Real.padded precision body)
      (form.zero && form.precision.isNone)
  | 'x' => form.digits (if form.alternate && n ≠ 0 then ['0', 'x'] else []) (Nat.toDigits 16 n)
  | 'X' =>
    form.digits (if form.alternate && n ≠ 0 then ['0', 'X'] else []) ((Nat.toDigits 16 n).map Char.toUpper)
  | _ => form.digits [] (Decimal.digits n)

/-- A real number, as a letter says. -/
def real (form : Form) (letter : Char) (x : Real) : List Char :=
  let upper (text : List Char) : List Char := if letter.isUpper then text.map Char.toUpper else text
  match x with
  | .infinite negative => form.padded (form.sign negative) (upper ['i', 'n', 'f']) false
  | .none negative => form.padded (form.sign negative) (upper ['n', 'a', 'n']) false
  | .finite negative n d =>
    let precision := form.precision.getD 6
    match letter.toLower with
    | 'f' => form.padded (form.sign negative) (Real.fixed precision n d form.alternate) form.zero
    | 'e' =>
      let (found, k) := Real.significant precision n d
      form.padded (form.sign negative) (upper (Real.scientific found k 'e' form.alternate)) form.zero
    | 'g' => form.padded (form.sign negative) (upper (Real.general precision n d 'e' form.alternate)) form.zero
    | _ =>
      form.padded (form.sign negative ++ upper ['0', 'x']) (upper (Real.hexadecimal form.precision n d 'p')) form.zero

end Form

/-- How a program reads formats. -/
structure FormatStyle where
  /-- Whether bytes may be escaped by their numbers in base sixteen, and characters by
      their code points. -/
  hexEscapes : Bool
  codeEscapes : Bool
  /-- Whether an escape may stop the output. -/
  stopEscape : Bool
  /-- Whether quotes may be escaped. -/
  quoteEscape : Bool
  /-- Whether texts may be quoted, and how. -/
  quote : Option (String → String)
  /-- The binary digits of real numbers. -/
  bits : Nat
  /-- What is said of a text that is no number, one that only starts with a number, and a
      number that is too great. -/
  notNumber : String → String
  notWhole : String → String
  tooGreat : String → String
  /-- Whether the empty text is no number. -/
  wantsNumber : Bool
  /-- What is said of a directive that is not known, and of one without a letter. -/
  unknown : String → String
  noLetter : String → String

/-- What has been written by a format, and what is said of its arguments, each after so
    many characters. -/
structure Printed where
  output : List Char
  messages : List (Nat × String)
  failed : Bool
  /-- Whether nothing more is written. -/
  stopped : Bool
  /-- What was wrong with the format itself. -/
  fault : Option String
  /-- Whether the format has directives. -/
  hasDirectives : Bool

namespace Format

/-- Whether a character is an octal digit. -/
def isOctal (c : Char) : Bool := '0' ≤ c && c ≤ '7'

/-- The number of octal digits. -/
def octal (digits : List Char) : Nat := digits.foldl (fun n c => 8 * n + (c.toNat - 48)) 0

/-- The byte of a number. -/
def byte (n : Nat) : Char := Char.ofNat (n % 256)

/-- What a backslash and a letter behind it stand for. -/
def simple? (c : Char) : Option Char :=
  match c with
  | '\\' => some '\\'
  | 'a' => some '\x07'
  | 'b' => some '\x08'
  | 'f' => some '\x0c'
  | 'n' => some '\n'
  | 'r' => some '\x0d'
  | 't' => some '\t'
  | 'v' => some '\x0b'
  | _ => none

/-- What an escape stands for, and the text behind it; nothing stands for the end of all
    output. The text starts behind the backslash. -/
def escape (style : FormatStyle) (inArgument : Bool) (text : List Char) : Option (List Char) × List Char :=
  match text with
  | [] => (some ['\\'], [])
  | c :: rest =>
    if c = 'c' && (inArgument || style.stopEscape) then (none, [])
    else if isOctal c then
      let digits := (text.take 3).takeWhile isOctal
      if inArgument && c = '0' && rest.head?.any isOctal then
        let digits := (rest.take 3).takeWhile isOctal
        (some [byte (octal digits)], rest.drop digits.length)
      else (some [byte (octal digits)], text.drop digits.length)
    else match simple? c with
      | some meant => (some [meant], rest)
      | none =>
        if c = 'e' || (c = 'E' && style.hexEscapes && !style.stopEscape) then (some ['\x1b'], rest)
        else if style.hexEscapes && c = 'x' then
          let digits := (rest.take 2).takeWhile Real.isHex
          if digits.isEmpty then (some ['\\', 'x'], rest)
          else (some [byte (digits.foldl (fun n c => 16 * n + Real.hexValue c) 0)], rest.drop digits.length)
        else if style.codeEscapes && (c = 'u' || c = 'U') then
          let count := if c = 'u' then 4 else 8
          let digits := (rest.take count).takeWhile Real.isHex
          let n := digits.foldl (fun n c => 16 * n + Real.hexValue c) 0
          if digits.isEmpty then (some ['\\', c], rest)
          else if n < 128 then (some [Char.ofNat n], rest.drop digits.length)
          else
            let body := Real.padded (if n < 65536 then 4 else 8) ((Nat.toDigits 16 n).map Char.toUpper)
            (some ('\\' :: (if n < 65536 then 'u' else 'U') :: body), rest.drop digits.length)
        else if c = '"' && style.quoteEscape && !inArgument then (some ['"'], rest)
        else (some ['\\'], text)

/-- An argument with its escapes resolved, and whether all output ends there, within a
    number of escapes. -/
def unescaped (style : FormatStyle) : Nat → List Char → List Char × Bool
  | 0, text => (text, false)
  | _, [] => ([], false)
  | bound + 1, '\\' :: rest =>
    match escape style true rest with
    | (none, _) => ([], true)
    | (some meant, rest) =>
      let (more, stops) := unescaped style bound rest
      (meant ++ more, stops)
  | bound + 1, c :: rest =>
    let (more, stops) := unescaped style bound rest
    (c :: more, stops)

/-- The blanks in front of numbers. -/
def isSpace (c : Char) : Bool := c = ' ' || (9 ≤ c.toNat && c.toNat ≤ 13)

/-- The whole number that a text starts with, and the rest. -/
def wholeNumber? (text : List Char) : Option (Int × List Char) :=
  let (sign, body) : Int × List Char := match text.dropWhile isSpace with
    | '-' :: rest => (-1, rest)
    | '+' :: rest => (1, rest)
    | rest => (1, rest)
  let number (base : Nat) (test : Char → Bool) (body : List Char) : Int × List Char :=
    let digits := body.takeWhile test
    (sign * (digits.foldl (fun n c => base * n + Real.hexValue c) 0 : Nat), body.drop digits.length)
  match body with
  | '0' :: x :: c :: rest =>
    if (x = 'x' || x = 'X') && Real.isHex c then some (number 16 Real.isHex (c :: rest))
    else some (number 8 isOctal body)
  | '0' :: _ => some (number 8 isOctal body)
  | c :: _ => if c.isDigit then some (number 10 Char.isDigit body) else none
  | [] => none

/-- The last part of an argument that was read as a number, and what is wrong with it. -/
def complaint? (style : FormatStyle) (text : String) (found rest : Option (List Char)) : Option String :=
  match found, rest with
  | none, _ => if text = "" && !style.wantsNumber then none else some (style.notNumber text)
  | some _, some [] | some _, none => none
  | some _, some _ => some (style.notWhole text)

/-- The whole number of an argument within limits, and what is wrong with it. -/
def wholeOf (style : FormatStyle) (signed : Bool) (text : String) : Int × Option String :=
  match text.toList with
  | '"' :: c :: _ | '\'' :: c :: _ => (c.toNat, none)
  | chars =>
    match wholeNumber? chars with
    | none => (0, complaint? style text none none)
    | some (n, rest) =>
      let low : Int := if signed then -(Nat.pow 2 63 : Nat) else -(Nat.pow 2 64 - 1 : Nat)
      let high : Int := if signed then (Nat.pow 2 63 - 1 : Nat) else (Nat.pow 2 64 - 1 : Nat)
      if n < low then (if signed then low else high, some (style.tooGreat text))
      else if high < n then (high, some (style.tooGreat text))
      else (n, complaint? style text (some []) (some rest))

/-- The real number of an argument, and what is wrong with it. -/
def realOf (style : FormatStyle) (text : String) : Real × Option String :=
  match text.toList with
  | '"' :: c :: _ | '\'' :: c :: _ => (Real.ofInt c.toNat, none)
  | chars =>
    match Real.leading? (chars.dropWhile isSpace) with
    | none => (Real.zero, complaint? style text none none)
    | some (x, rest) => (x.rounded style.bits, complaint? style text (some []) (some rest))

/-- What is written while a format is used once. -/
structure Passing where
  printed : Printed
  arguments : List String

namespace Passing

/-- Writes characters. -/
def put (passing : Passing) (text : List Char) : Passing :=
  { passing with printed := { passing.printed with output := passing.printed.output ++ text } }

/-- Notes what is wrong with an argument. -/
def note (passing : Passing) (message : Option String) : Passing :=
  match message with
  | none => passing
  | some message =>
    let place := passing.printed.output.length
    { passing with
      printed := { passing.printed with messages := passing.printed.messages ++ [(place, message)], failed := true } }

/-- The next argument. -/
def take (passing : Passing) : Option String × Passing :=
  match passing.arguments with
  | [] => (none, passing)
  | first :: rest => (some first, { passing with arguments := rest })

end Passing

/-- The wishes in front of a directive. -/
def flags (form : Form) : List Char → Form × List Char
  | '-' :: rest => flags { form with left := true } rest
  | '+' :: rest => flags { form with plus := true } rest
  | ' ' :: rest => flags { form with space := true } rest
  | '#' :: rest => flags { form with alternate := true } rest
  | '0' :: rest => flags { form with zero := true } rest
  | rest => (form, rest)

/-- A number in a directive, which may come from the arguments. -/
def size (style : FormatStyle) (passing : Passing) (text : List Char) : Option Int × Passing × List Char :=
  match text with
  | '*' :: rest =>
    let (argument, passing) := passing.take
    let (n, message) := wholeOf style true (argument.getD "0")
    (some n, passing.note message, rest)
  | text =>
    let digits := text.takeWhile Char.isDigit
    (if digits.isEmpty then none else some (Decimal.ofDigits digits), passing, text.drop digits.length)

/-- Uses a format once, within a number of steps. -/
def pass (style : FormatStyle) : Nat → List Char → Passing → Passing
  | 0, _, passing => passing
  | _, [], passing => passing
  | bound + 1, c :: rest, passing =>
    if c = '\\' then
      match escape style false rest with
      | (none, _) => { passing with printed := { passing.printed with stopped := true } }
      | (some meant, rest) => pass style bound rest (passing.put meant)
    else if c != '%' then pass style bound rest (passing.put [c])
    else match rest with
      | '%' :: rest => pass style bound rest (passing.put ['%'])
      | _ =>
        let passing := { passing with printed := { passing.printed with hasDirectives := true } }
        let (form, after) := flags .plain rest
        let (width, passing, after) := size style passing after
        let form := match width with
          | none => form
          | some n => { form with width := n.natAbs, left := form.left || n < 0 }
        let (form, passing, after) := match after with
          | '.' :: after =>
            let (precision, passing, after) := size style passing after
            let n := precision.getD 0
            ({ form with precision := if n < 0 then none else some n.toNat }, passing, after)
          | after => (form, passing, after)
        let after := after.dropWhile fun c => style.hexEscapes && ['h', 'l', 'L', 'j', 'z', 't', 'q'].contains c &&
          !(c = 'q' && style.quote.isSome)
        let directive := String.ofList ('%' :: rest.take (rest.length - after.length))
        match after with
        | [] => { passing with printed := { passing.printed with fault := some (style.noLetter directive) } }
        | letter :: after =>
          let (argument, next) := passing.take
          let text := argument.getD ""
          let goOn (passing : Passing) (text : List Char) : Passing := pass style bound after (passing.put text)
          match letter with
          | 's' => goOn next (form.text text.toList)
          | 'c' => goOn next ({ form with precision := none }.text [text.toList.headD '\x00'])
          | 'b' =>
            let (meant, stops) := unescaped style (text.length + 1) text.toList
            let next := next.put (form.text meant)
            if stops then { next with printed := { next.printed with stopped := true } }
            else pass style bound after next
          | 'd' | 'i' =>
            let (n, message) := match argument with
              | some text => wholeOf style true text
              | none => (0, none)
            goOn (next.note message) (form.integer n)
          | 'o' | 'u' | 'x' | 'X' =>
            let (n, message) := match argument with
              | some text => wholeOf style false text
              | none => (0, none)
            goOn (next.note message) (form.unsigned letter (n % (Nat.pow 2 64 : Nat)).toNat)
          | 'a' | 'A' | 'e' | 'E' | 'f' | 'F' | 'g' | 'G' =>
            let (x, message) := match argument with
              | some text => realOf style text
              | none => (Real.zero, none)
            goOn (next.note message) (form.real letter x)
          | _ =>
            match style.quote, letter with
            | some quote, 'q' => goOn next (form.text (quote text).toList)
            | _, _ =>
              { passing with
                printed := { passing.printed with
                  fault := some (style.unknown (directive ++ letter.toString)), failed := true } }

/-- Uses a format as long as arguments are left, within a number of times. -/
def passes (style : FormatStyle) (format : List Char) : Nat → Passing → Passing
  | 0, passing => passing
  | bound + 1, passing =>
    let next := pass style (format.length + 1) format passing
    if next.printed.stopped || next.printed.fault.isSome || next.arguments.isEmpty ||
        next.arguments.length = passing.arguments.length then next
    else passes style format bound next

/-- What a format writes with arguments, and the arguments that it has no use for. -/
def print (style : FormatStyle) (format : String) (arguments : List String) : Printed × List String :=
  let start : Passing := ⟨⟨[], [], false, false, none, false⟩, arguments⟩
  let passing := passes style format.toList (arguments.length + 1) start
  (passing.printed, passing.arguments)

end Format
end Pkgset

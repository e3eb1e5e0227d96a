import Pkgset.Json

/-!
# The tokens of a JSON text

A text is cut into brackets, words, numbers and quoted texts; the blanks between
them are dropped. A quoted text may name a lone surrogate, which no string holds;
it is a token all the same, and only who asks for its characters is refused.
-/

namespace Pkgset.Json

/-- One token. A number without point and exponent keeps its sign and size. -/
inductive Token where
  | openBrace | closeBrace | openBracket | closeBracket | colon | comma
  | null
  | flag (value : Bool)
  | whole (negative : Bool) (size : Nat)
  | fraction
  | text (content : Option String)
  deriving DecidableEq, Repr

/-- A piece of a quoted text: a character, or a UTF-16 unit written as an escape. -/
inductive Piece where
  | char (c : Char)
  | unit (code : Nat)

namespace Token

/-- The value of four hexadecimal digits. -/
def unit? (a b c d : Char) : Option Nat := do
  let a ← Bytes.hexValue? a
  let b ← Bytes.hexValue? b
  let c ← Bytes.hexValue? c
  let d ← Bytes.hexValue? d
  some (((a * 16 + b) * 16 + c) * 16 + d)

/-- The character that a short escape stands for. -/
def escaped? (c : Char) : Option Char :=
  if c = '"' ∨ c = '\\' ∨ c = '/' then some c
  else if c = 'b' then some '\x08'
  else if c = 'f' then some '\x0c'
  else if c = 'n' then some '\n'
  else if c = 'r' then some '\r'
  else if c = 't' then some '\t'
  else none

/-- The pieces up to the closing quote, and what follows it. Control characters
    have to be escaped. -/
def pieces? : List Char → Option (List Piece × List Char)
  | [] => none
  | '"' :: rest => some ([], rest)
  | '\\' :: 'u' :: a :: b :: c :: d :: rest => do
    let code ← unit? a b c d
    let (others, after) ← pieces? rest
    some (.unit code :: others, after)
  | '\\' :: c :: rest => do
    let plain ← escaped? c
    let (others, after) ← pieces? rest
    some (.char plain :: others, after)
  | c :: rest =>
    if c = '\\' ∨ c.toNat < 32 then none
    else do
      let (others, after) ← pieces? rest
      some (.char c :: others, after)

/-- The characters of a list of pieces. A high surrogate unit joins the low one
    after it; any other surrogate has no character. -/
def characters? : List Piece → Option (List Char)
  | [] => some []
  | .char c :: rest => do
    let others ← characters? rest
    some (c :: others)
  | .unit high :: .unit low :: rest =>
    if 0xD800 ≤ high ∧ high ≤ 0xDBFF then
      if 0xDC00 ≤ low ∧ low ≤ 0xDFFF then do
        let others ← characters? rest
        some (Char.ofNat (0x10000 + (high - 0xD800) * 0x400 + (low - 0xDC00)) :: others)
      else none
    else if 0xDC00 ≤ high ∧ high ≤ 0xDFFF then none
    else do
      let others ← characters? (.unit low :: rest)
      some (Char.ofNat high :: others)
  | .unit code :: rest =>
    if 0xD800 ≤ code ∧ code ≤ 0xDFFF then none
    else do
      let others ← characters? rest
      some (Char.ofNat code :: others)

/-- The digits at the start, and what follows them. -/
def takeDigits (cs : List Char) : List Char × List Char := (cs.takeWhile Char.isDigit, cs.dropWhile Char.isDigit)

/-- Drops a point and the digits after it; a point needs a digit after it. -/
def dropPoint? : List Char → Option (Bool × List Char)
  | '.' :: rest =>
    match takeDigits rest with
    | ([], _) => none
    | (_, after) => some (true, after)
  | cs => some (false, cs)

/-- Drops an exponent; its sign may be missing, its digits may not. -/
def dropExponent? : List Char → Option (Bool × List Char)
  | c :: rest =>
    if c = 'e' ∨ c = 'E' then
      let unsigned := match rest with
        | '+' :: after => after
        | '-' :: after => after
        | after => after
      match takeDigits unsigned with
      | ([], _) => none
      | (_, after) => some (true, after)
    else some (false, c :: rest)
  | [] => some (false, [])

/-- A number without its sign. A zero in front stands alone. -/
def unsigned? (negative : Bool) (cs : List Char) : Option (Token × List Char) := do
  let (size, rest) ← match cs with
    | '0' :: rest => some (0, rest)
    | cs =>
      match takeDigits cs with
      | ([], _) => none
      | (ds, rest) => some (Decimal.ofDigits ds, rest)
  let (point, rest) ← dropPoint? rest
  let (exponent, rest) ← dropExponent? rest
  some (if point || exponent then .fraction else .whole negative size, rest)

/-- The first token of a text that starts with none of the blanks, and what follows it. -/
def first? : List Char → Option (Token × List Char)
  | '{' :: rest => some (.openBrace, rest)
  | '}' :: rest => some (.closeBrace, rest)
  | '[' :: rest => some (.openBracket, rest)
  | ']' :: rest => some (.closeBracket, rest)
  | ':' :: rest => some (.colon, rest)
  | ',' :: rest => some (.comma, rest)
  | 'n' :: 'u' :: 'l' :: 'l' :: rest => some (.null, rest)
  | 't' :: 'r' :: 'u' :: 'e' :: rest => some (.flag true, rest)
  | 'f' :: 'a' :: 'l' :: 's' :: 'e' :: rest => some (.flag false, rest)
  | '"' :: rest => do
    let (found, after) ← pieces? rest
    some (.text ((characters? found).map String.ofList), after)
  | '-' :: rest => unsigned? true rest
  | cs => unsigned? false cs

/-- The blanks that may stand between tokens. -/
def isGap (c : Char) : Bool := c = ' ' || c = '\n' || c = '\t' || c = '\r'

/-- The tokens of a text, with a bound on their number and the gaps between them. -/
def upTo : Nat → List Char → Option (List Token)
  | _, [] => some []
  | 0, _ :: _ => none
  | bound + 1, c :: rest =>
    if isGap c then upTo bound rest
    else do
      let (token, after) ← first? (c :: rest)
      let others ← upTo bound after
      some (token :: others)

/-- The tokens of a text. Each takes at least one character. -/
def ofText? (cs : List Char) : Option (List Token) := upTo cs.length cs

end Token
end Pkgset.Json

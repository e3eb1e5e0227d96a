import Pkgset.Text.Dict
import Pkgset.Text.Decimal
import Pkgset.Bytes

/-!
# JSON values and their compact text

A value prints without blanks, the members of a record in the order in which it
lists them. Numbers are whole.
-/

namespace Pkgset

/-- A JSON value. -/
inductive Json where
  | null
  | flag (value : Bool)
  | number (value : Int)
  | text (value : String)
  | list (items : List Json)
  | record (members : List (String × Json))
  deriving Inhabited

namespace Json

/-- How a character stands in a JSON text: the quote, the backslash and the
    control characters are escaped. -/
def escape (c : Char) : List Char :=
  if c = '"' then ['\\', '"']
  else if c = '\\' then ['\\', '\\']
  else if c = '\x08' then ['\\', 'b']
  else if c = '\t' then ['\\', 't']
  else if c = '\n' then ['\\', 'n']
  else if c = '\x0c' then ['\\', 'f']
  else if c = '\r' then ['\\', 'r']
  else if c.toNat < 32 then
    ['\\', 'u', '0', '0', Bytes.hexDigit (c.toNat / 16), Bytes.hexDigit (c.toNat % 16)]
  else [c]

/-- A text between quotes. -/
def quote (text : String) : List Char := '"' :: (text.toList.flatMap escape ++ ['"'])

mutual

/-- The compact text of a value. -/
def print : Json → List Char
  | .null => ['n', 'u', 'l', 'l']
  | .flag true => ['t', 'r', 'u', 'e']
  | .flag false => ['f', 'a', 'l', 's', 'e']
  | .number value => Decimal.ofInt value
  | .text value => quote value
  | .list [] => ['[', ']']
  | .list (first :: rest) => '[' :: (print first ++ printItems rest)
  | .record [] => ['{', '}']
  | .record ((name, value) :: rest) => '{' :: (quote name ++ ':' :: (print value ++ printMembers rest))

/-- The items after the first, and the closing bracket. -/
def printItems : List Json → List Char
  | [] => [']']
  | item :: rest => ',' :: (print item ++ printItems rest)

/-- The members after the first, and the closing brace. -/
def printMembers : List (String × Json) → List Char
  | [] => ['}']
  | (name, value) :: rest => ',' :: (quote name ++ ':' :: (print value ++ printMembers rest))

end

/-- The compact text of a value, as a string. -/
def toText (value : Json) : String := String.ofList value.print

/-- A list of texts. -/
def texts (items : List String) : Json := .list (items.map .text)

/-- A table of texts, its members in ascending order. -/
def textTable (table : Dict String) : Json := .record (Dict.mapValues .text table)

/-- A value or `null`. -/
def orNull (value : Option Json) : Json := value.getD .null

mutual

/-- Whether two values are equal. -/
def same : Json → Json → Bool
  | .null, .null => true
  | .flag a, .flag b => a == b
  | .number a, .number b => a == b
  | .text a, .text b => a == b
  | .list a, .list b => sameItems a b
  | .record a, .record b => sameMembers a b
  | _, _ => false

/-- Whether two lists of values are equal. -/
def sameItems : List Json → List Json → Bool
  | [], [] => true
  | a :: as, b :: bs => same a b && sameItems as bs
  | _, _ => false

/-- Whether two lists of members are equal. -/
def sameMembers : List (String × Json) → List (String × Json) → Bool
  | [], [] => true
  | (m, a) :: as, (n, b) :: bs => m == n && same a b && sameMembers as bs
  | _, _ => false

end

end Json
end Pkgset

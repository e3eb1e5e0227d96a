import Pkgset.Text.Hidden

/-!
# Quoted text in inspection texts

An inspection text shows a string between double quotes, with escapes for what
would not be seen or would end it: `\0`, `\t`, `\r`, `\n`, `\\`, `\"`, and the code
point in hexadecimal for every other hidden character.
-/

namespace Pkgset.Quoted

/-- The hexadecimal digits of a number, without leading zeros. -/
def hexDigits (n : Nat) : List Char := Nat.toDigits 16 n

/-- How a character stands between quotes. -/
def escape (c : Char) : List Char :=
  if c = '\x00' then ['\\', '0']
  else if c = '\t' then ['\\', 't']
  else if c = '\r' then ['\\', 'r']
  else if c = '\n' then ['\\', 'n']
  else if c = '\\' then ['\\', '\\']
  else if c = '"' then ['\\', '"']
  else if Hidden.isHidden c then ['\\', 'u', '{'] ++ hexDigits c.toNat ++ ['}']
  else [c]

/-- A text between quotes. -/
def quote (text : String) : String := String.ofList ('"' :: (text.toList.flatMap escape ++ ['"']))

/-- Quoted texts between brackets. -/
def list (texts : List String) : String := "[" ++ ", ".intercalate (texts.map quote) ++ "]"

/-- Quoted texts between braces. -/
def set (texts : List String) : String := "\x7b" ++ ", ".intercalate (texts.map quote) ++ "\x7d"

/-- Quoted keys and written values between braces. -/
def map (entries : List (String × String)) : String :=
  "\x7b" ++ ", ".intercalate (entries.map fun entry => quote entry.1 ++ ": " ++ entry.2) ++ "\x7d"

end Pkgset.Quoted

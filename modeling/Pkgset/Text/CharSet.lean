/-!
# Sets of characters

The sets of characters that patterns and expressions name: those between two
characters, and those that have a name.
-/

namespace Pkgset

/-- A set of characters that a pattern or an expression names. -/
inductive CharSet where
  | range (low high : Char)
  | named (name : String)
  deriving DecidableEq, Repr

namespace CharSet

/-- The place of a character in the order of ranges, in which the second half of the
    bytes comes before the first. -/
def rank (c : Char) : Int := if c.toNat < 128 then c.toNat else (c.toNat : Int) - 256

/-- Whether a character can be seen. -/
def isVisible (c : Char) : Bool := '!' ≤ c && c ≤ '~'

/-- The named sets. -/
def named? (name : String) : Option (Char → Bool) :=
  match name with
  | "alnum" => some Char.isAlphanum
  | "alpha" => some Char.isAlpha
  | "blank" => some fun c => c = ' ' || c = '\t'
  | "cntrl" => some fun c => c.toNat < 32 || c.toNat = 127
  | "digit" => some Char.isDigit
  | "graph" => some isVisible
  | "lower" => some Char.isLower
  | "print" => some fun c => c = ' ' || isVisible c
  | "punct" => some fun c => isVisible c && !c.isAlphanum
  | "space" => some fun c => c = ' ' || (9 ≤ c.toNat && c.toNat ≤ 13)
  | "upper" => some Char.isUpper
  | "xdigit" => some fun c => c.isDigit || ('a' ≤ c && c ≤ 'f') || ('A' ≤ c && c ≤ 'F')
  | _ => none

/-- Whether a set has a character. -/
def has : CharSet → Char → Bool
  | .range low high, c => rank low ≤ rank c && rank c ≤ rank high
  | .named name, c => (named? name).any (· c)

end CharSet

end Pkgset

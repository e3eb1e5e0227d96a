import Pkgset.Json.Document
import Pkgset.Sha256

/-!
# Fingerprints

The identity of a derivation: the hash of its recipe, as hexadecimal text.
-/

namespace Pkgset

/-- The identity of a derivation. -/
structure Fingerprint where
  text : String
  deriving DecidableEq, Repr, Hashable

namespace Fingerprint

/-- How many bytes of a fingerprint name a store entry. -/
def shortSize : Nat := 20

/-- The characters that fill at most `size` bytes; a character that would cross the
    limit makes the cut impossible. -/
def cut? : Nat → List Char → Option (List Char)
  | _, [] => some []
  | 0, _ :: _ => some []
  | size + 1, c :: rest =>
    if c.utf8Size ≤ size + 1 then (cut? (size + 1 - c.utf8Size) rest).map (c :: ·) else none
termination_by _ cs => cs.length

/-- The first twenty bytes, unless they end inside a character. -/
def short? (fingerprint : Fingerprint) : Option String :=
  (cut? shortSize fingerprint.text.toList).map String.ofList

/-- The short form of a hash: hexadecimal text can be cut anywhere. -/
def short (fingerprint : Fingerprint) : String := fingerprint.short?.getD fingerprint.text

/-- The fingerprint of a JSON value: the hash of its compact text. -/
def ofJson (value : Json) : Fingerprint := ⟨Sha256.hex (Bytes.ofText value.toText)⟩

/-- The order of fingerprints is that of their texts. -/
def le (a b : Fingerprint) : Bool := decide (a.text ≤ b.text)

/-- Reads a fingerprint out of a JSON document. -/
def ofDocument? (document : Json.Document) : Option Fingerprint := document.text?.map Fingerprint.mk

end Fingerprint
end Pkgset

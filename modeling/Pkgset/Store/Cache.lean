import Pkgset.Store

/-!
# The cache in front of a store

The cache remembers outputs by fingerprint. The first outputs recorded for a
fingerprint are those that every later question gets.
-/

namespace Pkgset

/-- Outputs by the texts of fingerprints. -/
structure BuildCache where
  entries : Dict Outputs
  deriving DecidableEq, Repr

namespace BuildCache

/-- The cache that remembers nothing. -/
def empty : BuildCache := ⟨[]⟩

/-- The outputs that are remembered for a fingerprint. -/
def get? (cache : BuildCache) (fingerprint : Fingerprint) : Option Outputs := Dict.get? cache.entries fingerprint.text

/-- Whether outputs are remembered for a fingerprint. -/
def contains (cache : BuildCache) (fingerprint : Fingerprint) : Bool := (cache.get? fingerprint).isSome

/-- The number of fingerprints with outputs. -/
def size (cache : BuildCache) : Nat := cache.entries.length

/-- Remembers outputs, unless there are some, and gives those that are remembered
    then. -/
def insert (cache : BuildCache) (fingerprint : Fingerprint) (outputs : Outputs) : BuildCache × Outputs :=
  match cache.get? fingerprint with
  | some earlier => (cache, earlier)
  | none => (⟨Dict.insert cache.entries fingerprint.text outputs⟩, outputs)

/-- The outputs of a derivation, from memory or else from the store, which are
    remembered then. -/
def fetch (cache : BuildCache) (store : Store) (disk : Disk) (derivation : Derivation) :
    BuildCache × Option Outputs :=
  match cache.get? derivation.fingerprint with
  | some outputs => (cache, some outputs)
  | none =>
    match store.lookup disk derivation with
    | none => (cache, none)
    | some outputs =>
      let (cache, outputs) := cache.insert derivation.fingerprint outputs
      (cache, some outputs)

end BuildCache

/-- The fingerprints that somebody has the right to build at present. -/
structure Claims where
  held : List Fingerprint
  deriving DecidableEq, Repr

namespace Claims

/-- No claims. -/
def none : Claims := ⟨[]⟩

/-- Whether a fingerprint is claimed. -/
def isHeld (claims : Claims) (fingerprint : Fingerprint) : Bool := claims.held.contains fingerprint

/-- Takes the right to build a fingerprint, if nobody has it. -/
def claim? (claims : Claims) (fingerprint : Fingerprint) : Option Claims :=
  if claims.isHeld fingerprint then .none else some ⟨fingerprint :: claims.held⟩

/-- Gives the right back. -/
def release (claims : Claims) (fingerprint : Fingerprint) : Claims := ⟨claims.held.filter (· ≠ fingerprint)⟩

end Claims
end Pkgset

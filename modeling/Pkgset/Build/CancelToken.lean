/-!
# Cancel tokens

A token watches a signal. Copies of a token watch the same signal, and a signal
that is raised stays raised.
-/

namespace Pkgset

/-- A watcher of a signal, which is known by its number. -/
structure CancelToken where
  signal : Nat
  deriving DecidableEq, Repr

/-- Signals: for each whether it is raised. -/
structure Signals where
  raised : List Bool
  deriving DecidableEq, Repr

namespace Signals

/-- No signals. -/
def none : Signals := ⟨[]⟩

/-- A token for a new signal, which is not raised. -/
def create (signals : Signals) : Signals × CancelToken :=
  (⟨signals.raised ++ [false]⟩, ⟨signals.raised.length⟩)

/-- Raises the signal of a token. -/
def cancel (signals : Signals) (token : CancelToken) : Signals := ⟨signals.raised.set token.signal true⟩

/-- Whether the signal of a token is raised; one who waits for it waits no longer
    then. -/
def isCancelled (signals : Signals) (token : CancelToken) : Bool := (signals.raised[token.signal]?).getD false

end Signals
end Pkgset

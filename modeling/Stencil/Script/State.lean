/-! # The state of a scripted host

Expressions described by scripts can count and can cancel renderings.  Counters and tokens go
by name; those not used yet stand at zero and are not set.
-/

namespace Stencil.Script

/-- What a scripted host remembers. -/
structure State where
  counters : List (String × Nat)
  tokens : List (String × Bool)
  deriving Repr, DecidableEq

namespace State

def start : State := ⟨[], []⟩

def count (state : State) (counter : String) : Nat :=
  (state.counters.lookup counter).getD 0

def increment (state : State) (counter : String) : State :=
  { state with counters :=
      (counter, state.count counter + 1) :: state.counters.filter (·.1 != counter) }

def isSet (state : State) (token : String) : Bool :=
  (state.tokens.lookup token).getD false

def set (state : State) (token : String) (value : Bool) : State :=
  { state with tokens := (token, value) :: state.tokens.filter (·.1 != token) }

end State

end Stencil.Script

import Stencil.Scope

/-! # Numbered scopes

A register keeps the scopes that have been made, under consecutive numbers, so that any of
them can be extended, asked or dropped at any time.  A dropped scope is gone for good, but
the scopes that were made from it are not affected.
-/

namespace Stencil.Scope

/-- The scopes made so far by their numbers; a dropped one has left an empty place. -/
structure Register (β : Type) where
  entries : List (Option (Scope β))

namespace Register

variable {β : Type}

/-- The register in which number 0 is the scope of a document that is rendered directly. -/
def start : Register β := ⟨[some (.root .root)]⟩

def get? (register : Register β) (number : Nat) : Option (Scope β) :=
  register.entries[number]?.join

def add (register : Register β) (scope : Scope β) : Nat × Register β :=
  (register.entries.length, ⟨register.entries ++ [some scope]⟩)

def extend? (register : Register β) (number : Nat) (frame : Frame) :
    Option (Nat × Register β) :=
  (register.get? number).map fun scope => register.add (scope.extend frame)

/-- Adds a scope without bindings in the context of another one. -/
def root? (register : Register β) (number : Nat) : Option (Nat × Register β) :=
  (register.get? number).map fun scope => register.add (.root scope.context)

def drop (register : Register β) (number : Nat) : Register β :=
  ⟨register.entries.set number none⟩

end Register

end Stencil.Scope

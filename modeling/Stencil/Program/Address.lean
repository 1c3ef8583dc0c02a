/-! # Addresses

Every construct that binds names adds exactly one frame, to the names in scope while a
template is compiled and to the values in scope while it is rendered.  So a name can be
replaced by an address once and for all: how many frames to go out, and which place in the
frame found there.
-/

namespace Stencil.Program

/-- Where a name is bound, counted from the innermost frame. -/
structure Address where
  depth : Nat
  slot : Nat
  deriving Repr, DecidableEq

def Address.outward (address : Address) : Address :=
  { address with depth := address.depth + 1 }

/-- The names in scope, frame by frame, the innermost frame first. -/
abbrev Names := List (List String)

/-- The address of a name: the innermost frame that has it counts, and in the frame its
first place. -/
def Names.resolve? : Names → String → Option Address
  | [], _ => none
  | frame :: outer, name =>
    match frame.idxOf? name with
    | some slot => some ⟨0, slot⟩
    | none => (Names.resolve? outer name).map .outward

/-- The name under which a transform hands its rendered block to its expression. -/
def blockName : String := "__block"

end Stencil.Program

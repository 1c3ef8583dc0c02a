import Stencil.Program.Address
import Stencil.RenderError
import Stencil.Text.Quoted
import Stencil.Value

/-! # Scopes

The values in scope at some moment of a rendering, frame by frame, and the context of the
document that is being rendered: what the including document hands to it.  Extending a scope
makes a new one, so that every scope keeps its answers for ever.

What a section is depends on who renders, and is left open here as the type `β`.
-/

namespace Stencil

/-- What an include hands to the document it includes. -/
structure Context (β : Type) where
  depth : Nat
  /-- The forwarded values, the one that counts first. -/
  forwards : List (String × Value)
  /-- The supplied sections, the one that counts first. -/
  sections : List (String × β)

namespace Context

variable {β : Type}

def root : Context β := ⟨0, [], []⟩

/-- The context of a document included from within another one.  Of several values or
sections with the same name, the last counts. -/
def within (outer : Context β) (forwards : List (String × Value))
    (sections : List (String × β)) : Context β :=
  ⟨outer.depth + 1, forwards.reverse, sections.reverse⟩

def isIncluded (context : Context β) : Bool :=
  context.depth != 0

def forwarded? (context : Context β) (name : String) : Option Value :=
  context.forwards.lookup name

def forwarded (context : Context β) (name : String) : Except RenderError Value :=
  match context.forwarded? name with
  | some value => .ok value
  | none => .error (.unboundName name)

def section? (context : Context β) (name : String) : Option β :=
  context.sections.lookup name

end Context

/-- The names and values that one construct binds. -/
abbrev Frame := List (String × Value)

/-- The values in scope, the innermost frame first, and the context around them. -/
structure Scope (β : Type) where
  frames : List Frame
  context : Context β

namespace Scope

variable {β : Type}

def root (context : Context β) : Scope β := ⟨[], context⟩

def extend (scope : Scope β) (frame : Frame) : Scope β :=
  { scope with frames := frame :: scope.frames }

def resolve? (scope : Scope β) (address : Program.Address) : Option Value := do
  let frame ← scope.frames[address.depth]?
  let (_, value) ← frame[address.slot]?
  return value

/-- The value of a name: the innermost frame that has it counts, and in the frame its first
place; after all frames come the forwarded values. -/
def find? (scope : Scope β) (name : String) : Option Value :=
  (scope.frames.findSome? (·.lookup name)).or (scope.context.forwarded? name)

def lookup (scope : Scope β) (name : String) : Except RenderError Value :=
  match scope.find? name with
  | some value => .ok value
  | none => .error (.unboundName name)

/-- The names of all frames, the innermost first and the empty one of the document last. -/
def names (scope : Scope β) : List (List String) :=
  scope.frames.map (·.map (·.1)) ++ [[]]

def inspect (scope : Scope β) : String :=
  "[" ++ ", ".intercalate (scope.names.map fun frame =>
    "[" ++ ", ".intercalate (frame.map Text.quote) ++ "]") ++ "]"

end Scope

end Stencil

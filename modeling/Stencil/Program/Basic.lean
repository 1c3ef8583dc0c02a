import Stencil.Program.Address
import Stencil.Host.Callable

/-! # Programs

A program is a set of documents whose structure has been checked and whose names have been
resolved.  It is made of routines, one for each node of the template, and can be rendered any
number of times.
-/

namespace Stencil

namespace Program

open Host (Callable Parameter)

/-- A fragment with its callable, and its free names with their addresses. -/
structure Expression (σ : Type) where
  source : String
  reads : List (String × Address)
  /-- The parameters of the callable, each with the place of its name among those that are
  read. -/
  parameters : List (Nat × Parameter)
  callable : Callable σ

/-- The expression of a fragment that is a name by itself. -/
def Expression.read {σ : Type} (name : String) (address : Address) : Expression σ :=
  ⟨name, [(name, address)], [(0, ⟨name, some .any, true⟩)], .read name⟩

mutual

inductive Routine (σ : Type) where
  | literal (text : String)
  | output (expression : Expression σ) (raw : Bool)
  | effect (expression : Expression σ)
  | binding (name : String) (value : Option (Expression σ)) (body : List (Line σ))
  | choice (condition : Expression σ) (body otherwise : List (Line σ))
  | loop (item : String) (index : Option String) (iterable : Expression σ)
      (separator : Option String) (body fallback : List (Line σ))
  | transform (expression : Expression σ) (body : List (Line σ))
  | inclusion (target : DocId) (forwards : List (String × Expression σ))
      (sections : List (Section σ))
  | slot (name : String)

structure Line (σ : Type) where
  children : List (Routine σ)
  /-- What joins the line to the content before it, for a line that is nothing but its
  terminator. -/
  terminator : Option String
  indentation : Option String

structure Section (σ : Type) where
  name : String
  body : List (Line σ)

end

abbrev Block (σ : Type) := List (Line σ)

/-- The names in the frame of a loop: the element, and its position if it is asked for. -/
def loopNames (item : String) (index : Option String) : List String :=
  item :: index.toList

end Program

/-- Compiled documents, each of which can be rendered and included. -/
structure Program (σ : Type) where
  documents : List (Program.Block σ)

namespace Program

variable {σ : Type}

def document? (program : Program σ) (id : DocId) : Option (Block σ) :=
  program.documents[id.index]?

def size (program : Program σ) : Nat :=
  program.documents.length

def isEmpty (program : Program σ) : Bool :=
  program.documents.isEmpty

end Program

end Stencil

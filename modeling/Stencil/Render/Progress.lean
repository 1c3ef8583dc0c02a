import Stencil.Flow.Record
import Stencil.Scope

/-! # Progress of a rendering

What later parts of a rendering have to know of earlier ones: which sections have been put
out, and in which chunks.

A section is rendered once for each include that supplies it.  The document that has the slot
records the chunks, and puts out the record when it comes to a slot of the same name again.
A section's body belongs to the document around the include and is rendered with the progress
of that document, so it cannot reach the record in which it is going to be kept: it can never
be entered while it is being rendered.
-/

namespace Stencil

/-- The chunks of the sections that a document has rendered. -/
abbrev Recordings := List (String × List String)

structure Progress where
  /-- The recordings of the document that is being rendered, then those of the documents
  around it. -/
  recordings : List Recordings

/-- A section as the included document has it: a rendering with the progress of the document
around the include. -/
abbrev SectionFlow (σ : Type) := Progress → Flow σ Progress

namespace Progress

def start : Progress := ⟨[]⟩

def enter (progress : Progress) (recordings : Recordings) : Progress :=
  ⟨recordings :: progress.recordings⟩

def leave (progress : Progress) : Progress :=
  ⟨progress.recordings.tail⟩

def own (progress : Progress) : Recordings :=
  progress.recordings.headD []

end Progress

namespace Flow

variable {σ : Type}

/-- What a slot puts out: nothing if no section is supplied for it, the record of the section
if there is one, and else the section itself, of which it makes the record. -/
def slot (context : Context (SectionFlow σ)) (name : String) (progress : Progress) :
    Flow σ Progress :=
  match context.section? name with
  | none => .finish progress
  | some body =>
    match progress.own.lookup name with
    | some chunks => do
      emitAll chunks
      return progress
    | none => do
      -- The body goes on from the progress of the document around the include.
      let (outer, chunks) ← (body progress.leave).recorded
      return outer.enter ((name, chunks) :: progress.own)

end Flow

end Stencil

import Stencil.Flow

/-! # Gathering chunks into a text

A gathered flow puts out nothing.  Its chunks make up one text, which begins at the start of a
line of its own, whatever has been put out around it.  Like any rendering it can be cancelled
ahead of each chunk.
-/

namespace Stencil.Flow

variable {σ α : Type}

/-- Gathers the chunks behind a text that is or is not at the start of a line. -/
def gatheredAfter : (text : String) → (atStart : Bool) → Flow σ α → Flow σ (α × String)
  | text, _, finish result => finish (result, text)
  | _, _, fail error => fail error
  | _, _, bottomless => bottomless
  | text, atStart, emit chunk resume =>
    poll fun _ =>
      if chunk.isEmpty then (resume atStart).gatheredAfter text atStart
      else (resume (isNewline chunk)).gatheredAfter (text ++ chunk) (isNewline chunk)
  | text, atStart, call callable invocation resume =>
    call callable invocation fun value => (resume value).gatheredAfter text atStart
  | text, atStart, round resume => round fun go => (resume go).gatheredAfter text atStart
  | text, atStart, poll resume => poll fun go => (resume go).gatheredAfter text atStart

/-- Gathers all chunks of a flow, which is unfolded from there on, into one text. -/
def gathered (flow : Unit → Flow σ α) : Flow σ (α × String) :=
  poll fun go => (flow go).gatheredAfter "" true

end Stencil.Flow

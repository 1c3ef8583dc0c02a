import Stencil.Flow

/-! # Recording chunks

A recorded flow puts out the same chunks as before, and in the end gives them back as well.
-/

namespace Stencil.Flow

variable {σ α : Type}

/-- Keeps the chunks that are put out, given those kept before, the latest first. -/
def recordedAfter : (kept : List String) → Flow σ α → Flow σ (α × List String)
  | kept, finish result => finish (result, kept.reverse)
  | _, fail error => fail error
  | _, bottomless => bottomless
  | kept, emit chunk resume =>
    emit chunk fun atStart => (resume atStart).recordedAfter (chunk :: kept)
  | kept, call callable invocation resume =>
    call callable invocation fun value => (resume value).recordedAfter kept
  | kept, round resume => round fun go => (resume go).recordedAfter kept
  | kept, poll resume => poll fun go => (resume go).recordedAfter kept

def recorded (flow : Flow σ α) : Flow σ (α × List String) :=
  flow.recordedAfter []

end Stencil.Flow

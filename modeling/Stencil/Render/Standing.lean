import Stencil.Flow
import Stencil.Render.Options

/-! # Where a rendering stands

What the runner of a flow keeps count of, and the limits it keeps.  The flow itself knows of
neither: it asks.
-/

namespace Stencil

variable {σ : Type}

/-- What can end a rendering before its time. -/
structure Limits (σ : Type) where
  isCancelled : σ → Bool
  maxIterations : Option Nat

def Render.Options.limits (options : Render.Options σ) : Limits σ :=
  ⟨options.isCancelledAt, options.maxIterations⟩

structure Standing where
  atStart : Bool
  /-- The rounds that all loops together have begun. -/
  iterations : Nat
  deriving Repr, DecidableEq

namespace Standing

def start : Standing := ⟨true, 0⟩

/-- Where a rendering stands after a chunk.  An empty chunk is no output. -/
def afterChunk (standing : Standing) (chunk : String) : Standing :=
  if chunk.isEmpty then standing else { standing with atStart := isNewline chunk }

/-- Where a rendering stands after the beginning of a round, which the limit has to allow. -/
def afterRound (standing : Standing) (limits : Limits σ) : Except RenderError Standing :=
  let iterations := standing.iterations + 1
  match limits.maxIterations with
  | some limit =>
    if limit < iterations then .error (.tooManyIterations limit)
    else .ok { standing with iterations }
  | none => .ok { standing with iterations }

end Standing

end Stencil

import Stencil.Program.Compile
import Stencil.Render

/-! # Rendering in one step

A single document is compiled as a program of its own and rendered to its end.  Two things
can go wrong, and the failure says which of them did.
-/

namespace Stencil

open Host (Interpretation)
open Template (Document)

variable {σ : Type}

inductive OnceFailure where
  | compiling (error : CompileError)
  | rendering (error : RenderError)
  deriving Repr, DecidableEq

def OnceFailure.message : OnceFailure → String
  | compiling error => error.message
  | rendering error => error.message

/-- What a document comes to in one step, and the calls that were made. -/
structure Once (σ : Type) where
  result : Except OnceFailure String
  calls : List Invocation
  host : σ

/-- Compiles a document and renders it. -/
def Once.render (interpretation : Interpretation σ) (document : Document) (host : σ) : Once σ :=
  match Program.compile interpretation [document] with
  | .error refusal => ⟨.error (.compiling refusal.toError), [], host⟩
  | .ok program =>
    let drained := program.renderToEnd ⟨0⟩ host
    ⟨drained.toText.mapError .rendering, drained.calls, drained.host⟩

end Stencil

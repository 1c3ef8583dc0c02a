import Stencil.Escape

/-! # Options of a rendering

Escaping, limits, and a way to cancel.
-/

namespace Stencil.Render

/-- What can be chosen for one rendering on a host with states `σ`. -/
structure Options (σ : Type) where
  escape : Escape := .html
  /-- The greatest number of rounds that all loops together may run, if there is one. -/
  maxIterations : Option Nat := none
  /-- The greatest number of includes within each other, if there is one. -/
  maxIncludeDepth : Option Nat := some 64
  /-- Whether the rendering is cancelled, as the host says at each moment. -/
  isCancelled : Option (σ → Bool) := none

namespace Options

variable {σ : Type}

def isCancelledAt (options : Options σ) (host : σ) : Bool :=
  match options.isCancelled with
  | some isCancelled => isCancelled host
  | none => false

def inspectLimit : Option Nat → String
  | some limit => "Some(" ++ toString limit ++ ")"
  | none => "None"

def inspect (options : Options σ) : String :=
  let escape := match options.escape with
    | .html => "Html"
    | .plain => "None"
  "RenderOptions \x7b escape: " ++ escape
    ++ ", max_iterations: " ++ inspectLimit options.maxIterations
    ++ ", max_include_depth: " ++ inspectLimit options.maxIncludeDepth
    ++ ", cancellation_token: " ++ (if options.isCancelled.isSome then "true" else "false")
    ++ " \x7d"

end Options

end Stencil.Render
